import Dynamicloader.Loader.Model
/-!
# Reading `maps`

The kernel prints a mapping on one line that begins with its first address
in eight hexadecimal digits. Where the first line that mentions a module is
the one of its lowest mapping (`Shows`), `get_module_base` finds the address
printed there, and takes 0x8000 for none (`Shows.moduleBase_eq`).

`mapsText` prints the mappings of libc and the linker, so that every pair of
addresses is shown by some file (`mapsText_shows`).
-/

namespace Dynamicloader

namespace Loader

open Xloaderd (ascii isspace)

/-! ## Hexadecimal digits -/

/-- The digit of `v < 16`, as the kernel prints it. -/
def hexByte (v : ℕ) : UInt8 := UInt8.ofNat (if v < 10 then 48 + v else 87 + v)

/-- `k` digits of `n`. -/
def hexDigits : ℕ → ℕ → List UInt8
  | 0, _ => []
  | k + 1, n => hexDigits k (n / 16) ++ [hexByte (n % 16)]

theorem hexDigit_hexByte {v : ℕ} (h : v < 16) : hexDigit (hexByte v) = some v := by
  decide +revert

theorem length_hexDigits (k : ℕ) : ∀ n, (hexDigits k n).length = k := by
  induction k with
  | zero => intro n; rfl
  | succ k ih =>
    intro n
    rw [hexDigits, List.length_append, ih, List.length_singleton]

theorem hexDigit_of_mem {k : ℕ} {b : UInt8} :
    ∀ {n : ℕ}, b ∈ hexDigits k n → (hexDigit b).isSome := by
  induction k with
  | zero => intro n h; simp [hexDigits] at h
  | succ k ih =>
    intro n h
    rw [hexDigits, List.mem_append, List.mem_singleton] at h
    rcases h with h | rfl
    · exact ih h
    · rw [hexDigit_hexByte (Nat.mod_lt n (by decide))]
      rfl

theorem hexValue_append_singleton {ds : List UInt8} (hds : ∀ b ∈ ds, (hexDigit b).isSome)
    {d : UInt8} {v : ℕ} (hd : hexDigit d = some v) :
    ∀ n, hexValue n (ds ++ [d]) = 16 * hexValue n ds + v := by
  induction ds with
  | nil => intro n; simp [hexValue, hd]
  | cons b ds ih =>
    intro n
    obtain ⟨w, hw⟩ := Option.isSome_iff_exists.mp (hds b (by simp))
    simp only [List.cons_append, hexValue, hw]
    exact ih (fun b hb => hds b (by simp [hb])) _

/-- **Reading the digits gives the number.** -/
theorem hexValue_hexDigits (k : ℕ) : ∀ n, hexValue 0 (hexDigits k n) = n % 16 ^ k := by
  induction k with
  | zero => intro n; simp [hexDigits, hexValue, Nat.mod_one]
  | succ k ih =>
    intro n
    calc hexValue 0 (hexDigits (k + 1) n)
        = 16 * hexValue 0 (hexDigits k (n / 16)) + n % 16 :=
          hexValue_append_singleton (fun b hb => hexDigit_of_mem hb)
            (hexDigit_hexByte (Nat.mod_lt n (by decide))) 0
      _ = 16 * (n / 16 % 16 ^ k) + n % 16 := by rw [ih]
      _ = n % 16 ^ (k + 1) := by rw [Nat.pow_succ', Nat.mod_mul, Nat.add_comm]

/-- A byte that is no digit is not among digits. -/
theorem not_mem_hexDigits {b : UInt8} (h : hexDigit b = none) (k n : ℕ) : b ∉ hexDigits k n := by
  intro hb
  have := hexDigit_of_mem hb
  rw [h] at this
  cases this

/-! ## The address on a line -/

theorem cstring_append {a : List UInt8} (h : 0 ∉ a) (b : List UInt8) :
    cstring (a ++ b) = a ++ cstring b := by
  unfold cstring
  exact List.takeWhile_append_of_pos fun c hc => by
    simp only [bne_iff_ne, ne_eq]
    rintro rfl
    exact h hc

theorem cstring_of_not_mem {a : List UInt8} (h : 0 ∉ a) : cstring a = a := by
  have := cstring_append h []
  rwa [List.append_nil, show cstring [] = [] from rfl, List.append_nil] at this

/-- Up to the `-` a line is its first address. -/
theorem strtok_hexDigits (k n : ℕ) (rest : List UInt8) :
    strtok (hexDigits (k + 1) n ++ 45 :: rest) = hexDigits (k + 1) n := by
  have h45 : (45 : UInt8) ∉ hexDigits (k + 1) n := not_mem_hexDigits (by decide) _ _
  have hpos : ∀ b ∈ hexDigits (k + 1) n, (b != 45) = true := by
    intro b hb
    simp only [bne_iff_ne, ne_eq]
    rintro rfl
    exact h45 hb
  unfold strtok
  rw [cstring_append (not_mem_hexDigits (by decide) _ _)]
  have hcs : cstring (45 :: rest) = 45 :: cstring rest := rfl
  rw [hcs]
  obtain ⟨b, ds, hds⟩ := List.exists_cons_of_length_pos
    (show 0 < (hexDigits (k + 1) n).length by rw [length_hexDigits]; omega)
  have hb : (b == 45) = false := by
    have := hpos b (by simp [hds])
    simpa using this
  rw [hds, List.cons_append, List.dropWhile_cons_of_neg (by simp [hb]), ← List.cons_append, ← hds,
    List.takeWhile_append_of_pos hpos]
  simp

theorem isspace_of_hexDigit {b : UInt8} (h : (hexDigit b).isSome) : isspace b = false := by
  grind [hexDigit, isspace]

/-- A number of digits alone: no blank, no sign and no base stands in front. -/
theorem strtoul_of_hexDigit {b : UInt8} {ds : List UInt8}
    (hds : ∀ c ∈ b :: ds, (hexDigit c).isSome) (hlt : hexValue 0 (b :: ds) < 2 ^ 32) :
    strtoul (b :: ds) = BitVec.ofNat 32 (hexValue 0 (b :: ds)) := by
  have hb := hds b (by simp)
  have hspace : (b :: ds).dropWhile isspace = b :: ds := by simp [isspace_of_hexDigit hb]
  have hminus : b ≠ 45 := by rintro rfl; cases hb
  have hplus : b ≠ 43 := by rintro rfl; cases hb
  have hsign : skipSign (b :: ds) = b :: ds := by
    unfold skipSign
    split
    · rename_i heq
      exact absurd (List.cons.inj heq).1 hplus
    · rename_i heq
      exact absurd (List.cons.inj heq).1 hminus
    · rfl
  have hbase : skipBase (b :: ds) = b :: ds := by
    unfold skipBase
    split
    · rename_i heq
      have := hds 120 (by simp [heq])
      cases this
    · rename_i heq
      have := hds 88 (by simp [heq])
      cases this
    · rfl
  unfold strtoul
  simp only [hspace, hsign, hbase]
  rw [if_neg (by omega), if_neg (by simpa using hminus)]

/-- **The address a line begins with.** -/
theorem lineBase_eq {base : Word} {line : List UInt8}
    (h : hexDigits 8 base.toNat ++ [45] <+: line) :
    lineBase line = if base = 0x8000 then 0 else base := by
  obtain ⟨rest, rfl⟩ := h
  have hlt : base.toNat < 2 ^ 32 := base.isLt
  have hval : hexValue 0 (hexDigits 8 base.toNat) = base.toNat := by
    rw [hexValue_hexDigits]
    exact Nat.mod_eq_of_lt (by omega)
  have hul : strtoul (hexDigits 8 base.toNat) = base := by
    obtain ⟨b, ds, hds⟩ := List.exists_cons_of_length_pos
      (show 0 < (hexDigits 8 base.toNat).length by rw [length_hexDigits]; omega)
    rw [hds, strtoul_of_hexDigit (fun c hc => hexDigit_of_mem (hds ▸ hc))
      (by rw [← hds, hval]; exact hlt), ← hds, hval]
    simp
  rw [lineBase, List.append_assoc, List.singleton_append, strtok_hexDigits, hul]

/-! ## The base of a module -/

/-- The first line that mentions the module is that of its lowest mapping,
at `base`. -/
def Shows (maps : Option (List UInt8)) (name : List UInt8) (base : Word) : Prop :=
  ∃ text before line after, maps = some text ∧
    fgetsLines 1024 [] text = before ++ line :: after ∧
    (∀ l ∈ before, strstr l name = false) ∧ strstr line name = true ∧
    hexDigits 8 base.toNat ++ [45] <+: line

/-- What `get_module_base` makes of a base: 0x8000 is taken for no mapping. -/
def foundBase (base : Word) : Word := if base = 0x8000 then 0 else base

theorem Shows.moduleBase_eq {maps : Option (List UInt8)} {name : List UInt8} {base : Word}
    (h : Shows maps name base) : moduleBase maps name = foundBase base := by
  obtain ⟨text, before, line, after, rfl, hlines, hbefore, hline, hdigits⟩ := h
  have hfind : (fgetsLines 1024 [] text).find? (strstr · name) = some line := by
    rw [List.find?_eq_some_iff_append]
    exact ⟨hline, before, after, hlines, fun l hl => by simp [hbefore l hl]⟩
  simp only [moduleBase, hfind]
  exact lineBase_eq hdigits

/-! ## A file that shows two bases -/

/-- A line of `fgets`. -/
theorem fgetsLines_line {size : ℕ} {body : List UInt8} (hbody : 10 ∉ body) (text : List UInt8) :
    ∀ line : List UInt8, line.length + body.length + 2 ≤ size →
      fgetsLines size line (body ++ 10 :: text) =
        (line ++ body ++ [10]) :: fgetsLines size [] text := by
  induction body with
  | nil =>
    intro line _
    simp [fgetsLines]
  | cons b body ih =>
    intro line hsize
    rw [List.length_cons] at hsize
    have hb : ¬ (b = 10 ∨ line.length + 2 = size) := by
      rintro (rfl | h)
      · exact hbody (by simp)
      · omega
    rw [List.cons_append, fgetsLines, if_neg hb,
      ih (fun h => hbody (by simp [h])) (line ++ [b]) (by simp; omega)]
    simp

/-- A mapping as the kernel prints it, up to the name. -/
def mapping (base : Word) : List UInt8 :=
  hexDigits 8 base.toNat ++ 45 ::
    (hexDigits 8 (base + 0x1000).toNat ++ ascii " r-xp 00000000 00:00 0 ".toList)

/-- A file with a mapping of libc and one of the linker. -/
def mapsText (libc linker : Word) : List UInt8 :=
  (mapping libc ++ libcPath) ++ 10 :: ((mapping linker ++ linkerPath) ++ 10 :: [])

theorem not_mem_mapping {b : UInt8} (hb : hexDigit b = none)
    (hb' : b ∉ 45 :: ascii " r-xp 00000000 00:00 0 ".toList) (base : Word) : b ∉ mapping base := by
  simp only [mapping, List.mem_append, List.mem_cons, not_or] at hb' ⊢
  exact ⟨not_mem_hexDigits hb _ _, hb'.1, not_mem_hexDigits hb _ _, hb'.2⟩

theorem mapsText_lines (libc linker : Word) :
    fgetsLines 1024 [] (mapsText libc linker) =
      [mapping libc ++ libcPath ++ [10], mapping linker ++ linkerPath ++ [10]] := by
  have hlen : ∀ base, (mapping base).length = 40 := by
    intro base
    simp [mapping, length_hexDigits, ascii]
  have h10 : ∀ base, (10 : UInt8) ∉ mapping base := not_mem_mapping (by decide) (by decide)
  have hlibc : 10 ∉ mapping libc ++ libcPath := by
    rw [List.mem_append, not_or]
    exact ⟨h10 libc, by decide⟩
  have hlinker : 10 ∉ mapping linker ++ linkerPath := by
    rw [List.mem_append, not_or]
    exact ⟨h10 linker, by decide⟩
  rw [mapsText, fgetsLines_line hlibc _ [] (by simp [hlen, libcPath, ascii]),
    fgetsLines_line hlinker _ [] (by simp [hlen, linkerPath, ascii])]
  simp [fgetsLines]

/-- A name with a byte that a line lacks is not on it. -/
theorem strstr_eq_false {line name : List UInt8} {b : UInt8} (hb : b ∈ name) (h : b ∉ line) :
    strstr line name = false := by
  rw [strstr, decide_eq_false_iff_not]
  intro hname
  exact h ((List.takeWhile_prefix _).subset (hname.subset hb))

theorem strstr_line {base : Word} {name : List UInt8} (hname : 0 ∉ name) :
    strstr (mapping base ++ name ++ [10]) name = true := by
  have h0 : 0 ∉ mapping base ++ name ++ [10] := by
    simp only [List.mem_append, not_or]
    exact ⟨⟨not_mem_mapping (by decide) (by decide) base, hname⟩, by decide⟩
  rw [strstr, cstring_of_not_mem h0, decide_eq_true_iff]
  exact ⟨mapping base, [10], rfl⟩

theorem mapping_digits (base : Word) (name : List UInt8) :
    hexDigits 8 base.toNat ++ [45] <+: mapping base ++ name ++ [10] := by
  simp only [mapping, List.append_assoc, List.cons_append]
  exact ⟨_, by rw [List.append_assoc, List.singleton_append]⟩

/-- **Every pair of bases is shown by a file**, and it does not mention the
client. -/
theorem mapsText_shows (libc linker : Word) :
    Shows (some (mapsText libc linker)) libcPath libc ∧
      Shows (some (mapsText libc linker)) linkerPath linker ∧
      moduleBase (some (mapsText libc linker)) clientPathCurrent = 0 := by
  -- each of these letters is missing on the line of another module
  have hk : strstr (mapping libc ++ libcPath ++ [10]) linkerPath = false := by
    refine strstr_eq_false (b := 107) (by decide) ?_
    simp only [List.mem_append, not_or]
    exact ⟨⟨not_mem_mapping (by decide) (by decide) libc, by decide⟩, by decide⟩
  have hn : strstr (mapping libc ++ libcPath ++ [10]) clientPathCurrent = false := by
    refine strstr_eq_false (b := 110) (by decide) ?_
    simp only [List.mem_append, not_or]
    exact ⟨⟨not_mem_mapping (by decide) (by decide) libc, by decide⟩, by decide⟩
  have ho : strstr (mapping linker ++ linkerPath ++ [10]) clientPathCurrent = false := by
    refine strstr_eq_false (b := 111) (by decide) ?_
    simp only [List.mem_append, not_or]
    exact ⟨⟨not_mem_mapping (by decide) (by decide) linker, by decide⟩, by decide⟩
  refine ⟨⟨_, [], _, _, rfl, mapsText_lines libc linker, by simp, strstr_line (by decide),
    mapping_digits libc libcPath⟩, ⟨_, [_], _, [], rfl, mapsText_lines libc linker, ?_,
    strstr_line (by decide), mapping_digits linker linkerPath⟩, ?_⟩
  · intro l hl
    rw [List.mem_singleton.mp hl, hk]
  · simp only [moduleBase, mapsText_lines, List.find?, hn, ho]

end Loader

end Dynamicloader
