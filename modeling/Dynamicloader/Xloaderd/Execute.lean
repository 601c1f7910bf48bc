import Dynamicloader.Xloaderd.Tokens
import Mathlib.Data.Nat.Find
/-!
# xloaderd — what a command depends on, and where its reply goes

The buffer is shared by all commands, so what stands behind the terminator
of a command is what earlier ones left there. A command is parsed from its
own bytes alone exactly when the scan halts at its terminator or before
(`execute_isolated_iff`), and its reply stays in the buffer exactly when it
fits behind the position where the scan halts (`execute_fits_iff`).
-/

namespace Dynamicloader

namespace Xloaderd

open Memory

/-- The main loop has put the command `c` and its terminator in the buffer. -/
def Loaded (buf : Buffer) (c : List UInt8) : Prop := HoldsAt buf 0 (c ++ [0])

/-- The two buffers agree up to `k`, where both hold a NUL. -/
structure Alike (k : ℕ) (v v' : Buffer) : Prop where
  eq : ∀ j, j ≤ k → v[j]? = v'[j]?
  nul : v[k]? = some 0

section Alike

variable {k : ℕ} {v v' : Buffer}

theorem Alike.lt (h : Alike k v v') : k < bufferMax :=
  (Vector.getElem?_eq_some_iff.mp h.nul).1

/-- A string that starts before the NUL ends there at the latest. -/
theorem Alike.cstr_eq (h : Alike k v v') {a : ℕ} (ha : a ≤ k) :
    cstr v a = cstr v' a ∧ a + (cstr v a).length ≤ k := by
  obtain ⟨d, hd⟩ : ∃ d, k = a + d := ⟨k - a, by omega⟩
  induction d generalizing a with
  | zero =>
    obtain rfl : k = a := hd
    rw [cstr_step h.nul, cstr_step ((h.eq k ha).symm.trans h.nul)]
    simp
  | succ d ih =>
    have hlt : a < bufferMax := Nat.lt_of_le_of_lt ha h.lt
    have hv : v[a]? = some v[a] := Vector.getElem?_eq_getElem hlt
    obtain ⟨heq, hle⟩ := ih (a := a + 1) (by omega) (by omega)
    rw [cstr_step hv, cstr_step ((h.eq a ha).symm.trans hv), heq]
    rw [heq] at hle
    split
    · exact ⟨rfl, by simpa using ha⟩
    · exact ⟨rfl, by simp only [List.length_cons]; omega⟩

theorem Alike.stringAddresses_eq (h : Alike k v v') {a : ℕ} (ha : a ≤ k) :
    stringAddresses v a = stringAddresses v' a ∧ ∀ x ∈ stringAddresses v a, x ≤ k := by
  obtain ⟨heq, hle⟩ := h.cstr_eq ha
  refine ⟨by rw [stringAddresses, stringAddresses, heq], fun x hx => ?_⟩
  obtain ⟨-, hx⟩ := List.mem_range'_1.mp hx
  omega

theorem Alike.strcmp_eq (h : Alike k v v') {name : List UInt8} (hname : 0 ∉ name) :
    ∀ {a : ℕ}, a ≤ k →
      strcmp name v a = strcmp name v' a ∧ ∀ x ∈ (strcmp name v a).2, x ≤ k := by
  induction name with
  | nil =>
    intro a ha
    exact ⟨by rw [strcmp, strcmp, h.eq a ha], by simpa [strcmp] using ha⟩
  | cons b name ih =>
    intro a ha
    rw [strcmp, strcmp, ← h.eq a ha]
    by_cases hb : v[a]? = some b
    · -- `b` is not the NUL at `k`, so there is a next address
      have hne : a ≠ k := by
        rintro rfl
        obtain rfl : b = 0 := Option.some.inj (hb.symm.trans h.nul)
        simp at hname
      obtain ⟨heq, hle⟩ := ih (fun h0 => hname (by simp [h0])) (a := a + 1) (by omega)
      rw [if_pos hb, if_pos hb, heq]
      refine ⟨rfl, fun x hx => ?_⟩
      rcases List.mem_cons.mp hx with rfl | hx
      · exact ha
      · exact hle x (by rwa [heq])
    · rw [if_neg hb, if_neg hb]
      exact ⟨rfl, by simpa using ha⟩

/-- **Dispatch looks no further than the NUL.** -/
theorem Alike.dispatch_eq {s s' : Scan} (h : Alike k s.buf s'.buf) (harg : s.arg = s'.arg)
    (hle : ∀ a ∈ s.arg, a ≤ k) (cmds : List CmdInfo) :
    dispatch s cmds = dispatch s' cmds ∧ ∀ x ∈ (dispatch s cmds).examined, x ≤ k := by
  have hn : s.n = s'.n := by rw [Scan.n, Scan.n, harg]
  have hargs : s.args = s'.args := by
    rw [Scan.args, Scan.args, ← harg]
    exact List.map_congr_left fun a ha => (h.cstr_eq (hle a ha)).1
  have haddr : s.arg.flatMap (stringAddresses s.buf) =
      s'.arg.flatMap (stringAddresses s'.buf) := by
    rw [← harg]
    simp only [List.flatMap_def]
    rw [List.map_congr_left fun a ha => (h.stringAddresses_eq (hle a ha)).1]
  induction cmds with
  | nil =>
    obtain ⟨heq, hle'⟩ := h.stringAddresses_eq (Nat.zero_le k)
    exact ⟨by rw [dispatch, dispatch, heq], hle'⟩
  | cons c cs ih =>
    obtain ⟨hcmp, hcmple⟩ := h.strcmp_eq c.noNul (Nat.zero_le k)
    constructor
    · simp only [dispatch, ← hcmp, ← hn, ← hargs, ← haddr, ← ih.1]
    · intro x hx
      simp only [dispatch] at hx
      split at hx
      · split at hx
        · rcases List.mem_append.mp hx with hx | hx
          · exact hcmple x hx
          · obtain ⟨a, ha, hx⟩ := List.mem_flatMap.mp hx
            exact (h.stringAddresses_eq (hle a ha)).2 x hx
        · exact hcmple x hx
      · rcases List.mem_append.mp hx with hx | hx
        · exact hcmple x hx
        · exact ih.2 x hx

end Alike

/-! ## Isolation of successive commands -/

theorem agreeBelow_of_holdsAt {v : Buffer} {w : List UInt8} (h : HoldsAt v 0 w) :
    AgreeBelow w.length v.toList w := by
  intro j hj
  rw [Vector.getElem?_toList, ← h j hj, Nat.zero_add]

theorem Loaded.agreeBelow {v : Buffer} {c : List UInt8} (h : Loaded v c) :
    AgreeBelow (c.length + 1) v.toList (c ++ [0]) := by
  simpa using agreeBelow_of_holdsAt h

theorem Loaded.lt {v : Buffer} {c : List UInt8} (h : Loaded v c) : c.length < bufferMax := by
  have := HoldsAt.le h (by simp)
  simp only [List.length_append, List.length_singleton] at this
  omega

theorem Loaded.nul {v : Buffer} {c : List UInt8} (h : Loaded v c) : v[c.length]? = some 0 := by
  rw [← Vector.getElem?_toList, h.agreeBelow _ (by omega)]
  simp

/-- Every command of an admissible length can stand in the buffer. -/
theorem loaded_store (v : Buffer) {c : List UInt8} (hc : c.length < bufferMax) :
    Loaded (store v 0 (c ++ [0])) c :=
  holdsAt_store v 0 _ (by simp only [List.length_append, List.length_singleton]; omega)

/-- Cutting two buffers that hold the command leaves them alike up to its
terminator. -/
theorem Loaded.alike_cut {v v' : Buffer} {c : List UInt8} (h : Loaded v c) (h' : Loaded v' c)
    (e : ℕ) : Alike c.length (cut v e) (cut v' e) := by
  have hagree : AgreeBelow (c.length + 1) v.toList v'.toList := fun j hj =>
    (h.agreeBelow j hj).trans (h'.agreeBelow j hj).symm
  have hnul : separatesAt v.toList c.length = false := by
    simp [separatesAt, blankAt, h.nul, isspace_zero]
  refine ⟨fun j hj => ?_, by rw [getElem?_cut, hnul]; simp [h.nul]⟩
  have hbyte : v[j]? = v'[j]? := by simpa using hagree j (by omega)
  rw [getElem?_cut, getElem?_cut, hagree.separatesAt_eq (by omega), hbyte]

/-- The argument pointers of a scan left by the terminator stay before it. -/
theorem arg_le_of_le {v : Buffer} {e k a : ℕ} (he : e ≤ k) (ha : a ∈ (scanAt v e).arg) :
    a ≤ k := by
  obtain ⟨j, hj, rfl⟩ := List.mem_map.mp ha
  have := (mem_separators.mp hj).1
  omega

/-- The scan of a buffer whose first bytes already halt it. -/
theorem execute_scan {v : Buffer} {w : List UInt8} (h : HoldsAt v 0 w) {e : ℕ}
    (he : FirstHalt w e) (hlt : e < w.length) (cmds : List CmdInfo) :
    (execute cmds v).scan = scanAt v e := by
  obtain ⟨e', hleaves, heq⟩ := tokenize_eq v
  have hv : FirstHalt v.toList e := ((agreeBelow_of_holdsAt h).firstHalt_iff hlt).mpr he
  have hle : 0 + w.length ≤ bufferMax := h.le (List.length_pos_iff.mp (by omega))
  obtain ⟨hhalts, -⟩ := hleaves.halts_of_halts hv.1 (by omega)
  obtain rfl : e = e' := hv.unique ⟨hhalts, hleaves.before⟩
  exact heq

/-- Two buffers that hold one command whose scan halts in it. -/
theorem execute_eq_of_firstHalt {v v' : Buffer} {c : List UInt8} (h : Loaded v c)
    (h' : Loaded v' c) {e : ℕ} (he : FirstHalt (c ++ [0]) e) (hle : e ≤ c.length)
    (cmds : List CmdInfo) :
    (execute cmds v).scan.arg = (execute cmds v').scan.arg ∧
      (execute cmds v).dispatched = (execute cmds v').dispatched ∧
      ∀ a ∈ (execute cmds v).examined, a ≤ c.length := by
  have hagree : AgreeBelow (c.length + 1) v.toList v'.toList := fun j hj =>
    (h.agreeBelow j hj).trans (h'.agreeBelow j hj).symm
  have hlt : e < (c ++ [0]).length := by simp only [List.length_append, List.length_singleton]; omega
  have hscan := execute_scan h he hlt cmds
  have hscan' := execute_scan h' he hlt cmds
  have harg : (scanAt v e).arg = (scanAt v' e).arg := by
    simp only [scanAt, hagree.separators_eq (show e ≤ c.length + 1 by omega)]
  have hexit : (scanAt v e).exit = (scanAt v' e).exit := by
    simp only [scanAt, hagree.separators_eq (show e ≤ c.length + 1 by omega)]
  have halike : Alike c.length (scanAt v e).buf (scanAt v' e).buf := by
    rw [scanAt_buf, scanAt_buf]
    exact h.alike_cut h' e
  have hdispatch := halike.dispatch_eq harg (fun a ha => arg_le_of_le hle ha) cmds
  have hresolve : resolve (scanAt v e) cmds = resolve (scanAt v' e) cmds := by
    rw [resolve, resolve, ← hexit, ← hdispatch.1]
  have hd : (execute cmds v).dispatched = resolve (scanAt v e) cmds :=
    congrArg (resolve · cmds) hscan
  have hd' : (execute cmds v').dispatched = resolve (scanAt v' e) cmds :=
    congrArg (resolve · cmds) hscan'
  refine ⟨(congrArg Scan.arg hscan).trans (harg.trans (congrArg Scan.arg hscan').symm),
    hd.trans (hresolve.trans hd'.symm), fun a ha => ?_⟩
  rcases List.mem_append.mp ha with ha | ha
  · rw [hscan] at ha
    have := (mem_looked.mp ha).1
    omega
  · rw [hd, resolve] at ha
    split at ha
    · exact hdispatch.2 a ha
    · simp at ha
    · simp at ha

/-- A scan that does not halt in the command looks behind its terminator. -/
theorem exists_examined_gt {v : Buffer} {c : List UInt8} (h : Loaded v c)
    (hno : ∀ i, i ≤ c.length → ¬ Halts (c ++ [0]) i) (cmds : List CmdInfo) :
    ∃ a ∈ (execute cmds v).examined, c.length < a := by
  obtain ⟨e, hleaves, heq⟩ := tokenize_eq v
  have hmem : ∀ a ∈ looked v.toList (e + 1), a ∈ (execute cmds v).examined := by
    intro a ha
    refine List.mem_append_left _ ?_
    change a ∈ (tokenize v 0 [] []).examined
    rwa [heq]
  have hv : ∀ i, i ≤ c.length → ¬ Halts v.toList i := fun i hi =>
    (h.agreeBelow.halts_iff (by omega)).not.mpr (hno i hi)
  have hlt : c.length < e := by
    rcases hleaves.left with hh | ⟨hh, -⟩
    · by_contra hle
      exact hv e (by omega) hh
    · have := h.lt
      omega
  have hlooks : looksAt v.toList e ∨ tokenMax ≤ (separators v.toList e).length := by
    rcases hleaves.left with (⟨-, hh⟩ | hh) | ⟨-, hh⟩
    · exact Or.inl hh
    · exact Or.inr hh
    · exact Or.inl hh
  rcases hlooks with hh | hh
  · exact ⟨e, hmem e (mem_looked.mpr ⟨by omega, hh⟩), hlt⟩
  · -- the last separator stands right before `e`, and not on the terminator
    obtain ⟨p, rfl⟩ : ∃ p, e = p + 1 := ⟨e - 1, by omega⟩
    have hbefore : (separators v.toList p).length < tokenMax := by
      by_contra hge
      exact hleaves.before p (by omega) (Or.inr (by omega))
    have hsep : separatesAt v.toList p := by
      by_contra hns
      rw [separators_succ, if_neg hns, List.append_nil] at hh
      omega
    have hne : p ≠ c.length := by
      rintro rfl
      simp [separatesAt, blankAt, h.nul, isspace_zero] at hsep
    simp only [separatesAt, Bool.and_eq_true] at hsep
    exact ⟨p, hmem p (mem_looked.mpr ⟨by omega, hsep.2⟩), by omega⟩

/-- **When a command is parsed from its own bytes.** For every command the
main loop lets through: its name, its arguments, their number and the
handler call are the same whatever stands behind the terminator, and no
byte behind it is looked at, exactly when the scan halts at the terminator
or before. -/
theorem execute_isolated_iff (c : List UInt8) (hc : 1 ≤ c.length ∧ c.length < bufferMax) :
    (∀ (cmds : List CmdInfo) (v v' : Buffer), Loaded v c → Loaded v' c →
      (execute cmds v).name = (execute cmds v').name ∧
      (execute cmds v).args = (execute cmds v').args ∧
      (execute cmds v).n = (execute cmds v').n ∧
      (execute cmds v).call = (execute cmds v').call ∧
      ∀ a ∈ (execute cmds v).examined, a ≤ c.length) ↔
    ∃ i, i ≤ c.length ∧ Halts (c ++ [0]) i := by
  constructor
  · intro hall
    by_contra hno
    push Not at hno
    have hload : Loaded _ c := loaded_store (Vector.replicate _ 0) hc.2
    obtain ⟨a, ha, hgt⟩ := exists_examined_gt hload hno []
    have := (hall [] _ _ hload hload).2.2.2.2 a ha
    omega
  · rintro ⟨i, hi, hhalts⟩ cmds v v' h h'
    obtain ⟨e, he, hle⟩ : ∃ e, FirstHalt (c ++ [0]) e ∧ e ≤ i :=
      ⟨Nat.find ⟨i, hhalts⟩, ⟨Nat.find_spec ⟨i, hhalts⟩, fun j hj => Nat.find_min _ hj⟩,
        Nat.find_min' _ hhalts⟩
    have hlt : e < (c ++ [0]).length := by
      simp only [List.length_append, List.length_singleton]
      omega
    obtain ⟨harg, hdisp, hex⟩ := execute_eq_of_firstHalt h h' he (by omega) cmds
    have halike : Alike c.length (execute cmds v).scan.buf (execute cmds v').scan.buf := by
      rw [execute_scan h he hlt, execute_scan h' he hlt]
      exact h.alike_cut h' e
    refine ⟨(halike.cstr_eq (Nat.zero_le _)).1, ?_, ?_, ?_, hex⟩
    · simp only [Executed.args, Scan.args, ← harg]
      refine List.map_congr_left fun a ha => (halike.cstr_eq ?_).1
      rw [execute_scan h he hlt] at ha
      exact arg_le_of_le (by omega) ha
    · simp only [Executed.n, Scan.n, harg]
    · simp only [Executed.call, hdisp]

theorem execute_isolated_xload :
    (1 ≤ (ascii "xload a b c".toList).length ∧ (ascii "xload a b c".toList).length < bufferMax) ∧
      ∀ (cmds : List CmdInfo) (v v' : Buffer), Loaded v (ascii "xload a b c".toList) →
        Loaded v' (ascii "xload a b c".toList) → (execute cmds v).call = (execute cmds v').call :=
  ⟨by decide, fun cmds v v' h h' =>
    ((execute_isolated_iff _ (by decide)).mpr ⟨11, by decide, by decide⟩ cmds v v' h h').2.2.2.1⟩

/-- The number of arguments of a command whose scan halts at `e`. -/
theorem execute_n {v : Buffer} {w : List UInt8} (h : HoldsAt v 0 w) {e : ℕ} (he : FirstHalt w e)
    (hlt : e < w.length) (cmds : List CmdInfo) :
    (execute cmds v).n = (separators w e).length := by
  rw [Executed.n, execute_scan h he hlt, Scan.n, scanAt, List.length_map,
    (agreeBelow_of_holdsAt h).separators_eq (Nat.le_of_lt hlt)]

/-- The cut buffer, in terms of the bytes it starts with. -/
theorem getElem?_cut_of_holdsAt {v : Buffer} {w : List UInt8} (h : HoldsAt v 0 w) (e : ℕ) {j : ℕ}
    (hj : j < w.length) :
    (cut v e)[j]? = if j < e ∧ separatesAt w j then w[j]?.map fun _ => 0 else w[j]? := by
  have hbyte : v[j]? = w[j]? := by simpa using h j hj
  rw [getElem?_cut, (agreeBelow_of_holdsAt h).separatesAt_eq hj, hbyte]

/-- What a command whose scan halts at `e` leaves: its separators are
overwritten, and the reply stands at `e`. -/
theorem run_buf {v : Buffer} {w : List UInt8} (h : HoldsAt v 0 w) {e : ℕ} (he : FirstHalt w e)
    (hlt : e < w.length) (pc : Pc) (cmds : List CmdInfo) :
    (Daemon.run ⟨v, pc⟩ cmds).buf = store (cut v e) e (execute cmds v).printed := by
  have hscan := execute_scan h he hlt cmds
  have hle : 0 + w.length ≤ bufferMax := h.le (List.ne_nil_of_length_pos (by omega))
  have hexit : (scanAt v e).exit ≠ .overrun := by
    rw [scanAt, if_pos (show e < bufferMax by omega)]
    split <;> simp
  simp only [Daemon.run, hscan, if_neg hexit]
  rfl

/-- Of two blanks in a row the scan overwrites the first and steps over the
second, which stays in the buffer when the command has been served. A later
command with a trailing blank goes on there: it has three arguments in a
fresh buffer and four in this one. -/
theorem execute_not_isolated :
    let fresh : Buffer := Vector.replicate bufferMax 0
    let served := Daemon.run ⟨store fresh 0 (ascii "xload abcd  e f".toList ++ [0]), .execute⟩
      (cmds fun _ _ _ => 0)
    let v := store fresh 0 (ascii "xload a b ".toList ++ [0])
    let v' := store served.buf 0 (ascii "xload a b ".toList ++ [0])
    Loaded v (ascii "xload a b ".toList) ∧ Loaded v' (ascii "xload a b ".toList) ∧
      (execute (cmds fun _ _ _ => 0) v).n = 3 ∧ (execute (cmds fun _ _ _ => 0) v').n = 4 := by
  intro fresh served v v'
  have hearlier : Loaded _ (ascii "xload abcd  e f".toList) := loaded_store fresh (by decide)
  -- the reply is printed at offset 15, behind the bytes that matter
  have hbuf := run_buf hearlier (e := 15) (by decide) (by decide) .execute (cmds fun _ _ _ => 0)
  have hleft : HoldsAt served.buf 11 [32, 101, 0] := by
    refine hbuf ▸ HoldsAt.store ?_ _ _ (Or.inr (by decide))
    rw [holdsAt_cons, holdsAt_cons, holdsAt_singleton,
      getElem?_cut_of_holdsAt hearlier 15 (by decide),
      getElem?_cut_of_holdsAt hearlier 15 (by decide),
      getElem?_cut_of_holdsAt hearlier 15 (by decide)]
    decide
  have hv : HoldsAt v 0 ((ascii "xload a b ".toList ++ [0]) ++ [0]) := by
    refine holdsAt_append.mpr ⟨holdsAt_store _ 0 _ (by decide), ?_⟩
    exact HoldsAt.store (holdsAt_singleton.mpr (Vector.getElem?_replicate_of_lt (by decide))) 0 _
      (Or.inl (by decide))
  have hv' : HoldsAt v' 0 ((ascii "xload a b ".toList ++ [0]) ++ [32, 101, 0]) :=
    holdsAt_append.mpr ⟨holdsAt_store _ 0 _ (by decide), hleft.store 0 _ (Or.inl (by decide))⟩
  refine ⟨(holdsAt_append.mp hv).1, (holdsAt_append.mp hv').1, ?_, ?_⟩
  · rw [execute_n hv (e := 11) (by decide) (by decide)]
    decide
  · rw [execute_n hv' (e := 13) (by decide) (by decide)]
    decide

/-! ## Room for the reply -/

/-- `strcmp` finds the name with its terminator. -/
theorem strcmp_iff {name : List UInt8} {v : Buffer} :
    ∀ {a : ℕ}, (strcmp name v a).1 ↔ HoldsAt v a (name ++ [0]) := by
  induction name with
  | nil =>
    intro a
    rw [strcmp, List.nil_append, holdsAt_singleton, beq_iff_eq]
  | cons b name ih =>
    intro a
    rw [strcmp, List.cons_append, holdsAt_cons]
    by_cases hb : v[a]? = some b
    · simp only [hb, ↓reduceIte, true_and]
      exact ih
    · simp [hb]

/-- **The command in `bs` gets a handler**, in terms of its bytes: it is
`ping` alone, or `xload` with three arguments up to the halt at `i`. -/
def Dispatches (bs : List UInt8) (i : ℕ) : Prop :=
  ascii "ping".toList ++ [0] <+: bs ∨
    ascii "xload".toList <+: bs ∧ blankAt bs 5 ∧ (separators bs i).length = 3

instance (bs : List UInt8) (i : ℕ) : Decidable (Dispatches bs i) :=
  inferInstanceAs (Decidable (_ ∨ _))

theorem holdsAt_iff_isPrefix {v : Buffer} {w : List UInt8} : HoldsAt v 0 w ↔ w <+: v.toList := by
  constructor
  · intro h
    have := h.drop_eq
    exact ⟨_, by simpa using this.symm⟩
  · rintro ⟨t, ht⟩ i hi
    rw [Nat.zero_add, ← Vector.getElem?_toList, ← ht, List.getElem?_append_left hi]

/-- Cutting only writes NULs, so what else stands there stood there before. -/
theorem holdsAt_of_cut {v : Buffer} {e a : ℕ} {w : List UInt8} (h : HoldsAt (cut v e) a w)
    (hw : 0 ∉ w) : HoldsAt v a w := by
  intro i hi
  have hbyte := h i hi
  rw [getElem?_cut] at hbyte
  split at hbyte
  · obtain ⟨_, _, h0⟩ := Option.map_eq_some_iff.mp (hbyte.trans (List.getElem?_eq_getElem hi))
    exact absurd (h0 ▸ List.getElem_mem hi) hw
  · exact hbyte

/-- A command `ping` halts the scan behind its four letters. -/
theorem firstHalt_of_ping {v : Buffer} (h : HoldsAt v 0 (ascii "ping".toList ++ [0])) :
    FirstHalt v.toList 4 :=
  ((agreeBelow_of_holdsAt h).firstHalt_iff (by decide)).mpr (by decide)

/-- `arg[0]` is `ping` and there are no arguments exactly when the buffer
starts with `ping` and its terminator. -/
theorem ping_iff {v : Buffer} {e : ℕ} (he : FirstHalt v.toList e) :
    HoldsAt (cut v e) 0 (ascii "ping".toList ++ [0]) ∧ (separators v.toList e).length = 0 ↔
      HoldsAt v 0 (ascii "ping".toList ++ [0]) := by
  have hcut : (separators v.toList e).length = 0 → cut v e = v := by
    intro h0
    rw [cut_eq_of_separators_eq (j := 0) (by simpa [separators] using h0), cut_zero]
  constructor
  · rintro ⟨h, h0⟩
    rwa [hcut h0] at h
  · intro h
    obtain rfl : 4 = e := (firstHalt_of_ping h).unique he
    have h0 : (separators v.toList 4).length = 0 := by
      rw [(agreeBelow_of_holdsAt h).separators_eq (by decide)]
      decide
    exact ⟨by rwa [hcut h0], h0⟩

/-- `arg[0]` is `xload` exactly when the letters stand there and a blank
ends them, provided there are arguments at all. -/
theorem xload_iff {v : Buffer} {e : ℕ} (he : FirstHalt v.toList e)
    (hn : 0 < (separators v.toList e).length) :
    HoldsAt (cut v e) 0 (ascii "xload".toList ++ [0]) ↔
      HoldsAt v 0 (ascii "xload".toList) ∧ blankAt v.toList 5 := by
  have hnone (h : HoldsAt v 0 (ascii "xload".toList)) : separators v.toList 5 = [] := by
    rw [(agreeBelow_of_holdsAt h).separators_eq (by decide)]
    decide
  have hlooks (h : HoldsAt v 0 (ascii "xload".toList)) : looksAt v.toList 5 := by
    rw [(agreeBelow_of_holdsAt h).looksAt_eq (by decide)]
    decide
  -- a halt at the fifth position or before leaves no separators
  have hgt (h : HoldsAt v 0 (ascii "xload".toList)) : 5 < e := by
    by_contra hle
    obtain ⟨j, hj⟩ := List.exists_mem_of_length_pos hn
    obtain ⟨hje, hsep⟩ := mem_separators.mp hj
    have : j ∈ separators v.toList 5 := mem_separators.mpr ⟨by omega, hsep⟩
    simp [hnone h] at this
  rw [holdsAt_append, holdsAt_singleton]
  constructor
  · rintro ⟨h, hnul⟩
    have hv : HoldsAt v 0 (ascii "xload".toList) := holdsAt_of_cut h (by decide)
    refine ⟨hv, ?_⟩
    change (cut v e)[5]? = some 0 at hnul
    rw [getElem?_cut] at hnul
    split at hnul
    · rename_i hsep
      simp only [separatesAt, Bool.and_eq_true] at hsep
      exact hsep.2.1
    · -- the terminator: the scan would have halted here
      have hhalt : Halts v.toList 5 := Or.inl ⟨by simpa using hnul, hlooks hv⟩
      exact absurd hhalt (he.2 5 (hgt hv))
  · rintro ⟨h, hblank⟩
    have hsep5 : separatesAt v.toList 5 := by simp [separatesAt, hblank, hlooks h]
    refine ⟨fun i hi => ?_, ?_⟩
    · have hi5 : i < 5 := hi
      have hnot : separatesAt v.toList i = false := by
        by_contra hsep
        have : i ∈ separators v.toList 5 := mem_separators.mpr ⟨hi5, by simpa using hsep⟩
        simp [hnone h] at this
      rw [getElem?_cut, Nat.zero_add, hnot, if_neg (by simp), ← h i hi, Nat.zero_add]
    · change (cut v e)[5]? = some 0
      rw [getElem?_cut, if_pos ⟨hgt h, hsep5⟩]
      rfl

/-- The answer for a finished scan, when both handlers answer `a`. -/
theorem dispatch_answer (s : Scan) (a : Answer) :
    (dispatch s (table (fun _ => a) fun _ => a)).answer =
      if (strcmp (ascii "ping".toList) s.buf 0).1 ∧ s.n = 0 ∨
        (strcmp (ascii "xload".toList) s.buf 0).1 ∧ s.n = 3 then a else { ret := -1 } := by
  have hexcl : (strcmp (ascii "ping".toList) s.buf 0).1 →
      (strcmp (ascii "xload".toList) s.buf 0).1 = false := by
    intro hp
    by_contra hx
    have hp := strcmp_iff.mp hp 0 (by decide)
    have hx := strcmp_iff.mp (Bool.not_eq_false _ ▸ hx) 0 (by decide)
    exact absurd (hp.symm.trans hx) (by decide)
  simp only [dispatch, table]
  rcases hp : (strcmp (ascii "ping".toList) s.buf 0).1 with _ | _
  · rcases hx : (strcmp (ascii "xload".toList) s.buf 0).1 with _ | _
    · simp
    · by_cases h3 : s.n = 3 <;> simp [h3]
  · rw [hexcl hp]
    by_cases h0 : s.n = 0 <;> simp [h0]

/-- **Which answer is formatted**, in terms of the bytes of the buffer. -/
theorem resolve_answer {v : Buffer} {e : ℕ} (he : FirstHalt v.toList e) (a : Answer) :
    (resolve (scanAt v e) (table (fun _ => a) fun _ => a)).answer =
      if Dispatches v.toList e then a else { ret := -1 } := by
  have hping (h : ascii "ping".toList ++ [0] <+: v.toList) :
      (separators v.toList e).length = 0 := ((ping_iff he).mpr (holdsAt_iff_isPrefix.mpr h)).2
  by_cases hmax : tokenMax ≤ (separators v.toList e).length
  · have hexit : (scanAt v e).exit = .tooManyArguments := by simp [scanAt, hmax]
    rw [resolve, hexit, if_neg]
    have htoken : tokenMax = 8 := rfl
    rintro (h | ⟨-, -, h⟩)
    · have := hping h
      omega
    · omega
  · have hlt : e < bufferMax := by
      rcases he.1 with ⟨h0, -⟩ | h
      · exact (Vector.getElem?_eq_some_iff.mp (by simpa using h0)).1
      · exact absurd h hmax
    have hexit : (scanAt v e).exit = .terminator := by simp [scanAt, hmax, hlt]
    have hn : (scanAt v e).n = (separators v.toList e).length := List.length_map _
    rw [resolve, hexit]
    simp only
    rw [dispatch_answer]
    refine if_congr ?_ rfl rfl
    rw [strcmp_iff, strcmp_iff, hn, scanAt_buf, ping_iff he, holdsAt_iff_isPrefix]
    refine or_congr_right ?_
    rw [← holdsAt_iff_isPrefix, ← and_assoc]
    refine and_congr_left fun h3 => ?_
    exact xload_iff he (by omega)

theorem length_format_le (a : Answer) : (format a).length ≤ 267 := by
  have hd : (Decimal.decimal a.ret.toInt).length ≤ 11 :=
    Decimal.length_decimal_le a.ret.le_toInt a.ret.toInt_lt
  have hr : a.reply.text.length < 256 := a.reply.fits
  simp only [format, ascii, List.length_append, List.length_map]
  split <;> simp <;> omega

/-- `snprintf` stores the whole reply: its limit is never reached. -/
theorem length_printed (x : Executed) : x.printed.length = x.reply.length + 1 := by
  have h : x.reply.length ≤ 267 := length_format_le _
  have hmax : bufferMax = 1024 := rfl
  simp only [Executed.printed, List.length_append, List.length_take, List.length_singleton]
  omega

/-- A scan that halts at all halts in the buffer or right behind it. -/
theorem FirstHalt.le_bufferMax {v : Buffer} {e : ℕ} (he : FirstHalt v.toList e) :
    e ≤ bufferMax := by
  by_contra hgt
  obtain ⟨p, rfl⟩ : ∃ p, e = p + 1 := ⟨e - 1, by omega⟩
  have hnone : ∀ j, bufferMax ≤ j → v.toList[j]? = none := fun j hj =>
    List.getElem?_eq_none (by simpa using hj)
  rcases he.1 with ⟨h0, -⟩ | h
  · rw [hnone _ (by omega)] at h0
    exact absurd h0 (by simp)
  · have hsep : separatesAt v.toList p = false := by
      simp [separatesAt, blankAt, hnone p (by omega)]
    rw [separators_succ, hsep, if_neg (by simp), List.append_nil] at h
    exact he.2 p (by omega) (Or.inr h)

/-- **Where the reply of a scan that halts at `e` is written.** -/
theorem fits_iff_of_leavesAt {v : Buffer} {e : ℕ} (hleaves : LeavesAt v e)
    (heq : tokenize v 0 [] [] = scanAt v e) (hhalts : Halts v.toList e) (a : Answer) :
    (execute (table (fun _ => a) fun _ => a) v).Fits ↔
      e + (if Dispatches v.toList e then (format a).length else 2) + 1 ≤ bufferMax := by
  have he : FirstHalt v.toList e := ⟨hhalts, hleaves.before⟩
  have hd : (execute (table (fun _ => a) fun _ => a) v).dispatched.answer =
      if Dispatches v.toList e then a else { ret := -1 } :=
    (congrArg (fun s => (resolve s (table (fun _ => a) fun _ => a)).answer) heq).trans
      (resolve_answer he a)
  have hreply : (execute (table (fun _ => a) fun _ => a) v).reply.length =
      if Dispatches v.toList e then (format a).length else 2 := by
    rw [Executed.reply, hd]
    split
    · rfl
    · decide
  have hexit : (execute (table (fun _ => a) fun _ => a) v).scan.exit ≠ .overrun := by
    change (tokenize v 0 [] []).exit ≠ .overrun
    rw [heq]
    rcases hhalts with ⟨h0, -⟩ | h
    · have hlt : e < bufferMax := (Vector.getElem?_eq_some_iff.mp (by simpa using h0)).1
      simp only [scanAt, hlt, ↓reduceIte]
      split <;> simp
    · simp [scanAt, h]
  have hcmd : (execute (table (fun _ => a) fun _ => a) v).scan.cmd = e := congrArg Scan.cmd heq
  rw [Executed.Fits, length_printed, hreply, hcmd, ← Nat.add_assoc]
  exact and_iff_right hexit

/-- **When the reply stays in the buffer.** For every buffer contents and
every answer of the handlers: the scan halts, and the text printed for the
answer, or for `-1` where no handler is called, ends with its NUL inside
the buffer. -/
theorem execute_fits_iff (v : Buffer) (a : Answer) :
    (execute (table (fun _ => a) fun _ => a) v).Fits ↔
      ∃ i, FirstHalt v.toList i ∧
        i + (if Dispatches v.toList i then (format a).length else 2) + 1 ≤ bufferMax := by
  obtain ⟨e, hleaves, heq⟩ := tokenize_eq v
  constructor
  · intro hfits
    have hhalts : Halts v.toList e := by
      -- a scan that has not halted has run out of the buffer
      by_contra hno
      obtain ⟨hge, -⟩ := hleaves.left.resolve_left hno
      have hn : ¬ tokenMax ≤ (separators v.toList e).length := fun h => hno (Or.inr h)
      refine hfits.1 ((congrArg Scan.exit heq).trans ?_)
      simp only [scanAt, hn, Nat.not_lt.mpr hge, ↓reduceIte]
    exact ⟨e, ⟨hhalts, hleaves.before⟩, (fits_iff_of_leavesAt hleaves heq hhalts a).mp hfits⟩
  · rintro ⟨i, hi, hroom⟩
    obtain ⟨hhalts, -⟩ := hleaves.halts_of_halts hi.1 hi.le_bufferMax
    obtain rfl : i = e := hi.unique ⟨hhalts, hleaves.before⟩
    exact (fits_iff_of_leavesAt hleaves heq hhalts a).mpr hroom

/-- The longest command the main loop lets through, in one word: its reply
`-1` starts on the last byte of the buffer. -/
theorem execute_not_fits :
    ∃ v : Buffer, Loaded v (List.replicate 1023 97) ∧
      ¬ (execute (cmds fun _ _ _ => 0) v).Fits := by
  have hload : Loaded (store (Vector.replicate bufferMax 0) 0 (List.replicate 1023 97 ++ [0]))
      (List.replicate 1023 97) := loaded_store _ (by rw [List.length_replicate]; decide)
  have hhalt : FirstHalt (List.replicate 1023 (97 : UInt8) ++ [0]) 1023 := by
    have := firstHalt_word (w := List.replicate 1023 97)
      (fun b hb => by rw [List.eq_of_mem_replicate hb]; decide)
      (fun h0 => absurd (List.eq_of_mem_replicate h0) (by decide))
    rwa [List.length_replicate] at this
  refine ⟨_, hload, fun hfits => ?_⟩
  obtain ⟨e, hleaves, heq⟩ := tokenize_eq
    (store (Vector.replicate bufferMax 0) 0 (List.replicate 1023 97 ++ [0]))
  have hv := (hload.agreeBelow.firstHalt_iff (by rw [List.length_replicate]; decide)).mpr hhalt
  obtain ⟨hhalts, -⟩ := hleaves.halts_of_halts hv.1 (by decide)
  obtain rfl : 1023 = e := hv.unique ⟨hhalts, hleaves.before⟩
  have := (fits_iff_of_leavesAt hleaves heq hhalts { ret := 0 }).mp hfits
  have hpos : 0 < (format { ret := 0 }).length := by decide
  have hmax : bufferMax = 1024 := rfl
  split at this <;> omega

end Xloaderd

end Dynamicloader
