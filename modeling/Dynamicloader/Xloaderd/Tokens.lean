import Dynamicloader.Xloaderd.Model
/-!
# xloaderd — where the tokeniser stops

Each blank moves the scan by two, so the scan looks at a position exactly
when an even number of blanks stand directly before it. Separators, the
terminator and the exit of the loop are read off the bytes alone from that
(`separators`, `Halts`), and `tokenize_eq` says the loop computes them.

Two buffers that agree below a position halt at the same places below it,
so what the scan finds in a command depends on the bytes it gets to.
-/

namespace Dynamicloader

namespace Xloaderd

open Memory

/-! ## Positions the scan looks at -/

def blankAt (bs : List UInt8) (i : ℕ) : Bool := (bs[i]?).any isspace

/-- The number of blanks that stand directly before `i`. -/
def blanksBefore (bs : List UInt8) : ℕ → ℕ
  | 0 => 0
  | i + 1 => if blankAt bs i then blanksBefore bs i + 1 else 0

/-- The scan looks at `i`, unless it is left before. -/
def looksAt (bs : List UInt8) (i : ℕ) : Bool := blanksBefore bs i % 2 == 0

/-- The blank at `i` ends an argument. -/
def separatesAt (bs : List UInt8) (i : ℕ) : Bool := blankAt bs i && looksAt bs i

/-- The separators below `i`. -/
def separators (bs : List UInt8) (i : ℕ) : List ℕ := (List.range i).filter (separatesAt bs)

/-- The positions below `i` the scan looks at. -/
def looked (bs : List UInt8) (i : ℕ) : List ℕ := (List.range i).filter (looksAt bs)

/-- **The scan is left at `i` or before**: it finds a NUL at `i`, or has
passed the last separator it admits. -/
def Halts (bs : List UInt8) (i : ℕ) : Prop :=
  (bs[i]? = some 0 ∧ looksAt bs i) ∨ tokenMax ≤ (separators bs i).length

instance (bs : List UInt8) (i : ℕ) : Decidable (Halts bs i) := inferInstanceAs (Decidable (_ ∨ _))

/-- The first position where the scan is left. -/
def FirstHalt (bs : List UInt8) (i : ℕ) : Prop := Halts bs i ∧ ∀ j, j < i → ¬ Halts bs j

instance (bs : List UInt8) (i : ℕ) : Decidable (FirstHalt bs i) :=
  inferInstanceAs (Decidable (_ ∧ _))

/-! Whether the scan looks at the next positions. -/

theorem isspace_zero : isspace 0 = false := by decide

theorem looksAt_zero (bs : List UInt8) : looksAt bs 0 := by simp [looksAt, blanksBefore]

theorem looksAt_succ_of_not_blank {bs : List UInt8} {i : ℕ} (h : blankAt bs i = false) :
    looksAt bs (i + 1) := by
  simp [looksAt, blanksBefore, h]

theorem looksAt_succ_of_separates {bs : List UInt8} {i : ℕ} (h : separatesAt bs i) :
    looksAt bs (i + 1) = false := by
  simp only [separatesAt, looksAt, Bool.and_eq_true, beq_iff_eq] at h
  simp only [looksAt, blanksBefore, h.1, ↓reduceIte, beq_eq_false_iff_ne]
  omega

theorem looksAt_add_two {bs : List UInt8} {i : ℕ} (h : separatesAt bs i) :
    looksAt bs (i + 2) := by
  simp only [separatesAt, looksAt, Bool.and_eq_true, beq_iff_eq] at h
  simp only [looksAt, blanksBefore, h.1, ↓reduceIte, beq_iff_eq]
  split <;> omega

theorem looked_succ (bs : List UInt8) (i : ℕ) :
    looked bs (i + 1) = looked bs i ++ if looksAt bs i then [i] else [] := by
  simp [looked, List.range_succ, List.filter_append, List.filter_singleton]

theorem separators_succ (bs : List UInt8) (i : ℕ) :
    separators bs (i + 1) = separators bs i ++ if separatesAt bs i then [i] else [] := by
  simp [separators, List.range_succ, List.filter_append, List.filter_singleton]

/-! A separator, and the position behind it, which the scan passes over. -/

theorem separators_succ_of_separates {bs : List UInt8} {i : ℕ} (h : separatesAt bs i) :
    separators bs (i + 1) = separators bs i ++ [i] := by
  simp [separators_succ, h]

theorem separators_add_two {bs : List UInt8} {i : ℕ} (h : separatesAt bs i) :
    separators bs (i + 2) = separators bs (i + 1) := by
  simp [separators_succ _ (i + 1), separatesAt, looksAt_succ_of_separates h]

theorem looked_add_two {bs : List UInt8} {i : ℕ} (h : separatesAt bs i) :
    looked bs (i + 2) = looked bs (i + 1) := by
  simp [looked_succ _ (i + 1), looksAt_succ_of_separates h]

theorem mem_separators {bs : List UInt8} {i j : ℕ} :
    j ∈ separators bs i ↔ j < i ∧ separatesAt bs j := by
  simp [separators]

theorem mem_looked {bs : List UInt8} {i j : ℕ} : j ∈ looked bs i ↔ j < i ∧ looksAt bs j := by
  simp [looked]

/-! ## What the loop computes -/

/-- The buffer with the separators below `i` overwritten. -/
def cut (v : Buffer) (i : ℕ) : Buffer :=
  Vector.ofFn fun j => if j < i ∧ separatesAt v.toList j then 0 else v[j]

/-- The locals when the scan is left at `e`. -/
def scanAt (v : Buffer) (e : ℕ) : Scan :=
  { exit := if tokenMax ≤ (separators v.toList e).length then .tooManyArguments
      else if e < bufferMax then .terminator else .overrun
    cmd := e
    arg := (separators v.toList e).map (· + 1)
    buf := cut v e
    examined := looked v.toList (e + 1) }

@[simp] theorem scanAt_buf (v : Buffer) (e : ℕ) : (scanAt v e).buf = cut v e := rfl

/-- The scan of `v` is left at `e`: it halts there, or stands outside the
buffer. -/
structure LeavesAt (v : Buffer) (e : ℕ) : Prop where
  before : ∀ j, j < e → ¬ Halts v.toList j
  left : Halts v.toList e ∨ bufferMax ≤ e ∧ looksAt v.toList e

theorem getElem?_cut (v : Buffer) (i j : ℕ) :
    (cut v i)[j]? = if j < i ∧ separatesAt v.toList j then v[j]?.map fun _ => 0 else v[j]? := by
  rcases Nat.lt_or_ge j bufferMax with hj | hj
  · rw [Vector.getElem?_eq_getElem hj, Vector.getElem?_eq_getElem hj]
    simp only [cut, Vector.getElem_ofFn, Option.map_some]
    split <;> simp
  · simp [cut, Vector.getElem?_eq_none hj]

theorem cut_eq_of_separators_eq {v : Buffer} {i j : ℕ}
    (h : separators v.toList i = separators v.toList j) : cut v i = cut v j := by
  have hmem : ∀ k, (k < i ∧ separatesAt v.toList k) ↔ (k < j ∧ separatesAt v.toList k) := by
    intro k
    rw [← mem_separators, ← mem_separators, h]
  simp only [cut, hmem]

theorem cut_zero (v : Buffer) : cut v 0 = v := by
  refine Vector.ext fun j hj => ?_
  simp [cut]

/-- Overwriting the separator at the scan pointer. -/
theorem set_cut {v : Buffer} {i : ℕ} (hi : i < bufferMax) (h : separatesAt v.toList i) :
    (cut v i).set i 0 hi = cut v (i + 1) := by
  refine Vector.ext fun j hj => ?_
  rcases Nat.lt_trichotomy j i with hlt | rfl | hgt
  · have hne : i ≠ j := by omega
    have hiff : j < i ↔ j < i + 1 := by omega
    rw [Vector.getElem_set_ne hi hj hne]
    simp only [cut, Vector.getElem_ofFn, hiff]
  · simp [cut, h]
  · have hne : i ≠ j := by omega
    have hiff : j < i ↔ j < i + 1 := by omega
    rw [Vector.getElem_set_ne hi hj hne]
    simp only [cut, Vector.getElem_ofFn, hiff]

theorem blankAt_toList {v : Buffer} {i : ℕ} (hi : i < bufferMax) :
    blankAt v.toList i = isspace v[i] := by
  simp [blankAt, hi]

theorem getElem?_toList_eq_zero {v : Buffer} {i : ℕ} (hi : i < bufferMax) :
    v.toList[i]? = some 0 ↔ v[i] = 0 := by
  simp [hi]

theorem not_halts_of_blank {bs : List UInt8} {i : ℕ} (hb : blankAt bs i)
    (hn : (separators bs i).length < tokenMax) : ¬ Halts bs i := by
  rintro (⟨h0, -⟩ | h)
  · simp [blankAt, h0, isspace_zero] at hb
  · omega

theorem not_halts_succ {bs : List UInt8} {i : ℕ} (hb : ∀ j, j < i → ¬ Halts bs j)
    (hi : ¬ Halts bs i) : ∀ j, j < i + 1 → ¬ Halts bs j := by
  intro j hj
  rcases Nat.lt_succ_iff_lt_or_eq.mp hj with h | rfl
  · exact hb j h
  · exact hi

/-- **The loop, from any position it looks at.** The induction is on what
is left of the buffer; the cases are those of the loop body. -/
theorem tokenize_from (v : Buffer) (i : ℕ) (hi : looksAt v.toList i)
    (hn : (separators v.toList i).length < tokenMax) (hb : ∀ j, j < i → ¬ Halts v.toList j) :
    ∃ e, LeavesAt v e ∧
      tokenize (cut v i) i ((separators v.toList i).map (· + 1)) (looked v.toList i) =
        scanAt v e := by
  have hlooked : looked v.toList (i + 1) = looked v.toList i ++ [i] := by simp [looked_succ, hi]
  rw [tokenize]
  by_cases hlt : i < bufferMax
  · have hbyte : (cut v i)[i] = v[i] := by simp [cut]
    simp only [hlt, ↓reduceDIte, hbyte]
    by_cases h0 : v[i] = 0
    · -- the terminator
      refine ⟨i, ⟨hb, Or.inl (Or.inl ⟨(getElem?_toList_eq_zero hlt).mpr h0, hi⟩)⟩, ?_⟩
      simp [h0, scanAt, hlooked, Nat.not_le.mpr hn, hlt]
    have hne : ¬ v.toList[i]? = some 0 := fun h => h0 ((getElem?_toList_eq_zero hlt).mp h)
    by_cases hsp : isspace v[i]
    · -- a blank: two positions on, or out of room for arguments
      have hblank : blankAt v.toList i := by rw [blankAt_toList hlt, hsp]
      have hsep : separatesAt v.toList i := by simp [separatesAt, hblank, hi]
      have hsep₁ := separators_succ_of_separates hsep
      have hsep₂ := separators_add_two hsep
      have hlooked₂ := looked_add_two hsep
      have hb' := not_halts_succ hb (not_halts_of_blank hblank hn)
      have hcut : (cut v i).set i 0 hlt = cut v (i + 1) := set_cut hlt hsep
      have harg : (separators v.toList i).map (· + 1) ++ [i + 1] =
          (separators v.toList (i + 1)).map (· + 1) := by simp [hsep₁]
      have hlen : (separators v.toList (i + 1)).length = (separators v.toList i).length + 1 := by
        simp [hsep₁]
      simp only [h0, hsp, ↓reduceIte, hcut, harg, List.length_map]
      by_cases hmax : (separators v.toList (i + 1)).length = tokenMax
      · refine ⟨i + 1, ⟨hb', Or.inl (Or.inr (Nat.le_of_eq hmax.symm))⟩, ?_⟩
        simp [hmax, scanAt, hlooked₂, hlooked]
      · have hpassed : ¬ Halts v.toList (i + 1) := by
          rintro (⟨-, h⟩ | h)
          · simp [looksAt_succ_of_separates hsep] at h
          · omega
        obtain ⟨e, he, heq⟩ := tokenize_from v (i + 2) (looksAt_add_two hsep)
          (by rw [hsep₂]; omega) (not_halts_succ hb' hpassed)
        refine ⟨e, he, ?_⟩
        rw [if_neg hmax, ← heq, hlooked₂, hlooked, hsep₂, cut_eq_of_separators_eq hsep₂]
    · -- any other byte: one position on
      have hblank : blankAt v.toList i = false := by rw [blankAt_toList hlt]; simpa using hsp
      have hsep : separators v.toList (i + 1) = separators v.toList i := by
        simp [separators_succ, separatesAt, hblank]
      have hgoes : ¬ Halts v.toList i := by
        rintro (⟨h, -⟩ | h)
        · exact hne h
        · omega
      obtain ⟨e, he, heq⟩ :=
        tokenize_from v (i + 1) (looksAt_succ_of_not_blank hblank) (by rw [hsep]; exact hn)
          (not_halts_succ hb hgoes)
      refine ⟨e, he, ?_⟩
      simp only [h0, hsp, ↓reduceIte]
      rw [if_neg (by simp), ← heq, hlooked, hsep, cut_eq_of_separators_eq hsep]
  · -- outside the buffer
    refine ⟨i, ⟨hb, Or.inr ⟨Nat.not_lt.mp hlt, hi⟩⟩, ?_⟩
    simp [hlt, scanAt, hlooked, Nat.not_le.mpr hn]
  termination_by bufferMax - i

/-- **The loop of `execute`.** -/
theorem tokenize_eq (v : Buffer) : ∃ e, LeavesAt v e ∧ tokenize v 0 [] [] = scanAt v e := by
  obtain ⟨e, he, heq⟩ := tokenize_from v 0 (looksAt_zero _) (by simp [separators]) (by simp)
  rw [cut_zero] at heq
  exact ⟨e, he, heq⟩

/-- A scan that can halt in the buffer does, and no later. -/
theorem LeavesAt.halts_of_halts {v : Buffer} {e i : ℕ} (he : LeavesAt v e) (hi : Halts v.toList i)
    (hle : i ≤ bufferMax) : Halts v.toList e ∧ e ≤ i := by
  have hei : e ≤ i := by
    by_contra hlt
    exact he.before i (by omega) hi
  rcases he.left with h | ⟨h, -⟩
  · exact ⟨h, hei⟩
  · obtain rfl : e = i := by omega
    exact ⟨hi, hei⟩

theorem FirstHalt.unique {bs : List UInt8} {i j : ℕ} (hi : FirstHalt bs i) (hj : FirstHalt bs j) :
    i = j := by
  rcases Nat.lt_trichotomy i j with h | h | h
  · exact absurd hi.1 (hj.2 i h)
  · exact h
  · exact absurd hj.1 (hi.2 j h)

/-! ## Positions depend on the bytes before them -/

/-- The same bytes below `k`. -/
def AgreeBelow (k : ℕ) (bs cs : List UInt8) : Prop := ∀ j, j < k → bs[j]? = cs[j]?

section Local

variable {bs cs : List UInt8} {k i : ℕ}

theorem AgreeBelow.blankAt_eq (h : AgreeBelow k bs cs) (hi : i < k) :
    blankAt bs i = blankAt cs i := by
  rw [blankAt, blankAt, h i hi]

theorem AgreeBelow.blanksBefore_eq (h : AgreeBelow k bs cs) (hi : i ≤ k) :
    blanksBefore bs i = blanksBefore cs i := by
  induction i with
  | zero => rfl
  | succ i ih => rw [blanksBefore, blanksBefore, h.blankAt_eq hi, ih (by omega)]

theorem AgreeBelow.looksAt_eq (h : AgreeBelow k bs cs) (hi : i ≤ k) :
    looksAt bs i = looksAt cs i := by
  rw [looksAt, looksAt, h.blanksBefore_eq hi]

theorem AgreeBelow.separatesAt_eq (h : AgreeBelow k bs cs) (hi : i < k) :
    separatesAt bs i = separatesAt cs i := by
  rw [separatesAt, separatesAt, h.blankAt_eq hi, h.looksAt_eq (by omega)]

theorem AgreeBelow.separators_eq (h : AgreeBelow k bs cs) (hi : i ≤ k) :
    separators bs i = separators cs i := by
  refine List.filter_congr fun j hj => ?_
  exact h.separatesAt_eq (Nat.lt_of_lt_of_le (List.mem_range.mp hj) hi)

theorem AgreeBelow.halts_iff (h : AgreeBelow k bs cs) (hi : i < k) : Halts bs i ↔ Halts cs i := by
  rw [Halts, Halts, h i hi, h.looksAt_eq (by omega), h.separators_eq (by omega)]

theorem AgreeBelow.firstHalt_iff (h : AgreeBelow k bs cs) (hi : i < k) :
    FirstHalt bs i ↔ FirstHalt cs i := by
  rw [FirstHalt, FirstHalt, h.halts_iff hi]
  refine and_congr_right fun _ => forall_congr' fun j => imp_congr_right fun hj => ?_
  rw [h.halts_iff (by omega)]

end Local

/-! ## A command of one word -/

section Word

variable {w : List UInt8}

theorem looksAt_of_no_blank (hb : ∀ b ∈ w, isspace b = false) {i : ℕ} (hi : i ≤ w.length) :
    looksAt (w ++ [0]) i := by
  rcases i with _ | i
  · exact looksAt_zero _
  · refine looksAt_succ_of_not_blank ?_
    rw [blankAt, List.getElem?_append_left hi, List.getElem?_eq_getElem hi]
    exact hb _ (List.getElem_mem hi)

/-- A word without blanks and NULs halts the scan at its end. -/
theorem firstHalt_word (hb : ∀ b ∈ w, isspace b = false) (h0 : 0 ∉ w) :
    FirstHalt (w ++ [0]) w.length := by
  have hsep : ∀ i, i ≤ w.length → separators (w ++ [0]) i = [] := by
    intro i hi
    refine List.filter_eq_nil_iff.mpr fun j hj => ?_
    have hj : j < w.length := Nat.lt_of_lt_of_le (List.mem_range.mp hj) hi
    have hbyte : isspace w[j] = false := hb _ (List.getElem_mem hj)
    simp [separatesAt, blankAt, List.getElem?_append_left hj, hj, hbyte]
  refine ⟨Or.inl ⟨by simp, looksAt_of_no_blank hb (Nat.le_refl _)⟩, fun j hj => ?_⟩
  rintro (⟨hz, -⟩ | h)
  · rw [List.getElem?_append_left hj] at hz
    exact h0 (List.mem_of_getElem? hz)
  · simp [hsep j (Nat.le_of_lt hj)] at h

end Word

end Xloaderd

end Dynamicloader
