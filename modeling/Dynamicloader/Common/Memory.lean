import Mathlib.Algebra.Ring.Nat
import Mathlib.Data.List.Basic
/-!
# Byte memory

A block of memory of fixed size, as C code sees a `char` array: reads and
writes by address, strings that end at a NUL, and the two-byte little-endian
lengths that frame a message. `HoldsAt` is the assertion everything is
stated with; it splits along a concatenation and survives writes elsewhere.
-/

namespace Dynamicloader

/-- A block of `k` bytes. -/
abbrev Memory (k : ℕ) := Vector UInt8 k

namespace Memory

variable {k : ℕ}

/-- The bytes `w` stand at address `a`. -/
def HoldsAt (v : Memory k) (a : ℕ) (w : List UInt8) : Prop :=
  ∀ i, i < w.length → v[a + i]? = w[i]?

theorem holdsAt_nil (v : Memory k) (a : ℕ) : HoldsAt v a [] := by
  intro i hi
  exact absurd hi (Nat.not_lt_zero i)

theorem holdsAt_append {v : Memory k} {a : ℕ} {w₁ w₂ : List UInt8} :
    HoldsAt v a (w₁ ++ w₂) ↔ HoldsAt v a w₁ ∧ HoldsAt v (a + w₁.length) w₂ := by
  constructor
  · intro h
    refine ⟨fun i hi => ?_, fun i hi => ?_⟩
    · rw [h i (by simp; omega), List.getElem?_append_left hi]
    · rw [Nat.add_assoc, h (w₁.length + i) (by simp; omega), List.getElem?_append_right (by omega),
        Nat.add_sub_cancel_left]
  · rintro ⟨h₁, h₂⟩ i hi
    rcases Nat.lt_or_ge i w₁.length with hlt | hge
    · rw [h₁ i hlt, List.getElem?_append_left hlt]
    · have h := h₂ (i - w₁.length) (by simp at hi; omega)
      rw [List.getElem?_append_right hge, ← h]
      congr 1
      omega

theorem holdsAt_singleton {v : Memory k} {a : ℕ} {b : UInt8} :
    HoldsAt v a [b] ↔ v[a]? = some b := by
  constructor
  · intro h
    exact h 0 Nat.one_pos
  · intro h i hi
    obtain rfl : i = 0 := by simpa using hi
    exact h

theorem holdsAt_cons {v : Memory k} {a : ℕ} {b : UInt8} {w : List UInt8} :
    HoldsAt v a (b :: w) ↔ v[a]? = some b ∧ HoldsAt v (a + 1) w := by
  rw [← List.singleton_append, holdsAt_append, holdsAt_singleton, List.length_singleton]

/-- A write outside the asserted range leaves it. -/
theorem HoldsAt.set {v : Memory k} {a : ℕ} {w : List UInt8} (h : HoldsAt v a w) {i : ℕ}
    (hi : i < k) (b : UInt8) (hout : i < a ∨ a + w.length ≤ i) : HoldsAt (v.set i b hi) a w := by
  intro j hj
  have hne : i ≠ a + j := by omega
  rw [Vector.getElem?_set_ne hi hne, h j hj]

/-- What stands in the block ends inside it. -/
theorem HoldsAt.le {v : Memory k} {a : ℕ} {w : List UInt8} (h : HoldsAt v a w) (hw : w ≠ []) :
    a + w.length ≤ k := by
  have hpos : 0 < w.length := List.length_pos_iff.mpr hw
  have hlast := h (w.length - 1) (by omega)
  rw [List.getElem?_eq_getElem (by omega), Vector.getElem?_eq_some_iff] at hlast
  obtain ⟨hlt, -⟩ := hlast
  omega

/-- The block from `a` on, as a list. -/
theorem HoldsAt.drop_eq {v : Memory k} {w : List UInt8} :
    ∀ {a : ℕ}, HoldsAt v a w → v.toList.drop a = w ++ v.toList.drop (a + w.length) := by
  induction w with
  | nil => simp
  | cons b w ih =>
    intro a h
    obtain ⟨hb, hw⟩ := holdsAt_cons.mp h
    obtain ⟨hlt, hb⟩ := Vector.getElem?_eq_some_iff.mp hb
    rw [List.drop_eq_getElem_cons (by simpa using hlt), ih hw]
    simp [hb, Nat.add_assoc, Nat.add_comm 1]

theorem HoldsAt.take_eq {v : Memory k} {w : List UInt8} (h : HoldsAt v 0 w) :
    v.toList.take w.length = w := by
  have := h.drop_eq
  rw [List.drop_zero] at this
  rw [this, List.take_left]

/-- **Writing `w` from address `a` on.** Bytes beyond the block are lost. -/
def store (v : Memory k) : ℕ → List UInt8 → Memory k
  | _, [] => v
  | a, b :: w => store (v.setIfInBounds a b) (a + 1) w

theorem getElem?_store (w : List UInt8) : ∀ (v : Memory k) (a i : ℕ),
    (store v a w)[i]? = if a ≤ i ∧ i < a + w.length ∧ i < k then w[i - a]? else v[i]? := by
  induction w with
  | nil =>
    intro v a i
    simp [store]
    omega
  | cons b w ih =>
    intro v a i
    rw [store, ih, Vector.getElem?_setIfInBounds]
    rcases Nat.lt_trichotomy a i with h | rfl | h
    · have : i - a = i - (a + 1) + 1 := by omega
      simp only [this, List.getElem?_cons_succ, List.length_cons]
      grind
    · rw [if_neg (by omega), Nat.sub_self]
      grind
    · grind

/-- A write ends where it should. -/
theorem holdsAt_store (v : Memory k) (a : ℕ) (w : List UInt8) (h : a + w.length ≤ k) :
    HoldsAt (store v a w) a w := by
  intro i hi
  rw [getElem?_store, if_pos (by omega), Nat.add_sub_cancel_left]

/-- A write outside the asserted range leaves it. -/
theorem HoldsAt.store {v : Memory k} {a : ℕ} {w : List UInt8} (h : HoldsAt v a w) (b : ℕ)
    (u : List UInt8) (hout : b + u.length ≤ a ∨ a + w.length ≤ b) :
    HoldsAt (Memory.store v b u) a w := by
  intro i hi
  rw [getElem?_store, if_neg (by omega), h i hi]

/-! ## Strings -/

/-- **The C string at `a`**: the bytes up to the first NUL. -/
def cstr (v : Memory k) (a : ℕ) : List UInt8 := (v.toList.drop a).takeWhile (· != 0)

/-- The string at `a` ends there, or goes on at the next address. -/
theorem cstr_step {v : Memory k} {a : ℕ} {b : UInt8} (h : v[a]? = some b) :
    cstr v a = if b = 0 then [] else b :: cstr v (a + 1) := by
  obtain ⟨ha, hb⟩ := Vector.getElem?_eq_some_iff.mp h
  rw [cstr, List.drop_eq_getElem_cons (by simpa using ha), List.takeWhile_cons]
  simp only [Vector.getElem_toList, hb, bne_iff_ne, ne_eq, ite_not]
  rfl

theorem HoldsAt.cstr_eq {v : Memory k} {a : ℕ} {w : List UInt8} (h : HoldsAt v a (w ++ [0]))
    (hw : 0 ∉ w) : cstr v a = w := by
  unfold cstr
  rw [h.drop_eq, List.append_assoc, List.takeWhile_append_of_pos (by
    intro b hb
    simp only [bne_iff_ne]
    rintro rfl
    exact hw hb)]
  simp

/-- **`strcpy` to address `a`**, none where the string and its NUL do not fit. -/
def strcpy (v : Memory k) (a : ℕ) (w : List UInt8) : Option (Memory k) :=
  if a + w.length < k then some (store v a (w ++ [0])) else none

/-- `strcat` -/
def strcat (v : Memory k) (w : List UInt8) : Option (Memory k) := strcpy v (cstr v 0).length w

theorem strcpy_of_fits {v : Memory k} {a : ℕ} {w : List UInt8} (h : a + w.length < k) :
    strcpy v a w = some (store v a (w ++ [0])) :=
  if_pos h

theorem strcat_of_not_fits {v : Memory k} {u w : List UInt8} (h : HoldsAt v 0 (u ++ [0]))
    (hu : 0 ∉ u) (hlong : k ≤ u.length + w.length) : strcat v w = none := by
  rw [strcat, h.cstr_eq hu, strcpy, if_neg (by omega)]

/-- What fits is appended. -/
theorem strcat_of_fits {v : Memory k} {u w : List UInt8} (h : HoldsAt v 0 (u ++ [0]))
    (hu : 0 ∉ u) (hfits : u.length + w.length < k) :
    ∃ v', strcat v w = some v' ∧ HoldsAt v' 0 (u ++ w ++ [0]) := by
  refine ⟨store v u.length (w ++ [0]), ?_, ?_⟩
  · rw [strcat, h.cstr_eq hu, strcpy_of_fits hfits]
  · obtain ⟨hu', -⟩ := holdsAt_append.mp h
    rw [List.append_assoc, holdsAt_append, Nat.zero_add]
    refine ⟨hu'.store _ _ (.inr (by omega)), holdsAt_store v u.length (w ++ [0]) ?_⟩
    rw [List.length_append, List.length_singleton]
    omega

/-! ## Lengths -/

/-- Two bytes, low first. -/
def le16 (n : ℕ) : List UInt8 := [UInt8.ofNat (n &&& 0xff), UInt8.ofNat ((n >>> 8) &&& 0xff)]

/-- The number two bytes spell. -/
def ofLe16 (lo hi : UInt8) : ℕ := lo.toNat ||| (hi.toNat <<< 8)

@[simp] theorem length_le16 (n : ℕ) : (le16 n).length = 2 := rfl

/-- A text behind its length. -/
def frame (text : List UInt8) : List UInt8 := le16 text.length ++ text

/-- The two length bytes of a frame, where they were just written. -/
theorem take_store_le16 (v : Memory k) (n : ℕ) (h : 2 ≤ k) :
    (store v 0 (le16 n)).toList.take 2 = le16 n :=
  (holdsAt_store v 0 (le16 n) h).take_eq

/-- The two length bytes of a frame in front of a memory. -/
theorem HoldsAt.ofLe16_eq {v : Memory k} {low high : UInt8} (h : HoldsAt v 0 [low, high])
    (hk : 1 < k) : ofLe16 v[0] v[1] = ofLe16 low high := by
  have hlow : v[0] = low := (Vector.getElem?_eq_some_iff.mp (h 0 (by simp))).2
  have hhigh : v[1] = high := (Vector.getElem?_eq_some_iff.mp (h 1 (by simp))).2
  rw [hlow, hhigh]

theorem ofLe16_le16 {n : ℕ} (h : n < 2 ^ 16) :
    ofLe16 (UInt8.ofNat (n &&& 0xff)) (UInt8.ofNat ((n >>> 8) &&& 0xff)) = n := by
  have hlo : n &&& 0xff = n % 2 ^ 8 := Nat.and_two_pow_sub_one_eq_mod n 8
  have hhi : (n >>> 8) &&& 0xff = (n >>> 8) % 2 ^ 8 := Nat.and_two_pow_sub_one_eq_mod _ 8
  rw [ofLe16, hlo, hhi, Nat.shiftRight_eq_div_pow, UInt8.toNat_ofNat',
    UInt8.toNat_ofNat', Nat.or_comm, ← Nat.shiftLeft_add_eq_or_of_lt (by omega), Nat.shiftLeft_eq]
  omega

/-- What begins a frame spells its length. -/
theorem ofLe16_eq_length {low high : UInt8} {bytes text : List UInt8}
    (h : low :: high :: bytes <+: frame text) (hlen : text.length < 2 ^ 16) :
    ofLe16 low high = text.length ∧ bytes <+: text := by
  obtain ⟨rest, hrest⟩ := h
  simp only [frame, le16, List.cons_append, List.nil_append, List.cons.injEq] at hrest
  obtain ⟨rfl, rfl, hrest⟩ := hrest
  exact ⟨ofLe16_le16 hlen, ⟨rest, hrest⟩⟩

/-- As many bytes as a frame's length says are its text. -/
theorem eq_of_prefix_frame {low high : UInt8} {bytes text : List UInt8}
    (h : low :: high :: bytes <+: frame text) (hlen : text.length < 2 ^ 16)
    (hbytes : ofLe16 low high = bytes.length) :
    bytes = text ∧ low :: high :: bytes = frame text := by
  obtain ⟨hlow, hpre⟩ := ofLe16_eq_length h hlen
  have heq : bytes = text := hpre.eq_of_length (by rw [← hbytes, hlow])
  refine ⟨heq, h.eq_of_length ?_⟩
  rw [heq, frame, List.length_append, length_le16, List.length_cons, List.length_cons]
  omega

end Memory

end Dynamicloader
