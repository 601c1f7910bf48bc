import Mathlib.Algebra.Order.Group.Unbundled.Int
import Mathlib.Data.Set.Defs
/-!
# Bridge — the order of callbacks

`BridgeCallback.compareTo` orders by descending priority and, where that is
equal, by the identity hash code. It subtracts the priorities, which wraps
where they are half the range of an `int` apart or more; and it knows two
objects with one hash code by no other means, so that each comes behind the
other. Among callbacks for which neither happens it is a total order.
-/

namespace Dynamicloader

namespace Bridge

/-- What `compareTo` looks at. Callbacks are objects: two of them are equal if
they are one. -/
structure BridgeCallback (α : Type) where
  priority : α → Int32
  identityHashCode : α → Int32

namespace BridgeCallback

/-- `PRIORITY_LOWEST` -/
def priorityLowest : Int32 := -10000

/-- `PRIORITY_HIGHEST` -/
def priorityHighest : Int32 := 10000

variable {α : Type} [DecidableEq α] (K : BridgeCallback α)

/-- **`compareTo`.** -/
def compareTo (this other : α) : Int32 :=
  if this = other then 0
  else if K.priority other ≠ K.priority this then K.priority other - K.priority this
  else if K.identityHashCode this < K.identityHashCode other then -1
  else 1

/-- **`compareTo` is a total order** of the callbacks in `A`, the one of higher
priority first. -/
structure TotalOn (A : Set α) : Prop where
  antisymm : ∀ a ∈ A, ∀ b ∈ A, (K.compareTo a b).toInt.sign = -(K.compareTo b a).toInt.sign
  trans : ∀ a ∈ A, ∀ b ∈ A, ∀ c ∈ A, K.compareTo a b ≤ 0 → K.compareTo b c ≤ 0 →
    K.compareTo a c ≤ 0
  eq_of_zero : ∀ a ∈ A, ∀ b ∈ A, K.compareTo a b = 0 → a = b
  descending : ∀ a ∈ A, ∀ b ∈ A, K.priority b < K.priority a → K.compareTo a b < 0

/-- Two callbacks that `compareTo` can tell apart. -/
structure Apart (a b : α) : Prop where
  priority : |(K.priority a).toInt - (K.priority b).toInt| < 2 ^ 31
  hash : K.priority a = K.priority b → K.identityHashCode a ≠ K.identityHashCode b

omit [DecidableEq α] in
theorem Apart.symm {K : BridgeCallback α} {a b : α} (h : K.Apart a b) : K.Apart b a := by
  refine ⟨?_, fun heq hhash => h.hash heq.symm hhash.symm⟩
  rw [abs_sub_comm]
  exact h.priority

/-! ## Callbacks that are apart -/

section Apart

variable {K} {a b c : α}

omit [DecidableEq α] in
/-- The priorities are subtracted without wrapping. -/
theorem Apart.toInt_sub (h : K.Apart a b) :
    (K.priority b - K.priority a).toInt = (K.priority b).toInt - (K.priority a).toInt := by
  have hlt := abs_lt.mp h.priority
  rw [Int32.toInt_sub]
  exact Int.bmod_eq_of_le (by omega) (by omega)

theorem compareTo_self (a : α) : K.compareTo a a = 0 := if_pos rfl

/-- **Where `a` comes before `b`**: it has the higher priority, or the lower
hash code. -/
theorem compareTo_lt_zero_iff (hne : a ≠ b) (h : K.Apart a b) :
    K.compareTo a b < 0 ↔ K.priority b < K.priority a ∨
      K.priority a = K.priority b ∧ K.identityHashCode a < K.identityHashCode b := by
  rw [compareTo, if_neg hne]
  by_cases hp : K.priority b = K.priority a
  · rw [if_neg (not_not.mpr hp)]
    by_cases hhash : K.identityHashCode a < K.identityHashCode b
    · rw [if_pos hhash]
      exact iff_of_true (by decide) (.inr ⟨hp.symm, hhash⟩)
    · rw [if_neg hhash]
      refine iff_of_false (by decide) ?_
      rintro (hlt | ⟨-, hlt⟩)
      · rw [hp] at hlt
        exact Int32.lt_irrefl hlt
      · exact hhash hlt
  · rw [if_pos hp, Int32.lt_iff_toInt_lt, h.toInt_sub, Int32.lt_iff_toInt_lt]
    have hzero : (0 : Int32).toInt = 0 := rfl
    constructor
    · intro hlt
      exact .inl (by omega)
    · rintro (hlt | ⟨heq, -⟩)
      · omega
      · exact absurd heq.symm hp

theorem compareTo_ne_zero (hne : a ≠ b) : K.compareTo a b ≠ 0 := by
  rw [compareTo, if_neg hne]
  split
  case isTrue hp =>
    intro hzero
    rw [Int32.sub_eq_iff_eq_add, Int32.zero_add] at hzero
    exact hp hzero
  case isFalse =>
    split
    · decide
    · decide

theorem compareTo_le_zero_iff (hne : a ≠ b) : K.compareTo a b ≤ 0 ↔ K.compareTo a b < 0 := by
  have hnz := compareTo_ne_zero (K := K) hne
  rw [Int32.lt_iff_le_and_ne]
  exact ⟨fun hle => ⟨hle, hnz⟩, And.left⟩

/-- One of two callbacks comes first. -/
theorem compareTo_lt_zero_or (hne : a ≠ b) (h : K.Apart a b) :
    K.compareTo a b < 0 ↔ ¬ K.compareTo b a < 0 := by
  have hhash := h.hash
  rw [compareTo_lt_zero_iff hne h, compareTo_lt_zero_iff hne.symm h.symm]
  simp only [Int32.lt_iff_toInt_lt, ← Int32.toInt_inj, ne_eq] at hhash ⊢
  omega

theorem sign_eq_neg_iff {x y : Int32} (hx : x ≠ 0) (hy : y ≠ 0) :
    x.toInt.sign = -y.toInt.sign ↔ (x < 0 ↔ ¬ y < 0) := by
  have hzero : (0 : Int32).toInt = 0 := rfl
  rw [ne_eq, ← Int32.toInt_inj, hzero] at hx hy
  rw [Int32.lt_iff_toInt_lt, Int32.lt_iff_toInt_lt, hzero]
  rcases Int.lt_or_gt_of_ne hx with h | h <;> rcases Int.lt_or_gt_of_ne hy with h' | h'
  · rw [Int.sign_eq_neg_one_of_neg h, Int.sign_eq_neg_one_of_neg h']
    omega
  · rw [Int.sign_eq_neg_one_of_neg h, Int.sign_eq_one_of_pos h']
    omega
  · rw [Int.sign_eq_one_of_pos h, Int.sign_eq_neg_one_of_neg h']
    omega
  · rw [Int.sign_eq_one_of_pos h, Int.sign_eq_one_of_pos h']
    omega

/-- Callbacks that are apart are ordered. -/
theorem compareTo_trans (hab : a ≠ b) (hbc : b ≠ c) (hac : a ≠ c) (h₁ : K.Apart a b)
    (h₂ : K.Apart b c) (h₃ : K.Apart a c) (hlt₁ : K.compareTo a b < 0)
    (hlt₂ : K.compareTo b c < 0) : K.compareTo a c < 0 := by
  rw [compareTo_lt_zero_iff hab h₁] at hlt₁
  rw [compareTo_lt_zero_iff hbc h₂] at hlt₂
  rw [compareTo_lt_zero_iff hac h₃]
  simp only [Int32.lt_iff_toInt_lt, ← Int32.toInt_inj] at hlt₁ hlt₂ ⊢
  omega

end Apart

/-! ## Callbacks that are not -/

section Total

variable {K} {a b : α} {A : Set α}

/-- The difference wraps: the callback of lower priority comes first. -/
theorem compareTo_of_wraps (h : 2 ^ 31 ≤ (K.priority a).toInt - (K.priority b).toInt) :
    K.compareTo b a < 0 := by
  have hzero : (0 : Int32).toInt = 0 := rfl
  have hlt := (K.priority a).toInt_lt
  have hle := (K.priority b).le_toInt
  have hne : K.priority a ≠ K.priority b := by
    intro heq
    rw [heq] at h
    omega
  have hab : b ≠ a := fun heq => hne (by rw [heq])
  rw [compareTo, if_neg hab, if_pos hne, Int32.lt_iff_toInt_lt, Int32.toInt_sub, hzero]
  have hwrap : ((K.priority a).toInt - (K.priority b).toInt).bmod (2 ^ 32) =
      (K.priority a).toInt - (K.priority b).toInt - 2 ^ 32 := by
    rw [← Int.sub_bmod_right]
    exact Int.bmod_eq_of_le (by omega) (by omega)
  omega

theorem TotalOn.not_wraps (h : K.TotalOn A) (ha : a ∈ A) (hb : b ∈ A) :
    (K.priority a).toInt - (K.priority b).toInt < 2 ^ 31 := by
  by_contra hge
  have hge := Int.not_lt.mp hge
  have hba := compareTo_of_wraps hge
  have hab := h.descending a ha b hb (by
    rw [Int32.lt_iff_toInt_lt]
    omega)
  have hsign := h.antisymm a ha b hb
  rw [sign_eq_neg_iff (Int32.ne_of_lt hab) (Int32.ne_of_lt hba)] at hsign
  exact hsign.mp hab hba

/-- Two objects with one priority and one hash code come behind each other. -/
theorem TotalOn.hash_ne (h : K.TotalOn A) (ha : a ∈ A) (hb : b ∈ A) (hne : a ≠ b)
    (hp : K.priority a = K.priority b) : K.identityHashCode a ≠ K.identityHashCode b := by
  intro hhash
  have hone : ∀ {x y : α}, x ≠ y → K.priority x = K.priority y →
      K.identityHashCode x = K.identityHashCode y → K.compareTo x y = 1 := by
    intro x y hxy hp hhash
    rw [compareTo, if_neg hxy, if_neg (not_not.mpr hp.symm), hhash, if_neg Int32.lt_irrefl]
  have hsign := h.antisymm a ha b hb
  rw [hone hne hp hhash, hone hne.symm hp.symm hhash.symm] at hsign
  exact absurd hsign (by decide)

/-- Callbacks that are pairwise apart are totally ordered. -/
theorem totalOn_of_apart (h : ∀ a ∈ A, ∀ b ∈ A, a ≠ b → K.Apart a b) : K.TotalOn A where
  antisymm a ha b hb := by
    by_cases hab : a = b
    · subst hab
      rw [compareTo_self]
      rfl
    · rw [sign_eq_neg_iff (compareTo_ne_zero hab) (compareTo_ne_zero (Ne.symm hab))]
      exact compareTo_lt_zero_or hab (h a ha b hb hab)
  trans a ha b hb c hc hle₁ hle₂ := by
    by_cases hab : a = b
    · rwa [hab]
    by_cases hbc : b = c
    · rwa [← hbc]
    by_cases hac : a = c
    · rw [hac, compareTo_self]
      exact Int32.le_refl 0
    rw [compareTo_le_zero_iff hab] at hle₁
    rw [compareTo_le_zero_iff hbc] at hle₂
    rw [compareTo_le_zero_iff hac]
    exact compareTo_trans hab hbc hac (h a ha b hb hab) (h b hb c hc hbc) (h a ha c hc hac)
      hle₁ hle₂
  eq_of_zero a _ b _ hzero := by
    by_contra hab
    exact compareTo_ne_zero hab hzero
  descending a ha b hb hlt := by
    have hab : a ≠ b := by
      rintro rfl
      exact Int32.lt_irrefl hlt
    rw [compareTo_lt_zero_iff hab (h a ha b hb hab)]
    exact .inl hlt

/-- Along a total order the priorities go down. -/
theorem TotalOn.priority_le (h : K.TotalOn A) (ha : a ∈ A) (hb : b ∈ A)
    (hle : K.compareTo a b ≤ 0) : K.priority b ≤ K.priority a := by
  rw [← Int32.not_lt]
  intro hlt
  have hba := h.descending b hb a ha hlt
  have hab : a ≠ b := by
    rintro rfl
    exact Int32.lt_irrefl hlt
  have hsign := h.antisymm a ha b hb
  rw [sign_eq_neg_iff (compareTo_ne_zero hab) (Int32.ne_of_lt hba)] at hsign
  exact hsign.mp ((compareTo_le_zero_iff hab).mp hle) hba

/-- A total order compares any two. -/
theorem TotalOn.total (h : K.TotalOn A) (ha : a ∈ A) (hb : b ∈ A) :
    K.compareTo a b ≤ 0 ∨ K.compareTo b a ≤ 0 := by
  by_cases hab : a = b
  · subst hab
    rw [compareTo_self]
    exact .inl (Int32.le_refl 0)
  · have hsign := h.antisymm a ha b hb
    rw [sign_eq_neg_iff (compareTo_ne_zero hab) (compareTo_ne_zero (Ne.symm hab))] at hsign
    rw [compareTo_le_zero_iff hab, compareTo_le_zero_iff (Ne.symm hab), hsign]
    exact (Decidable.em (K.compareTo b a < 0)).symm

theorem TotalOn.mono {B : Set α} (h : K.TotalOn B) (hAB : A ⊆ B) :
    K.TotalOn A where
  antisymm a ha b hb := h.antisymm a (hAB ha) b (hAB hb)
  trans a ha b hb c hc := h.trans a (hAB ha) b (hAB hb) c (hAB hc)
  eq_of_zero a ha b hb := h.eq_of_zero a (hAB ha) b (hAB hb)
  descending a ha b hb := h.descending a (hAB ha) b (hAB hb)

variable (K A) in
/-- Callbacks with the priorities the framework uses and a hash code each. -/
structure Ordinary : Prop where
  hash_ne : ∀ a ∈ A, ∀ b ∈ A, a ≠ b → K.identityHashCode a ≠ K.identityHashCode b
  range : ∀ a ∈ A, priorityLowest ≤ K.priority a ∧ K.priority a ≤ 2 * priorityHighest

theorem Ordinary.totalOn (h : K.Ordinary A) : K.TotalOn A := by
  refine totalOn_of_apart fun a ha b hb hab => ⟨?_, fun _ => h.hash_ne a ha b hb hab⟩
  have hlow : priorityLowest.toInt = -10000 := rfl
  have hhigh : (2 * priorityHighest).toInt = 20000 := rfl
  obtain ⟨ha₁, ha₂⟩ := h.range a ha
  obtain ⟨hb₁, hb₂⟩ := h.range b hb
  rw [Int32.le_iff_toInt_le] at ha₁ ha₂ hb₁ hb₂
  rw [abs_lt]
  constructor
  · omega
  · omega

end Total

/-- **Where `compareTo` is a total order**: among callbacks of which any two
are apart. -/
theorem totalOn_iff (A : Set α) :
    K.TotalOn A ↔ ∀ a ∈ A, ∀ b ∈ A, a ≠ b → K.Apart a b := by
  constructor
  · intro h a ha b hb hne
    refine ⟨abs_lt.mpr ⟨?_, h.not_wraps ha hb⟩, h.hash_ne ha hb hne⟩
    have hlt := h.not_wraps hb ha
    omega
  · exact totalOn_of_apart

/-- Two priorities that are as far apart as can be, and two callbacks with one
hash code: each pair is told the same thing both ways, or the wrong one. -/
theorem compareTo_not_total :
    let far : BridgeCallback Bool :=
      { priority := fun a => if a then 2000000000 else -2000000000
        identityHashCode := fun a => if a then 1 else 2 }
    let same : BridgeCallback Bool := { priority := fun _ => 50, identityHashCode := fun _ => 1 }
    far.priority false < far.priority true ∧ 0 < far.compareTo true false ∧
      ¬ far.TotalOn Set.univ ∧
      same.compareTo true false = 1 ∧ same.compareTo false true = 1 ∧
      ¬ same.TotalOn Set.univ := by
  intro far same
  have hfar : 0 < far.compareTo true false := by decide
  have hsame : same.compareTo true false = 1 ∧ same.compareTo false true = 1 := by decide
  refine ⟨by decide, hfar, fun h => ?_, hsame.1, hsame.2, fun h => ?_⟩
  · have hlt := h.descending true trivial false trivial (by decide)
    exact Int32.lt_irrefl (Int32.lt_trans hlt hfar)
  · have hsign := h.antisymm true trivial false trivial
    rw [hsame.1, hsame.2] at hsign
    exact absurd hsign (by decide)

end BridgeCallback

end Bridge

end Dynamicloader
