import Dynamicloader.Common.Machine
import Mathlib.Logic.Function.Basic
/-!
# Searches kept under a key

A memo answers a request from what is kept under its key, and otherwise
searches and keeps the result, if it is one that is kept. The answers are
those of the searches exactly where no request is answered with the result
of another one (`outputs_eq_map_iff`).
-/

namespace Dynamicloader

namespace Memo

variable {ι κ ρ : Type*} [DecidableEq κ] (key : ι → κ) (kept : ρ → Bool) (search : ι → ρ)

/-- The answer to a request, and what is kept behind it. -/
def lookup (m : κ → Option ρ) (i : ι) : ρ × (κ → Option ρ) :=
  match m (key i) with
  | some r => (r, m)
  | none =>
    (search i, if kept (search i) then Function.update m (key i) (some (search i)) else m)

def machine : Machine (κ → Option ρ) ι ρ := fun m i =>
  ((lookup key kept search m i).2, [(lookup key kept search m i).1])

variable {key kept search}

theorem lookup_of_some {m : κ → Option ρ} {i : ι} {r : ρ} (h : m (key i) = some r) :
    lookup key kept search m i = (r, m) := by
  rw [lookup, h]

theorem lookup_of_none {m : κ → Option ρ} {i : ι} (h : m (key i) = none) :
    lookup key kept search m i =
      (search i, if kept (search i) then Function.update m (key i) (some (search i)) else m) := by
  rw [lookup, h]

/-- A request is answered as by its search if what is kept for it is what the
search would find. -/
theorem answer_eq_iff {m : κ → Option ρ} {i : ι} :
    (lookup key kept search m i).1 = search i ↔ ∀ r, m (key i) = some r → r = search i := by
  cases h : m (key i) with
  | none => simp [lookup_of_none h]
  | some r => simp [lookup_of_some h]

/-- **What is kept behind a request** that was answered as by its search. -/
theorem kept_iff {m : κ → Option ρ} {i : ι}
    (hanswer : (lookup key kept search m i).1 = search i) (k : κ) (r : ρ) :
    (lookup key kept search m i).2 k = some r ↔
      m k = some r ∨ key i = k ∧ kept (search i) = true ∧ r = search i := by
  cases h : m (key i) with
  | some r' =>
    rw [lookup_of_some h] at hanswer ⊢
    obtain rfl : r' = search i := hanswer
    constructor
    · exact Or.inl
    · rintro (hk | ⟨rfl, -, rfl⟩)
      · exact hk
      · exact h
  | none =>
    rw [lookup_of_none h]
    by_cases hkept : kept (search i) = true
    · by_cases hk : key i = k
      · subst hk
        simp [hkept, h, eq_comm]
      · have hother : k ≠ key i := fun heq => hk heq.symm
        simp [hkept, hk, Function.update_of_ne hother]
    · simp [hkept]

/-- No request is answered with the result that another one has left. -/
def Apart (key : ι → κ) (kept : ρ → Bool) (search : ι → ρ) (i j : ι) : Prop :=
  key i = key j → kept (search i) = true → search i = search j

/-- The answers from what is kept already: it is right for the requests, and so is
what they leave. -/
theorem outputs_eq_map_iff_from (m : κ → Option ρ) (is : List ι) :
    (machine key kept search).outputs m is = is.map search ↔
      (∀ i ∈ is, ∀ r, m (key i) = some r → r = search i) ∧
        is.Pairwise (Apart key kept search) := by
  induction is generalizing m with
  | nil => simp
  | cons i is ih =>
    rw [Machine.outputs_cons, List.map_cons, List.pairwise_cons, List.forall_mem_cons]
    show (lookup key kept search m i).1 ::
      (machine key kept search).outputs (lookup key kept search m i).2 is = _ ↔ _
    rw [List.cons.injEq, ih, answer_eq_iff]
    -- the answers behind `i` are right for what was kept and for what `i` has left
    by_cases hanswer : ∀ r, m (key i) = some r → r = search i
    · have hnow : (lookup key kept search m i).1 = search i := answer_eq_iff.mpr hanswer
      have hleft := kept_iff hnow
      have hrest : (∀ j ∈ is, ∀ r, (lookup key kept search m i).2 (key j) = some r → r = search j) ↔
          (∀ j ∈ is, ∀ r, m (key j) = some r → r = search j) ∧
            ∀ j ∈ is, Apart key kept search i j := by
        constructor
        · intro h
          refine ⟨fun j hj r hr => ?_, fun j hj hkey hkept => ?_⟩
          · exact h j hj r ((hleft _ r).mpr (Or.inl hr))
          · exact h j hj (search i) ((hleft _ _).mpr (Or.inr ⟨hkey, hkept, rfl⟩))
        · rintro ⟨hbefore, hapart⟩ j hj r hr
          rcases (hleft _ r).mp hr with hr | ⟨hkey, hkept, rfl⟩
          · exact hbefore j hj r hr
          · exact hapart j hj hkey hkept
      rw [hrest]
      constructor
      · rintro ⟨h, ⟨hbefore, hapart⟩, hpairs⟩
        exact ⟨⟨h, hbefore⟩, hapart, hpairs⟩
      · rintro ⟨⟨h, hbefore⟩, hapart, hpairs⟩
        exact ⟨h, ⟨hbefore, hapart⟩, hpairs⟩
    · constructor
      · rintro ⟨h, -⟩
        exact absurd h hanswer
      · rintro ⟨⟨h, -⟩, -⟩
        exact absurd h hanswer

/-- **All answers are those of the searches if and only if** no request is answered
with the result that an earlier one has left. -/
theorem outputs_eq_map_iff (is : List ι) :
    (machine key kept search).outputs (fun _ => none) is = is.map search ↔
      is.Pairwise (Apart key kept search) := by
  rw [outputs_eq_map_iff_from]
  simp

end Memo

end Dynamicloader
