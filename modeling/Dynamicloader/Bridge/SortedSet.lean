import Mathlib.Data.List.Basic
/-!
# Bridge — sorted sets of callbacks

`Bridge.CopyOnWriteSortedSet` holds an array that is never written to: `add`
and `remove` put another one in its place, so an array that was handed out
stays as it was. A set is here the array it holds.

`Arrays.sort` goes by the `compareTo` of the elements. What it makes of one
that is no order is not said, but it is a permutation in any case.
-/

namespace Dynamicloader

namespace Bridge

/-- `Arrays.sort`. -/
structure ArraySort (α : Type) where
  sort : List α → List α
  perm : ∀ l, (sort l).Perm l

/-- `CopyOnWriteSortedSet`, by its array. -/
abbrev CopyOnWriteSortedSet (α : Type) := List α

namespace CopyOnWriteSortedSet

variable {α : Type} [DecidableEq α]

/-- `add`, and whether the element is new. -/
def add (S : ArraySort α) (elements : CopyOnWriteSortedSet α) (e : α) :
    Bool × CopyOnWriteSortedSet α :=
  if e ∈ elements then (false, elements) else (true, S.sort (elements ++ [e]))

/-- `remove`, and whether the element was there; `indexOf` finds the first. -/
def remove (elements : CopyOnWriteSortedSet α) (e : α) : Bool × CopyOnWriteSortedSet α :=
  if e ∈ elements then (true, elements.erase e) else (false, elements)

/-! ## Membership -/

theorem mem_add_iff (S : ArraySort α) {elements : CopyOnWriteSortedSet α} {e a : α} :
    a ∈ (add S elements e).2 ↔ a = e ∨ a ∈ elements := by
  unfold add
  split
  · rename_i he
    exact ⟨.inr, fun h => h.elim (fun heq => heq ▸ he) id⟩
  · rw [(S.perm _).mem_iff, List.mem_append, List.mem_singleton, or_comm]

theorem nodup_add (S : ArraySort α) {elements : CopyOnWriteSortedSet α} (h : elements.Nodup)
    (e : α) : (add S elements e).2.Nodup := by
  unfold add
  split
  · exact h
  · rename_i he
    rw [(S.perm _).nodup_iff, List.nodup_append]
    refine ⟨h, by simp, fun a ha b hb hab => ?_⟩
    rw [hab, List.mem_singleton.mp hb] at ha
    exact he ha

theorem mem_remove_iff {elements : CopyOnWriteSortedSet α} (h : elements.Nodup) {e a : α} :
    a ∈ (remove elements e).2 ↔ a ≠ e ∧ a ∈ elements := by
  unfold remove
  split
  · exact h.mem_erase_iff
  · rename_i he
    exact ⟨fun ha => ⟨fun hae => he (hae ▸ ha), ha⟩, And.right⟩

theorem nodup_remove {elements : CopyOnWriteSortedSet α} (h : elements.Nodup) (e : α) :
    (remove elements e).2.Nodup := by
  unfold remove
  split
  · exact h.erase e
  · exact h

end CopyOnWriteSortedSet

end Bridge

end Dynamicloader
