import Mathlib.Logic.Function.Basic
import Mathlib.Data.List.Basic
/-!
# Key-value stores

A store maps keys to values; `commit` applies a list of edits in order, where
an edit without a value removes its key. What an edit does not name, it
leaves (`commit_of_notMem`).
-/

namespace Dynamicloader

/-- **A store.** -/
abbrev Store (κ υ : Type*) := κ → Option υ

namespace Store

variable {κ υ : Type*} [DecidableEq κ]

/-- Apply edits in order. -/
def commit (p : Store κ υ) : List (κ × Option υ) → Store κ υ
  | [] => p
  | (k, v) :: edits => commit (Function.update p k v) edits

@[simp] theorem commit_cons (p : Store κ υ) (k : κ) (v : Option υ)
    (edits : List (κ × Option υ)) :
    p.commit ((k, v) :: edits) = commit (Function.update p k v) edits := rfl

/-- Keys that are not edited keep their value. -/
theorem commit_of_notMem (p : Store κ υ) {k : κ} {edits : List (κ × Option υ)}
    (h : ∀ e ∈ edits, e.1 ≠ k) : p.commit edits k = p k := by
  induction edits generalizing p with
  | nil => rfl
  | cons e edits ih =>
    rw [List.forall_mem_cons] at h
    rw [commit_cons, ih _ h.2, Function.update_of_ne (Ne.symm h.1)]

/-- A key edited once has the value of that edit. -/
theorem commit_of_first (p : Store κ υ) {k : κ} {v : Option υ} {edits : List (κ × Option υ)}
    (h : ∀ e ∈ edits, e.1 ≠ k) : p.commit ((k, v) :: edits) k = v := by
  rw [commit_cons, commit_of_notMem _ h, Function.update_self]

end Store

end Dynamicloader
