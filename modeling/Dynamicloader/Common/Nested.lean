import Mathlib.Logic.Function.Basic
/-!
# Tables of tables

An inner table is there or not, and so is an entry of one that is there. To
put an entry makes the inner table if need be; to drop a key takes its entry
from all inner tables and leaves them there, empty or not.
-/

namespace Dynamicloader

/-- **A table of tables.** -/
abbrev Nested (α β γ : Type*) := α → Option (β → Option γ)

namespace Nested

variable {α β γ : Type*}

def get (t : Nested α β γ) (a : α) (b : β) : Option γ := (t a).bind (· b)

theorem get_of_eq_none {t : Nested α β γ} {a : α} (h : t a = none) (b : β) : t.get a b = none := by
  rw [get, h, Option.bind_none]

theorem ne_none_of_get {t : Nested α β γ} {a : α} {b : β} {c : γ} (h : t.get a b = some c) :
    t a ≠ none := by
  intro hnone
  rw [get_of_eq_none hnone] at h
  cases h

variable [DecidableEq α] [DecidableEq β]

def put (t : Nested α β γ) (a : α) (b : β) (c : γ) : Nested α β γ :=
  Function.update t a (some (Function.update ((t a).getD fun _ => none) b (some c)))

theorem put_of_ne (t : Nested α β γ) {a a' : α} (h : a' ≠ a) (b : β) (c : γ) :
    t.put a b c a' = t a' := Function.update_of_ne h ..

theorem put_ne_none_iff (t : Nested α β γ) (a : α) (b : β) (c : γ) (a' : α) :
    t.put a b c a' ≠ none ↔ a' = a ∨ t a' ≠ none := by
  by_cases ha : a' = a
  · rw [ha, put, Function.update_self]
    exact iff_of_true (Option.some_ne_none _) (.inl rfl)
  · rw [put_of_ne t ha]
    exact (or_iff_right ha).symm

/-- **What is put is there**, and all else stays. -/
theorem get_put (t : Nested α β γ) (a : α) (b : β) (c : γ) (a' : α) (b' : β) :
    (t.put a b c).get a' b' = if a' = a ∧ b' = b then some c else t.get a' b' := by
  by_cases ha : a' = a
  · subst ha
    rw [get, put, Function.update_self, Option.bind_some]
    by_cases hb : b' = b
    · subst hb
      rw [Function.update_self, if_pos ⟨rfl, rfl⟩]
    · rw [Function.update_of_ne hb, if_neg fun h => hb h.2, get]
      cases t a' with
      | none => rfl
      | some inner => rfl
  · rw [get, put_of_ne t ha, if_neg fun h => ha h.1]
    rfl

def drop (t : Nested α β γ) (b : β) : Nested α β γ :=
  fun a => (t a).map fun inner => Function.update inner b none

omit [DecidableEq α] in
theorem drop_eq_none_iff (t : Nested α β γ) (b : β) (a : α) : t.drop b a = none ↔ t a = none :=
  Option.map_eq_none_iff

omit [DecidableEq α] in
/-- The other keys stay. -/
theorem get_drop (t : Nested α β γ) (b : β) (a : α) (b' : β) :
    (t.drop b).get a b' = if b' = b then none else t.get a b' := by
  unfold get drop
  cases t a with
  | none => exact (ite_self none).symm
  | some inner =>
    rw [Option.map_some, Option.bind_some]
    by_cases hb : b' = b
    · rw [if_pos hb, hb, Function.update_self]
    · rw [if_neg hb, Function.update_of_ne hb, Option.bind_some]

end Nested

end Dynamicloader
