import Dynamicloader.Layouts.Model
/-!
# Unhooking a layout

`hookLayoutInternal` makes a set for the directory if there is none, and
`unhook` leaves it there, empty. A set that is there, empty or not, is what
keeps `getLayout` from the callbacks for all directories. So hooking and
unhooking undo each other in the sets and, where the directory had no set and
the layout is hooked for all, not in what is attached.
-/

namespace Dynamicloader

namespace Layouts

open Resources (JInt Throwable Res isSystemId)
open Bridge (ArraySort CopyOnWriteSortedSet)

variable {Cb : Type}

/-! ## Sets and what is attached -/

/-- The callbacks that `getLayout` attaches. -/
def attached (this : Res) (id : JInt) (value : Option String) (s : State Cb) : List Cb :=
  match getLayout this id value s with
  | none => []
  | some details => details.callbacks

/-- What has callbacks has names. -/
def Named (s : State Cb) : Prop := ∀ id, s.sLayoutCallbacks id ≠ none → s.sResourceNames id ≠ none

variable [DecidableEq Cb] {S : ArraySort Cb}

/-- What a call that returns has done. -/
theorem hookLayoutInternal_ok {resDir : Option String} {id : JInt} {resNames : ResourceNames}
    {cb : Cb} {s s' : State Cb} {u : Unhook Cb}
    (h : hookLayoutInternal S resDir id resNames cb s = .ok (u, s')) :
    u = ⟨cb, resDir, id⟩ ∧
      s'.sLayoutCallbacks = s.sLayoutCallbacks.put id resDir
        (CopyOnWriteSortedSet.add S ((s.sLayoutCallbacks.get id resDir).getD []) cb).2 ∧
      s'.sResourceNames = s.sResourceNames.put resNames.id resDir resNames := by
  unfold hookLayoutInternal at h
  split at h
  · cases h
  · cases h
    exact ⟨rfl, rfl, rfl⟩

theorem Named.hook {s s' : State Cb} (hs : Named s) {resDir : Option String} {id : JInt}
    {names : Names} {cb : Cb} {u : Unhook Cb}
    (h : hookLayoutInternal S resDir id (getResourceNames id names) cb s = .ok (u, s')) :
    Named s' := by
  obtain ⟨-, hcallbacks, hnames⟩ := hookLayoutInternal_ok h
  intro id' hid'
  rw [hcallbacks, Nested.put_ne_none_iff] at hid'
  rw [hnames, Nested.put_ne_none_iff]
  obtain rfl | hold := hid'
  · exact .inl rfl
  · exact .inr (hs id' hold)

theorem Named.unhook {s : State Cb} (hs : Named s) (u : Unhook Cb) : Named (u.unhook s) := by
  unfold Unhook.unhook unhookLayout
  cases hget : s.sLayoutCallbacks.get u.id u.resDir with
  | none => exact hs
  | some callbacks =>
    intro id' hid'
    obtain rfl | hold := (Nested.put_ne_none_iff ..).mp hid'
    · exact hs _ (Nested.ne_none_of_get hget)
    · exact hs id' hold

/-- **What a call can do**: nothing, if it throws, put a callback into a set,
or undo that. -/
theorem step_cases (s : State Cb) (e : Event Cb) :
    (Layouts.step S s e).1 = s ∨
      (∃ resDir id names cb u, hookLayoutInternal S resDir id (getResourceNames id names) cb s =
        .ok (u, (Layouts.step S s e).1)) ∨
      ∃ u, e = .unhook u := by
  cases e with
  | hookLayout this id names cb =>
    cases h : hookLayout S this id names cb s with
    | error e => exact .inl (by simp only [Layouts.step, h]; rfl)
    | ok r =>
      simp only [Layouts.step, h]
      exact .inr (.inl ⟨_, _, names, cb, r.1, h⟩)
  | hookSystemWideLayout id names cb =>
    cases h : hookSystemWideLayout S id names cb s with
    | error e => exact .inl (by simp only [Layouts.step, h]; rfl)
    | ok r =>
      simp only [Layouts.step, h]
      unfold hookSystemWideLayout at h
      split at h
      · cases h
      · exact .inr (.inl ⟨_, _, names, cb, r.1, h⟩)
  | unhook u => exact .inr (.inr ⟨u, rfl⟩)

/-- **Every call keeps what has callbacks named.** -/
theorem Named.step {s : State Cb} (hs : Named s) (e : Event Cb) : Named (Layouts.step S s e).1 := by
  obtain heq | ⟨resDir, id, names, cb, u, hhook⟩ | ⟨u, rfl⟩ := step_cases (S := S) s e
  · rw [heq]
    exact hs
  · exact hs.hook hhook
  · exact hs.unhook u

end Layouts

end Dynamicloader
