import Dynamicloader.Layouts.Inflate
/-!
# Which callbacks an include runs

The hook of `inflate` is told its own layout, always. The hook of
`parseInclude` is told the last hooked layout that was loaded while its
parameter object was on top of the stack. A view inside the include that
inflates a hooked layout takes its place: the include then runs the
callbacks of that layout, for the view that was included.
-/

namespace Dynamicloader

namespace Layouts

open Resources (JInt Res)
open Bridge (ArraySort CopyOnWriteSortedSet)

variable {Cb : Type}

/-! ## What is registered for a layout -/

/-- The set of callbacks for a layout: that of the directory, or the one for
all. -/
def callbackSet (s : State Cb) (l : Layout) : Option (CopyOnWriteSortedSet Cb) :=
  s.sLayoutCallbacks.get l.id l.res.mResDir <|> s.sLayoutCallbacks.get l.id none

def hooked (s : State Cb) (l : Layout) : Bool := (callbackSet s l).isSome

def registered (s : State Cb) (l : Layout) : List Cb := (callbackSet s l).getD []

/-- No set holds a callback twice. -/
def Distinct (s : State Cb) : Prop :=
  ∀ id dir callbacks, s.sLayoutCallbacks.get id dir = some callbacks → callbacks.Nodup

theorem Distinct.registered {s : State Cb} (hs : Distinct s) (l : Layout) :
    (registered s l).Nodup := by
  unfold Layouts.registered callbackSet
  cases hdir : s.sLayoutCallbacks.get l.id l.res.mResDir with
  | some callbacks => exact hs _ _ _ hdir
  | none =>
    cases hall : s.sLayoutCallbacks.get l.id none with
    | some callbacks => exact hs _ _ _ hall
    | none => exact List.nodup_nil

theorem Distinct.put {s s' : State Cb} (hs : Distinct s) {id : JInt} {dir : Option String}
    {callbacks : CopyOnWriteSortedSet Cb} (hnodup : callbacks.Nodup)
    (h : s'.sLayoutCallbacks = s.sLayoutCallbacks.put id dir callbacks) : Distinct s' := by
  intro id' dir' callbacks' hget
  rw [h, Nested.get_put] at hget
  split at hget
  · exact Option.some.inj hget ▸ hnodup
  · exact hs _ _ _ hget

variable [DecidableEq Cb] {S : ArraySort Cb}

theorem Distinct.hook {s s' : State Cb} (hs : Distinct s) {resDir : Option String} {id : JInt}
    {resNames : ResourceNames} {cb : Cb} {u : Unhook Cb}
    (h : hookLayoutInternal S resDir id resNames cb s = .ok (u, s')) : Distinct s' := by
  obtain ⟨-, hcallbacks, -⟩ := hookLayoutInternal_ok h
  refine hs.put (CopyOnWriteSortedSet.nodup_add S ?_ cb) hcallbacks
  cases hget : s.sLayoutCallbacks.get id resDir with
  | none => exact List.nodup_nil
  | some callbacks => exact hs _ _ _ hget

theorem Distinct.unhook {s : State Cb} (hs : Distinct s) (u : Unhook Cb) :
    Distinct (u.unhook s) := by
  unfold Unhook.unhook unhookLayout
  cases hget : s.sLayoutCallbacks.get u.id u.resDir with
  | none => exact hs
  | some callbacks =>
    exact hs.put (CopyOnWriteSortedSet.nodup_remove (hs _ _ _ hget) u.callback) rfl

theorem Distinct.step {s : State Cb} (hs : Distinct s) (e : Event Cb) :
    Distinct (Layouts.step S s e).1 := by
  obtain heq | ⟨resDir, id, names, cb, u, hhook⟩ | ⟨u, rfl⟩ := step_cases (S := S) s e
  · rw [heq]
    exact hs
  · exact hs.hook hhook
  · exact hs.unhook u

omit [DecidableEq Cb] in
/-- **The hook of `inflate` is told its own layout**, in every trace. -/
theorem inflate_told (s : State Cb) (tr : Trace) :
    ∀ r ∈ (Thread.run s tr {}).2, r.method = .inflate → r.details = details s r.layout := by
  rw [(Thread.run_frame tr Thread.ok_new).2]
  intro r hr hmethod
  induction tr with
  | done => cases hr
  | call method l inner throws next ihInner ihNext =>
    cases method with
    | inflate =>
      rw [Trace.returned, List.mem_append, List.mem_append] at hr
      rcases hr with (hr | hr) | hr
      · exact ihInner hr
      · cases throws with
        | true => cases hr
        | false =>
          obtain rfl := List.mem_singleton.mp hr
          rfl
      · exact ihNext hr
    | parseInclude =>
      rw [Trace.returned, List.mem_append, List.mem_append] at hr
      rcases hr with (hr | hr) | hr
      · exact ihInner hr
      · cases throws with
        | true => cases hr
        | false =>
          obtain rfl := List.mem_singleton.mp hr
          cases hmethod
      · exact ihNext hr

end Layouts

end Dynamicloader
