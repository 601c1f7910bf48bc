import Dynamicloader.Hooking.Once
/-!
# A hook that was returned

A call of `hookMethod` that finds a set for its member adds its callback and
returns. Whether the member is installed by then is up to the call that made
the set, which may still be on its way to `hookMethodNative`, or have failed
there. The callback is in the set, but an invocation of the method does not
get to it.
-/

namespace Dynamicloader

namespace Hooking

open Bridge (ArraySort CopyOnWriteSortedSet)

variable {Member Class Ptr Cb : Type} [DecidableEq Member] [DecidableEq Cb]

/-- `hookMethodNative` has completed for the member. -/
def Installed (P : Platform Member Class Ptr) (s : State Member Class Ptr Cb) (m : Member) :
    Prop := (P.methodOf m).bind s.hookInfo ≠ none

/-- The snapshot that `handleHookedMethod` takes when the member is invoked, if
the invocation goes there at all. -/
def snapshot (P : Platform Member Class Ptr) (s : State Member Class Ptr Cb) (m : Member) :
    Option (CopyOnWriteSortedSet Cb) :=
  ((P.methodOf m).bind s.hookInfo).map fun info => s.sets info.2.callbacks

/-- **Returned hooks are live**: a callback whose `hookMethod` has returned, and
that was not unhooked, is in the snapshot of an invocation that starts now. -/
def Live (P : Platform Member Class Ptr) (s : State Member Class Ptr Cb)
    (log : List (Output Member Class Cb)) : Prop :=
  ∀ m cb, .returned m cb ∈ log → lastOp m cb log = some true →
    ∃ callbacks, snapshot P s m = some callbacks ∧ cb ∈ callbacks

variable {P : Platform Member Class Ptr} {s s' : State Member Class Ptr Cb} {m : Member}
  {out log : List (Output Member Class Cb)}

/-- An installed member is given the set that is in the map. -/
theorem Inv.snapshot_eq (h : Inv P s log) (hm : Installed P s m) :
    ∃ r, s.sHookedMethodCallbacks m = some r ∧ snapshot P s m = some (s.sets r) := by
  obtain ⟨⟨m', info⟩, hinfo⟩ := Option.ne_none_iff_exists'.mp hm
  obtain ⟨p, hp, hhooked⟩ := Option.bind_eq_some_iff.mp hinfo
  obtain ⟨hp', hset⟩ := h.hooked p m' info hhooked
  obtain rfl := P.methodOf_inj hp hp'
  exact ⟨info.callbacks, hset, by rw [snapshot, hinfo]; rfl⟩

/-- **Where all that was returned is installed, it is live.** -/
theorem Inv.live (h : Inv P s log) (hinst : ∀ m cb, .returned m cb ∈ log → Installed P s m) :
    Live P s log := by
  intro m cb hret hlast
  obtain ⟨r, hr, hsnapshot⟩ := h.snapshot_eq (hinst m cb hret)
  obtain ⟨r', hr', hmem⟩ := (h.sets m cb).mpr hlast
  obtain rfl := Option.some.inj (hr.symm.trans hr')
  exact ⟨_, hsnapshot, hmem⟩

variable [DecidableEq Ptr] {S : ArraySort Cb} {e : Event Member Cb}

/-- What is installed stays so. -/
theorem Effect.installed_mono (he : Effect S P s e s' out) (hm : Installed P s m) :
    Installed P s' m := by
  cases he with
  | installed c m' cb p info hc hp hfree =>
    obtain ⟨info', hinfo⟩ := Option.ne_none_iff_exists'.mp hm
    obtain ⟨q, hq, hhooked⟩ := Option.bind_eq_some_iff.mp hinfo
    have hne : q ≠ p := by
      rintro rfl
      rw [hfree] at hhooked
      cases hhooked
    have hsame : (s.hook p m' info).hookInfo q = some info' :=
      (Function.update_of_ne hne ..).trans hhooked
    rw [Installed, hq, Option.bind_some]
    exact fun hnone => by cases hsame.symm.trans hnone
  | _ => exact hm

/-- **The condition**: when a call that has found a set returns, the member is
installed. -/
def FoundInstalled (P : Platform Member Class Ptr) (s : State Member Class Ptr Cb)
    (e : Event Member Cb) : Prop :=
  ∀ c m cb r, e = .proceed c → s.calls c = some (.add m cb r false) → Installed P s m

/-- Under the condition, what returns is installed. -/
theorem Effect.returned_installed (he : Effect S P s e s' out) (hcond : FoundInstalled P s e)
    {cb : Cb} (hret : .returned m cb ∈ out) : Installed P s' m := by
  cases he with
  | added c m' cb' r hc =>
    obtain ⟨rfl, -⟩ : m = m' ∧ cb = cb' := by simpa using hret
    exact hcond c m _ r rfl hc
  | installed c m' cb' p info hc hp hfree =>
    obtain ⟨rfl, -⟩ : m = m' ∧ cb = cb' := by simpa using hret
    have hnew : (s.hook p m info).hookInfo p = some (m, info) := Function.update_self ..
    rw [Installed, hp, Option.bind_some]
    exact fun hnone => by cases hnew.symm.trans hnone
  | already c m' cb' p info hc hp hhooked =>
    obtain ⟨rfl, -⟩ : m = m' ∧ cb = cb' := by simpa using hret
    rw [Installed, hp, Option.bind_some]
    exact hhooked
  | _ => simp at hret

/-- A call that has found a set returns: its callback was put there last. -/
theorem step_found {c r : ℕ} {cb : Cb} (hc : s.calls c = some (.add m cb r false)) :
    step S P s (.proceed c) = ((s.add S r cb).goes c none, [.added m cb, .returned m cb]) := by
  simp only [step, hc]
  rfl

/-- **When returned hooks are live**, in every run of overlapping calls: if
and only if no call that has found a set returns before the member is
installed. -/
theorem live_iff (es : List (Event Member Cb)) :
    (∀ pre, pre <+: es →
      Live P (Machine.run (step S P) {} pre) (Machine.outputs (step S P) {} pre)) ↔
    Machine.Along (step S P) (FoundInstalled P) {} es := by
  constructor
  · intro hlive
    refine Machine.along_iff _ |>.mpr ?_
    rintro pre e hpre c m cb r rfl hc
    have hafter := hlive (pre ++ [Event.proceed c]) hpre m cb
    rw [Machine.run_append, Machine.outputs_append, Machine.run_cons, Machine.outputs_cons,
      step_found hc] at hafter
    have hlast : lastOp m cb [(.added m cb : Output Member Class Cb), .returned m cb] =
        some true := by
      have hadded : Output.op m cb (.added m cb : Output Member Class Cb) = some true :=
        if_pos ⟨rfl, rfl⟩
      have hreturned : Output.op m cb (.returned m cb : Output Member Class Cb) = none := rfl
      simp [lastOp, hadded, hreturned]
    obtain ⟨callbacks, hsnapshot, -⟩ := hafter (by simp) (by
      rw [lastOp_append]
      simp [hlast])
    -- adding the callback has installed nothing
    intro hnone
    have hsame : snapshot P (((Machine.run (step S P) {} pre).add S r cb).goes c none) m = none := by
      change ((P.methodOf m).bind (Machine.run (step S P) {} pre).hookInfo).map _ = none
      rw [hnone]
      rfl
    cases hsame.symm.trans hsnapshot
  · intro halong pre hpre
    have hstep : ∀ (s : State Member Class Ptr Cb) e log, FoundInstalled P s e →
        (Inv P s log ∧ ∀ m cb, .returned m cb ∈ log → Installed P s m) →
        Inv P (step S P s e).1 (log ++ (step S P s e).2) ∧
          ∀ m cb, .returned m cb ∈ log ++ (step S P s e).2 → Installed P (step S P s e).1 m := by
      rintro s e log hcond ⟨hinv, hinst⟩
      refine ⟨hinv.effect (step_effect s e), fun m cb hret => ?_⟩
      rcases List.mem_append.mp hret with hlog | hout
      · exact (step_effect s e).installed_mono (hinst m cb hlog)
      · exact (step_effect s e).returned_installed hcond hout
    have hrun := Machine.run_outputs_along hstep (halong.of_prefix _ hpre)
      ⟨Inv.initial, fun _ _ h => by cases h⟩
    rw [List.nil_append] at hrun
    exact hrun.1.live hrun.2

/-- Two threads hook one method. The second finds the set of the first, adds
its callback and returns while the first has yet to install it. -/
theorem returned_not_live :
    let S : ArraySort ℕ := ⟨id, fun _ => .rfl⟩
    let es : List (Event Int32 ℕ) := [.hookMethod 0 5 1, .hookMethod 1 5 2, .proceed 1]
    let s := Machine.run (step S plainMethods) {} es
    let log := Machine.outputs (step S plainMethods) {} es
    .returned 5 2 ∈ log ∧ lastOp 5 2 log = some true ∧ snapshot plainMethods s 5 = none ∧
      ¬ Live plainMethods s log := by
  intro S es s log
  have hlog : log = [.added 5 2, .returned 5 2] := rfl
  have hret : .returned 5 2 ∈ log := by simp [hlog]
  have hlast : lastOp 5 2 log = some true := by
    rw [hlog]
    rfl
  have hsnapshot : snapshot plainMethods s 5 = none := rfl
  refine ⟨hret, hlast, hsnapshot, fun hlive => ?_⟩
  obtain ⟨callbacks, hsome, -⟩ := hlive 5 2 hret hlast
  cases hsnapshot.symm.trans hsome

end Hooking

end Dynamicloader
