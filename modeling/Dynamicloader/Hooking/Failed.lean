import Dynamicloader.Hooking.Once
/-!
# A call of `hookMethod` that throws

The checks at the head of `hookMethod` come before anything is written. The
slot is read and the native part called last, when the member is in the map
and the callback in its set, and neither is taken back. The member then
counts as hooked for every later call, and none of them installs it.
-/

namespace Dynamicloader

namespace Hooking

open Bridge (ArraySort CopyOnWriteSortedSet)

variable {Member Class Ptr Cb : Type} [DecidableEq Member] [DecidableEq Ptr] [DecidableEq Cb]
variable {S : ArraySort Cb} {P : Platform Member Class Ptr} {s : State Member Class Ptr Cb}
  {m : Member} {cb : Cb}

omit [DecidableEq Member] [DecidableEq Ptr] [DecidableEq Cb] in
theorem State.goes_goes (c : ℕ) (phase phase' : Option (Phase Member Cb)) :
    (s.goes c phase).goes c phase' = s.goes c phase' := by
  rw [goes, goes, goes, Function.update_idem]

omit [DecidableEq Member] [DecidableEq Ptr] [DecidableEq Cb] in
theorem State.goes_none {c : ℕ} (hc : s.calls c = none) : s.goes c none = s := by
  rw [goes, ← hc, Function.update_eq_self]

omit [DecidableEq Member] [DecidableEq Cb] in
/-- Installing does not look at the calls in progress, and ends none. -/
theorem install_goes (c r : ℕ) (phase : Option (Phase Member Cb)) :
    install P m r (s.goes c phase) =
      ((install P m r s).1.map (·.goes c phase), (install P m r s).2) := by
  unfold install hookMethodNative
  cases P.slot m with
  | error e => rfl
  | ok slot =>
    cases hp : P.dvmSlotToMethod (P.declaringClass m) slot with
    | none => simp only [hp]; rfl
    | some p =>
      cases hinfo : s.hookInfo p with
      | none => simp only [hp, State.goes, hinfo]; rfl
      | some info => simp only [hp, State.goes, hinfo]; rfl

omit [DecidableEq Member] [DecidableEq Cb] in
theorem install_calls {r : ℕ} {s' : State Member Class Ptr Cb}
    (h : (install P m r s).1 = .ok s') : s'.calls = s.calls := by
  unfold install hookMethodNative at h
  cases hslot : P.slot m with
  | error e => simp [hslot, throw, throwThe, MonadExceptOf.throw] at h
  | ok slot =>
    cases hp : P.dvmSlotToMethod (P.declaringClass m) slot with
    | none => simp [hslot, hp, throw, throwThe, MonadExceptOf.throw] at h
    | some p =>
      simp only [hslot, hp] at h
      split at h
      · obtain rfl := Except.ok.inj h
        rfl
      · obtain rfl := Except.ok.inj h
        rfl

theorem hookMethod_of_check {e : Throwable} (h : P.check m = .error e) :
    hookMethod S P m cb s = ⟨.error e, false, s⟩ := by
  simp only [hookMethod, h]
  rfl

/-- A member that is in the map is not installed, and nothing throws. -/
theorem hookMethod_of_mem {r : ℕ} (h : P.check m = .ok ())
    (hm : s.sHookedMethodCallbacks m = some r) :
    hookMethod S P m cb s = ⟨.ok ⟨m, cb⟩, false, s.add S r cb⟩ := by
  simp only [hookMethod, h, State.getOrCreate, hm]
  rfl

/-- A member that is not in the map is put there before it is installed. -/
theorem hookMethod_of_new (h : P.check m = .ok ()) (hm : s.sHookedMethodCallbacks m = none) :
    hookMethod S P m cb s =
      match (install P m s.made ((s.create m).add S s.made cb)).1 with
      | .error e => ⟨.error e, true, (s.create m).add S s.made cb⟩
      | .ok s' => ⟨.ok ⟨m, cb⟩, true, s'⟩ := by
  simp only [hookMethod, h, State.getOrCreate, hm]
  rfl

/-- **One call is its steps in a row**, with no other call between them. -/
theorem hookMethod_state_eq_run {c : ℕ} (hc : s.calls c = none) :
    (hookMethod S P m cb s).state =
      Machine.run (step S P) s [.hookMethod c m cb, .proceed c, .proceed c] := by
  have hself : ∀ (s : State Member Class Ptr Cb) phase, (s.goes c phase).calls c = phase :=
    fun s phase => Function.update_self ..
  -- A thread that is in no call does nothing more.
  have hidle : ∀ s : State Member Class Ptr Cb, s.calls c = none →
      step S P s (.proceed c) = (s, []) := fun s hc => by simp only [step, hc]
  simp only [Machine.run_cons, Machine.run_nil]
  cases hcheck : P.check m with
  | error e =>
    have hentered : step S P s (.hookMethod c m cb) = (s, [.threw m cb e]) := by
      simp only [step, hc, hcheck]
    rw [hookMethod_of_check hcheck, hentered, hidle s hc, hidle s hc]
  | ok u =>
    cases hm : s.sHookedMethodCallbacks m with
    | some r =>
      have hentered : (step S P s (.hookMethod c m cb)).1 =
          s.goes c (some (.add m cb r false)) := by
        simp only [step, hc, hcheck, State.getOrCreate, hm]
      have hadded : (step S P (s.goes c (some (.add m cb r false))) (.proceed c)).1 =
          s.add S r cb := by
        simp only [step, hself]
        exact ((s.add S r cb).goes_goes c _ none).trans (State.goes_none hc)
      rw [hookMethod_of_mem hcheck hm, hentered, hadded, hidle (s.add S r cb) hc]
    | none =>
      have hentered : (step S P s (.hookMethod c m cb)).1 =
          (s.create m).goes c (some (.add m cb s.made true)) := by
        simp only [step, hc, hcheck, State.getOrCreate, hm]
        rfl
      have hadded : (step S P ((s.create m).goes c (some (.add m cb s.made true)))
            (.proceed c)).1 =
          ((s.create m).add S s.made cb).goes c (some (.install m cb s.made)) := by
        simp only [step, hself]
        exact ((s.create m).add S s.made cb).goes_goes c _ _
      rw [hookMethod_of_new hcheck hm, hentered, hadded]
      simp only [step, hself, install_goes]
      cases hinstall : (install P m s.made ((s.create m).add S s.made cb)).1 with
      | error e =>
        have hidle' : ((s.create m).add S s.made cb).calls c = none := hc
        exact ((State.goes_goes ..).trans (State.goes_none hidle')).symm
      | ok s' =>
        have hc' : s'.calls c = none := (congrFun (install_calls hinstall) c).trans hc
        exact ((State.goes_goes ..).trans (State.goes_none hc')).symm

/-- **No trace is left of a call**: the map and the sets in it are as before,
and a later call for the member comes to installing where it would have. -/
structure LeavesNoTrace (S : ArraySort Cb) (P : Platform Member Class Ptr) (m : Member)
    (s s' : State Member Class Ptr Cb) : Prop where
  map : s'.sHookedMethodCallbacks = s.sHookedMethodCallbacks
  sets : ∀ m' r, s.sHookedMethodCallbacks m' = some r → s'.sets r = s.sets r
  again : ∀ cb, (hookMethod S P m cb s').attempted = (hookMethod S P m cb s).attempted

/-- **When a call that throws leaves no trace**: if it is the checks that
throw. -/
theorem leavesNoTrace_iff {e : Throwable} (h : (hookMethod S P m cb s).outcome = .error e) :
    LeavesNoTrace S P m s (hookMethod S P m cb s).state ↔ P.check m = .error e := by
  cases hcheck : P.check m with
  | error e' =>
    rw [hookMethod_of_check hcheck] at h ⊢
    obtain rfl := Except.error.inj h
    exact iff_of_true ⟨rfl, fun _ _ _ => rfl, fun _ => rfl⟩ rfl
  | ok u =>
    refine iff_of_false (fun hnone => ?_) (by simp)
    cases hm : s.sHookedMethodCallbacks m with
    | some r =>
      rw [hookMethod_of_mem hcheck hm] at h
      cases h
    | none =>
      have hcreated : ((s.create m).add S s.made cb).sHookedMethodCallbacks m = some s.made :=
        (s.map_create m m).trans (if_pos rfl)
      rw [hookMethod_of_new hcheck hm] at h hnone
      cases hinstall : (install P m s.made ((s.create m).add S s.made cb)).1 with
      | ok s' =>
        rw [hinstall] at h
        cases h
      | error e' =>
        rw [hinstall] at hnone
        have hmap := congrFun hnone.map m
        rw [hm] at hmap
        cases hcreated.symm.trans hmap

/-- A class whose methods the virtual machine does not find. -/
def unknownMethods : Platform Int32 Unit Int32 where
  __ := plainMethods
  dvmSlotToMethod _ _ := none
  own _ _ _ _ _ _ _ hp _ := by cases hp

/-- Its methods cannot be hooked, which the first call for one reports. The
next one returns, and installs nothing. -/
theorem failed_leaves_trace :
    let S : ArraySort ℕ := ⟨id, fun _ => .rfl⟩
    let first := hookMethod S unknownMethods 5 1 {}
    let second := hookMethod S unknownMethods 5 2 first.state
    first.outcome =
        .error (.noSuchMethodError "could not get internal representation for method") ∧
      first.attempted = true ∧ first.state.sHookedMethodCallbacks 5 = some 0 ∧
      first.state.sets 0 = [1] ∧ second.outcome = .ok ⟨5, 2⟩ ∧ second.attempted = false ∧
      ¬ LeavesNoTrace S unknownMethods 5 {} first.state := by
  intro S first second
  refine ⟨rfl, rfl, rfl, rfl, rfl, rfl, fun hnone => ?_⟩
  have hmap : first.state.sHookedMethodCallbacks 5 = none := congrFun hnone.map 5
  cases hmap

/-- The methods of an interface are refused by the checks. -/
theorem leavesNoTrace_interface :
    let S : ArraySort ℕ := ⟨id, fun _ => .rfl⟩
    let P : Platform Int32 Unit Int32 := { plainMethods with isInterface := fun _ => true }
    (hookMethod S P 5 1 {}).outcome =
        .error (.illegalArgumentException "Cannot hook interfaces: method") ∧
      LeavesNoTrace S P 5 {} (hookMethod S P 5 1 {}).state := by
  intro S P
  have hthrows : (hookMethod S P 5 1 {}).outcome =
      .error (.illegalArgumentException "Cannot hook interfaces: method") := rfl
  exact ⟨hthrows, (leavesNoTrace_iff hthrows).mpr rfl⟩

end Hooking

end Dynamicloader
