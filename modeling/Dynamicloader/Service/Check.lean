import Dynamicloader.Service.Loads
/-!
# The check after a registration

`addModule` schedules a check whose message carries no payload; the handler
reads the module from the one slot `mCurAddModule` when the message arrives.
Between two registrations without a delivery the first one is overwritten:
its check is lost, and the second module is checked twice.

As long as every registration finds no check outstanding, each module is
checked once. The induction goes over the run with the module whose check
is outstanding, if any.
-/

namespace Dynamicloader

namespace Service

variable {cacheDir : String} {s s' : State} {p q m : Option String} {caller : Caller}

/-- The check scheduled by `addModule`. -/
abbrev checkAdded : What := .checkProcessHadStartedBeforeAddmodule

/-- Calls, and deliveries of the check. -/
def Event.isCheck : Event → Prop
  | .addModule _ _ _ _ => True
  | .removeModule _ _ _ => True
  | .deliver what _ => what = checkAdded
  | _ => False

/-- The module an event newly registers. -/
def Event.registers (s : State) : Event → Option ModuleInfo
  | .addModule caller pkgName processName modulePath =>
    match verifyCallerPerm caller, firstMatch (isKey pkgName processName) s.moduleList with
    | .ok true, .ok none => some ⟨pkgName, processName, modulePath⟩
    | _, _ => none
  | _ => none

/-- The modules a run newly registers, in order. -/
def registrations (cacheDir : String) : State → List Event → List ModuleInfo
  | _, [] => []
  | s, e :: es => (e.registers s).toList ++ registrations cacheDir (step cacheDir s e).1 es

/-- The module names no process, or has a path to load. -/
def ModuleInfo.Sendable (mi : ModuleInfo) : Prop :=
  mi.processName = none ∨ Loadable mi.modulePath

/-- Every registration of the run finds no check outstanding, and can be
sent if its process runs. -/
def Serial (cacheDir : String) : State → List Event → Prop
  | _, [] => True
  | s, e :: es =>
    (∀ mi ∈ e.registers s, checkAdded ∉ s.queue ∧ mi.Sendable) ∧
      Serial cacheDir (step cacheDir s e).1 es

theorem registers_addModule (h : Registers caller p q s) :
    (Event.addModule caller p q m).registers s = some ⟨p, q, m⟩ := by
  simp only [Event.registers, h.1, h.2]

theorem registers_addModule_of_not (h : ¬ Registers caller p q s) :
    (Event.addModule caller p q m).registers s = none := by
  unfold Event.registers
  dsimp only
  split
  · rename_i hperm hfirst
    exact absurd ⟨hperm, hfirst⟩ h
  · rfl

/-- The module whose check is outstanding, if any. -/
def Outstanding (s : State) : Option ModuleInfo → Prop
  | none => checkAdded ∉ s.queue
  | some mi => s.curAddModule = some mi ∧ mi.Sendable ∧ s.queue.count checkAdded = 1

theorem Outstanding.congr {pend : Option ModuleInfo} (h : Outstanding s pend)
    (hcur : s'.curAddModule = s.curAddModule) (hq : s'.queue = s.queue) : Outstanding s' pend := by
  cases pend with
  | none => rwa [Outstanding, hq]
  | some mi => rwa [Outstanding, hcur, hq]

theorem outstanding_register {mi : ModuleInfo} (hq : checkAdded ∉ s.queue)
    (hsend : mi.Sendable) : Outstanding (s.register mi) (some mi) := by
  refine ⟨rfl, hsend, ?_⟩
  rw [State.register, List.count_append, List.count_eq_zero_of_not_mem hq]
  rfl

/-- The delivery of an outstanding check. -/
theorem step_deliver_checkAdded {mi : ModuleInfo} (h : Outstanding s (some mi))
    (am : ℕ → ActivityManager) :
    step cacheDir s (.deliver checkAdded am) =
      ({ s with queue := s.queue.erase checkAdded },
        if queryAllRunningAppInfo mi.processName (am 0) then [mi.load] else []) := by
  obtain ⟨hcur, hsend, hcount⟩ := h
  have hq : checkAdded ∈ s.queue := List.count_pos_iff.mp (by omega)
  rw [step, if_pos hq]
  by_cases hrun : queryAllRunningAppInfo mi.processName (am 0)
  · have hload : Loadable mi.modulePath := by
      refine hsend.resolve_left fun hnone => ?_
      simp [hnone, queryAllRunningAppInfo] at hrun
    simp only [handleMessage, hcur, hrun, mi.send_of_loadable hload, ↓reduceIte]
  · simp only [handleMessage, hcur, hrun, Bool.false_eq_true, ↓reduceIte]

/-- What a run does for the modules registered in it and for the one whose
check was outstanding. -/
structure Checked (cacheDir : String) (s : State) (pend : Option ModuleInfo) (es : List Event) :
    Prop where
  loaded : checkAdded ∉ ((step cacheDir).run s es).queue →
    ∀ mi ∈ pend.toList ++ registrations cacheDir s es,
      (∀ am, .deliver checkAdded am ∈ es →
        queryAllRunningAppInfo mi.processName (am 0) = true) →
      mi.load ∈ (step cacheDir).outputs s es
  once : ∀ mi, ((step cacheDir).outputs s es).count mi.load ≤
    (pend.toList ++ registrations cacheDir s es).count mi

/-- A step that emits nothing and registers nothing. -/
theorem Checked.cons {pend : Option ModuleInfo} {e : Event} {es : List Event}
    (h : Checked cacheDir (step cacheDir s e).1 pend es) (hout : (step cacheDir s e).2 = [])
    (hreg : e.registers s = none) : Checked cacheDir s pend (e :: es) := by
  refine ⟨fun hq mi hmi hrun => ?_, fun mi => ?_⟩
  · rw [registrations, hreg, Option.toList_none, List.nil_append] at hmi
    rw [Machine.outputs_cons, hout, List.nil_append]
    exact h.loaded hq mi hmi fun am ham => hrun am (List.mem_cons_of_mem _ ham)
  · rw [registrations, hreg, Machine.outputs_cons, hout]
    exact h.once mi

/-- A registration: its check is outstanding from then on. -/
theorem Checked.register {e : Event} {es : List Event} {mi : ModuleInfo}
    (h : Checked cacheDir (step cacheDir s e).1 (some mi) es) (hout : (step cacheDir s e).2 = [])
    (hreg : e.registers s = some mi) : Checked cacheDir s none (e :: es) := by
  refine ⟨fun hq x hx hrun => ?_, fun x => ?_⟩
  · rw [registrations, hreg] at hx
    rw [Machine.outputs_cons, hout, List.nil_append]
    exact h.loaded hq x hx fun am ham => hrun am (List.mem_cons_of_mem _ ham)
  · rw [registrations, hreg, Machine.outputs_cons, hout]
    exact h.once x

/-- A delivery: nothing is outstanding behind it. -/
theorem Checked.deliver {es : List Event} {mi : ModuleInfo} {am : ℕ → ActivityManager}
    (hs : Outstanding s (some mi))
    (h : Checked cacheDir { s with queue := s.queue.erase checkAdded } none es) :
    Checked cacheDir s (some mi) (.deliver checkAdded am :: es) := by
  have hstep : step cacheDir s (.deliver checkAdded am) = _ := step_deliver_checkAdded hs am
  refine ⟨fun hq x hx hrun => ?_, fun x => ?_⟩
  · rw [Machine.run_cons, hstep] at hq
    rw [registrations, hstep] at hx
    rw [Machine.outputs_cons, hstep]
    rcases List.mem_append.mp hx with hx | hx
    · -- the module that was outstanding
      obtain rfl := List.mem_singleton.mp hx
      rw [if_pos (hrun am List.mem_cons_self)]
      exact List.mem_append_left _ (List.mem_singleton_self _)
    · refine List.mem_append_right _ (h.loaded hq x hx fun am' ham => ?_)
      exact hrun am' (List.mem_cons_of_mem _ ham)
  · rw [registrations, Machine.outputs_cons, hstep, List.count_append, List.count_append]
    refine Nat.add_le_add ?_ (h.once x)
    split
    · simp only [Option.toList_some, List.count_singleton, beq_iff_eq]
      split
      · rename_i hload
        exact Nat.le_of_eq (if_pos (ModuleInfo.load_inj hload)).symm
      · exact Nat.zero_le _
    · exact Nat.zero_le _

/-- **Every check of a serial run is made once**, and for the module it was
scheduled for. -/
theorem checked_of_serial {pend : Option ModuleInfo} {es : List Event} (hs : Outstanding s pend)
    (hes : ∀ e ∈ es, e.isCheck) (hserial : Serial cacheDir s es) : Checked cacheDir s pend es := by
  induction es generalizing s pend with
  | nil =>
    refine ⟨fun hq mi hmi _ => ?_, fun mi => Nat.zero_le _⟩
    -- a check that is outstanding has not been delivered
    cases pend with
    | none => simp [registrations] at hmi
    | some mi' =>
      have : s.queue.count checkAdded = 0 := List.count_eq_zero_of_not_mem hq
      have := hs.2.2
      omega
  | cons e es ih =>
    rw [List.forall_mem_cons] at hes
    obtain ⟨hreg, hserial⟩ := hserial
    cases e with
    | addModule caller p q m =>
      rcases addModule_cases caller p q m s with ⟨hr, heq⟩ | ⟨hr, heq⟩
      · obtain ⟨hq, hsend⟩ := hreg _ (registers_addModule hr)
        cases pend with
        | none =>
          refine Checked.register (ih ?_ hes.2 hserial) rfl (registers_addModule hr)
          rw [step, heq]
          exact outstanding_register hq hsend
        | some mi =>
          have : s.queue.count checkAdded = 0 := List.count_eq_zero_of_not_mem hq
          have := hs.2.2
          omega
      · refine Checked.cons (ih ?_ hes.2 hserial) rfl (registers_addModule_of_not hr)
        rw [step, heq]
        exact hs
    | removeModule caller p q =>
      refine Checked.cons (ih ?_ hes.2 hserial) rfl rfl
      rw [step]
      rcases removeModule_cases caller p q s with ⟨mi, -, heq⟩ | ⟨heq, -⟩
      · rw [heq]
        exact hs.congr rfl rfl
      · rw [heq]
        exact hs
    | deliver what am =>
      obtain rfl : what = checkAdded := hes.1
      cases pend with
      | none =>
        have hstep : step cacheDir s (.deliver checkAdded am) = (s, []) := by
          rw [step, if_neg hs]
        refine Checked.cons (ih ?_ hes.2 hserial) ?_ rfl
        · rw [hstep]
          exact hs
        · rw [hstep]
      | some mi =>
        rw [step_deliver_checkAdded hs] at hserial
        refine Checked.deliver hs (ih ?_ hes.2 hserial)
        have hcount := hs.2.2
        refine List.count_eq_zero.mp ?_
        rw [List.count_erase_self]
        omega
    | receive action p q => exact absurd hes.1 (by simp [Event.isCheck])
    | restart => exact absurd hes.1 (by simp [Event.isCheck])

/-- **No check is lost, and none is made twice**, in every run of calls and
check deliveries in which each registration finds no check outstanding. -/
theorem checks_not_lost {es : List Event} (hq : checkAdded ∉ s.queue)
    (hes : ∀ e ∈ es, e.isCheck) (hserial : Serial cacheDir s es) :
    (checkAdded ∉ ((step cacheDir).run s es).queue →
      ∀ mi ∈ registrations cacheDir s es,
        (∀ am, .deliver checkAdded am ∈ es →
          queryAllRunningAppInfo mi.processName (am 0) = true) →
        mi.load ∈ (step cacheDir).outputs s es) ∧
    ∀ mi, ((step cacheDir).outputs s es).count mi.load ≤
      (registrations cacheDir s es).count mi := by
  have h : Checked cacheDir s none es := checked_of_serial hq hes hserial
  exact ⟨h.loaded, h.once⟩

/-- Two registrations before the first delivery: the first module is never
loaded although its process runs, and the second is loaded twice. -/
theorem checks_lost :
    let es : List Event :=
      [.addModule systemCaller (some "a") (some "b") (some "/c.jar"),
        .addModule systemCaller (some "d") (some "e") (some "/f.jar"),
        .deliver checkAdded fun _ => ⟨none, some [some "b", some "e"]⟩,
        .deliver checkAdded fun _ => ⟨none, some [some "b", some "e"]⟩]
    checkAdded ∉ ((step "/cache").run initial es).queue ∧
      ((step "/cache").run initial es).moduleList =
        [⟨some "a", some "b", some "/c.jar"⟩, ⟨some "d", some "e", some "/f.jar"⟩] ∧
      (step "/cache").outputs initial es =
        [⟨some "d", some "e", some "/f.jar"⟩, ⟨some "d", some "e", some "/f.jar"⟩] :=
  ⟨by decide, rfl, rfl⟩

/-- A registration whose check is delivered before the next one. -/
theorem checks_not_lost_alone :
    let es : List Event :=
      [.addModule systemCaller (some "a") (some "b") (some "/c.jar"),
        .deliver checkAdded (onlyAt 0 "b")]
    Serial "/cache" initial es ∧
      ⟨some "a", some "b", some "/c.jar"⟩ ∈ (step "/cache").outputs initial es := by
  intro es
  have hserial : Serial "/cache" initial es := by
    refine ⟨fun mi hmi => ?_, fun mi hmi => ?_, trivial⟩
    · obtain rfl := Option.some.inj hmi
      exact ⟨by decide, Or.inr ⟨"/c.jar", rfl, by decide⟩⟩
    · simp [Event.registers] at hmi
  have hes : ∀ e ∈ es, e.isCheck := by simp [es, Event.isCheck]
  refine ⟨hserial, (checks_not_lost (by decide) hes hserial).1 (by decide)
    ⟨some "a", some "b", some "/c.jar"⟩ (List.mem_singleton_self _) fun am ham => ?_⟩
  simp only [es, List.mem_cons, reduceCtorEq, List.not_mem_nil, or_false, false_or,
    Event.deliver.injEq, true_and] at ham
  rw [ham]
  exact query_onlyAt_self 0 "b"

end Service

end Dynamicloader
