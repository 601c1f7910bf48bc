import Dynamicloader.Service.Loads
/-!
# Who asked for a load command

A load command puts code into another process. The service sends one on its
own behalf, for `system_server`; every other goes back to a caller that is
signed like the system and asked for exactly this module, in this package and
process, however often the service was restarted since (`load_authorised`). It
is sent only when the activity manager has just said that the process runs.
-/

namespace Dynamicloader

namespace Service

variable {cacheDir : String} {s s' : State} {es : List Event}

/-- One of the calls is that of a permitted caller who adds the module. -/
def Requested (es : List Event) (mi : ModuleInfo) : Prop :=
  ∃ caller, .addModule caller mi.pkgName mi.processName mi.modulePath ∈ es ∧
    verifyCallerPerm caller = .ok true

/-- Every module that the service knows of was asked for. -/
structure Vouched (es : List Event) (s : State) : Prop where
  listed : ∀ mi ∈ s.moduleList, Requested es mi
  pending : ∀ mi ∈ s.pendingModuleList, Requested es mi
  added : ∀ mi, s.curAddModule = some mi → Requested es mi

theorem vouched_initial (es : List Event) : Vouched es initial where
  listed _ h := by cases h
  pending _ h := by cases h
  added _ h := by cases h

/-- **Every event keeps the modules vouched for.** A restart forgets those that
are not registered, and finds the others in its store. -/
theorem Vouched.effect {e : Event} {loads : List Load} (hs : Durable s) (h : Vouched es s)
    (he : Effect cacheDir s e s' loads) (hmem : e ∈ es) : Vouched es s' := by
  cases he with
  | @register caller p q m hreg =>
    have hnew : Requested es ⟨p, q, m⟩ := ⟨caller, hmem, hreg.1⟩
    refine ⟨fun mi hmi => ?_, h.pending, fun mi hmi => ?_⟩
    · rcases List.mem_append.mp hmi with hmi | hmi
      · exact h.listed mi hmi
      · rw [List.mem_singleton.mp hmi]
        exact hnew
    · rw [← Option.some.inj hmi]
      exact hnew
  | unregister hreg =>
    exact ⟨fun mi hmi => h.listed mi (List.mem_of_mem_erase hmi), h.pending, h.added⟩
  | @watch action p q mi hreg =>
    refine ⟨h.listed, fun mi' hmi' => ?_, h.added⟩
    rcases List.mem_append.mp hmi' with hmi' | hmi'
    · exact h.pending mi' hmi'
    · rw [List.mem_singleton.mp hmi']
      exact h.listed mi (registered_eq_some hreg).1
  | handled hkeeps _ =>
    refine ⟨fun mi hmi => ?_, fun mi hmi => h.pending mi (hkeeps.pending mi hmi), fun mi hmi => ?_⟩
    · rw [hkeeps.moduleList] at hmi
      exact h.listed mi hmi
    · rw [hkeeps.curAddModule] at hmi
      exact h.added mi hmi
  | restart _ =>
    refine ⟨fun mi hmi => ?_, fun _ hmi => ?_, fun _ hmi => ?_⟩
    · rw [hs.start_moduleList] at hmi
      exact h.listed mi hmi
    · cases hmi
    · cases hmi
  | nothing => exact h

theorem vouched_run (cacheDir : String) (es : List Event) :
    Vouched es ((step cacheDir).run initial es) := by
  have hstep : ∀ s e, e ∈ es → Durable s ∧ Vouched es s →
      Durable (step cacheDir s e).1 ∧ Vouched es (step cacheDir s e).1 :=
    fun s e he ⟨hs, h⟩ => ⟨hs.step e, h.effect hs (step_effect cacheDir s e) he⟩
  exact (Machine.run_invariant hstep (fun _ he => he) ⟨durable_initial, vouched_initial es⟩).2

/-! ## The process runs -/

variable {am : ℕ → ActivityManager} {k : ℕ} {l : List ModuleInfo}

/-- The activity manager was asked for the process and had it running. -/
def Runs (am : ℕ → ActivityManager) (load : Load) : Prop :=
  ∃ k, queryAllRunningAppInfo load.processName (am k) = true

theorem ModuleInfo.runs_of_send {mi : ModuleInfo} {load : Load} (hsend : mi.send = .ok load)
    (hrun : queryAllRunningAppInfo mi.processName (am k) = true) : Runs am load := by
  obtain ⟨-, rfl⟩ := mi.send_ok hsend
  exact ⟨k, hrun⟩

theorem checkPending_runs : ∀ load ∈ (checkPending am k l).2, Runs am load := by
  induction l generalizing k with
  | nil => simp [checkPending]
  | cons mi l ih =>
    intro load hload
    rw [checkPending] at hload
    split at hload
    · next hrun =>
      cases hsend : mi.send with
      | error e => simp [hsend] at hload
      | ok load' =>
        simp only [hsend, List.mem_cons] at hload
        rcases hload with rfl | hload
        · exact mi.runs_of_send hsend hrun
        · exact ih load hload
    · exact ih load hload

theorem loadStarted_runs : ∀ load ∈ (loadStarted am k l).2, Runs am load := by
  induction l generalizing k with
  | nil => simp [loadStarted]
  | cons mi l ih =>
    intro load hload
    rw [loadStarted] at hload
    split at hload
    · next hrun =>
      cases hsend : mi.send with
      | error e => simp [hsend] at hload
      | ok load' =>
        simp only [hsend, List.mem_cons] at hload
        rcases hload with rfl | hload
        · exact mi.runs_of_send hsend hrun
        · exact ih load hload
    · exact ih load hload

/-- The handler asks before it sends, but for the service's own module. -/
theorem handleMessage_runs {what : What} : ∀ load ∈ (handleMessage cacheDir what am s).2,
    load = (systemModule cacheDir).load ∨ Runs am load := by
  intro load hload
  cases what with
  | checkProcessWhetherExist => exact .inr (checkPending_runs load hload)
  | xloaderSystemServerStartprocess =>
    cases hsend : (systemModule cacheDir).send with
    | error e => simp [handleMessage, hsend] at hload
    | ok load' =>
      simp only [handleMessage, hsend, List.mem_singleton] at hload
      rw [hload]
      exact .inl ((systemModule cacheDir).send_ok hsend).2
  | checkProcessHadStartedBeforeAddmodule =>
    cases hcur : s.curAddModule with
    | none => simp [handleMessage, hcur] at hload
    | some mi =>
      by_cases hrun : queryAllRunningAppInfo mi.processName (am 0)
      · cases hsend : mi.send with
        | error e => simp [handleMessage, hcur, hrun, hsend] at hload
        | ok load' =>
          simp only [handleMessage, hcur, hrun, hsend, ↓reduceIte, List.mem_singleton] at hload
          rw [hload]
          exact .inr (mi.runs_of_send hsend hrun)
      · simp [handleMessage, hcur, hrun] at hload
  | checkHadStartedBeforeXloaderservice => exact .inr (loadStarted_runs load hload)

theorem step_runs {e : Event} : ∀ load ∈ (step cacheDir s e).2,
    load = (systemModule cacheDir).load ∨ ∃ what am, e = .deliver what am ∧ Runs am load := by
  intro load hload
  cases e with
  | addModule caller p q m => cases hload
  | removeModule caller p q => cases hload
  | receive action p q =>
    rw [step] at hload
    split at hload
    · cases hload
    · cases hload
  | restart => cases hload
  | deliver what am =>
    rw [step] at hload
    split at hload
    · have hruns := @handleMessage_runs cacheDir { s with queue := s.queue.erase what } am what
      split at hload
      · next heq =>
        rw [heq] at hruns
        exact (hruns load hload).imp_right fun h => ⟨what, am, rfl, h⟩
      · next heq =>
        rw [heq] at hruns
        exact (hruns load hload).imp_right fun h => ⟨what, am, rfl, h⟩
    · cases hload

/-- A load that is sent is the service's own, or it was asked for. -/
theorem requested_of_mem (cacheDir : String) (es : List Event) (e : Event) {load : Load}
    (hload : load ∈ (step cacheDir ((step cacheDir).run initial es) e).2) :
    load = (systemModule cacheDir).load ∨
      ∃ mi : ModuleInfo, load = mi.load ∧ Requested es mi ∧ Loadable mi.modulePath := by
  have hvouched := vouched_run cacheDir es
  generalize (step cacheDir).run initial es = s at hvouched hload
  have hsource : ∃ mi, mi.send = .ok load ∧ Source cacheDir s mi := by
    have he := step_effect cacheDir s e
    generalize (step cacheDir s e).1 = s', (step cacheDir s e).2 = loads at he hload
    cases he with
    | handled _ hloads => exact hloads load hload
    | restart hloads => exact hloads load hload
    | register h => cases hload
    | unregister h => cases hload
    | watch h => cases hload
    | nothing => cases hload
  obtain ⟨mi, hsend, hsource⟩ := hsource
  obtain ⟨hpath, rfl⟩ := mi.send_ok hsend
  cases hsource with
  | pending h _ => exact .inr ⟨mi, rfl, hvouched.pending mi h, hpath⟩
  | listed h => exact .inr ⟨mi, rfl, hvouched.listed mi h, hpath⟩
  | added _ h _ => exact .inr ⟨mi, rfl, hvouched.added mi h, hpath⟩
  | system h =>
    rw [h]
    exact .inl rfl

/-- **No load command without a request.** After every run, a command that the
next event sends is that of the service's own module; or one of the calls of
the run was an `addModule` by a permitted caller with just these three
arguments, the path is accepted, and the process runs by the event's own
account. -/
theorem load_authorised (cacheDir : String) (es : List Event) (e : Event) {load : Load}
    (hload : load ∈ (step cacheDir ((step cacheDir).run initial es) e).2) :
    load = (systemModule cacheDir).load ∨
      (∃ caller, .addModule caller load.packageName load.processName load.modulePath ∈ es ∧
        verifyCallerPerm caller = .ok true) ∧ Loadable load.modulePath ∧
      ∃ what am, e = .deliver what am ∧ Runs am load := by
  rcases step_runs load hload with h | hruns
  · exact .inl h
  rcases requested_of_mem cacheDir es e hload with h | ⟨mi, rfl, hrequested, hpath⟩
  · exact .inl h
  · exact .inr ⟨hrequested, hpath, hruns⟩

/-- The module is added, its process runs, and the command is sent. -/
theorem load_authorised_added :
    let load : Load := ⟨some "app", some "proc", some "/m.jar"⟩
    let es := [Event.addModule systemCaller (some "app") (some "proc") (some "/m.jar")]
    let e := Event.deliver .checkProcessHadStartedBeforeAddmodule (onlyAt 0 "proc")
    load ∈ (step "/cache" ((step "/cache").run initial es) e).2 ∧
      Loadable load.modulePath ∧ Runs (onlyAt 0 "proc") load := by
  intro load es e
  have hload : load ∈ (step "/cache" ((step "/cache").run initial es) e).2 := by
    have hout : (step "/cache" ((step "/cache").run initial es) e).2 = [load] := rfl
    rw [hout]
    exact List.mem_singleton_self load
  refine ⟨hload, ?_⟩
  rcases load_authorised "/cache" es e hload with hown | ⟨-, hpath, what, am, he, hruns⟩
  · exact absurd (congrArg Load.packageName hown) (by decide)
  · obtain ⟨-, rfl⟩ := Event.deliver.inj he
    exact ⟨hpath, hruns⟩

end Service

end Dynamicloader
