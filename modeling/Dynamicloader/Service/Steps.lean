import Dynamicloader.Service.Registry
/-!
# What an event can do

`Effect` lists the ways an event changes the service and what it emits, and
`step_effect` says that there are no others. The handler is described by
what it keeps and by where its load commands come from.

The first invariant is the registry's: its keys are distinct, and a restart
reads back exactly what was in memory.
-/

namespace Dynamicloader

namespace Service

variable {cacheDir : String} {s s' : State} {p q m : Option String}

/-! ## Load commands -/

/-- `mi` as a load command. -/
def ModuleInfo.load (mi : ModuleInfo) : Load := ⟨mi.pkgName, mi.processName, mi.modulePath⟩

theorem ModuleInfo.load_inj {mi mi' : ModuleInfo} (h : mi.load = mi'.load) : mi = mi' := by
  cases mi
  cases mi'
  simpa [ModuleInfo.load] using h

/-- A path `preloadDex` accepts. -/
def Loadable (modulePath : Option String) : Prop := ∃ path, modulePath = some path ∧ path ≠ ""

theorem preloadDex_ok : preloadDex m = .ok () ↔ Loadable m := by
  rcases m with _ | path
  · simp [preloadDex, getDexPath, Loadable, bind, Except.bind]
  · have hnil : path.toList = [] ↔ path = "" := by
      rw [← String.toList_inj]
      rfl
    rcases hlist : path.toList with _ | ⟨c, cs⟩
    · simp [preloadDex, getDexPath, Loadable, bind, Except.bind, hnil.mp hlist]
    · have hne : path ≠ "" := fun h => by simp [h] at hlist
      simp [preloadDex, getDexPath, Loadable, bind, Except.bind, hlist, hne, pure, Except.pure]

/-- A module is sent as it stands, if its path is accepted. -/
theorem ModuleInfo.send_ok {mi : ModuleInfo} {load : Load} (h : mi.send = .ok load) :
    Loadable mi.modulePath ∧ load = mi.load := by
  rw [ModuleInfo.send, sendCmdToXlodaerProcess] at h
  rcases hm : preloadDex mi.modulePath with e | ⟨⟩
  · simp [hm, bind, Except.bind] at h
  · rw [hm] at h
    exact ⟨preloadDex_ok.mp hm, (Except.ok.inj h).symm⟩

theorem ModuleInfo.send_of_loadable {mi : ModuleInfo} (h : Loadable mi.modulePath) :
    mi.send = .ok mi.load := by
  rw [ModuleInfo.send, sendCmdToXlodaerProcess, preloadDex_ok.mpr h]
  rfl

/-! ## The loops of the handler -/

variable {am : ℕ → ActivityManager} {k : ℕ} {l : List ModuleInfo}

theorem checkPending_loads : ∀ load ∈ (checkPending am k l).2,
    ∃ mi ∈ l, mi.send = .ok load ∧ mi.processName ≠ none := by
  induction l generalizing k with
  | nil => simp [checkPending]
  | cons mi l ih =>
    intro load hload
    rw [checkPending] at hload
    split at hload
    · rename_i hrun
      rcases hsend : mi.send with e | load'
      · simp [hsend] at hload
      · simp only [hsend, List.mem_cons] at hload
        rcases hload with rfl | hload
        · refine ⟨mi, List.mem_cons_self, hsend, fun hnone => ?_⟩
          simp [queryAllRunningAppInfo, hnone] at hrun
        · obtain ⟨mi', hmem, h⟩ := ih load hload
          exact ⟨mi', List.mem_cons_of_mem _ hmem, h⟩
    · obtain ⟨mi', hmem, h⟩ := ih load hload
      exact ⟨mi', List.mem_cons_of_mem _ hmem, h⟩

theorem checkPending_stay {rest : List ModuleInfo} (h : (checkPending am k l).1 = .ok rest) :
    ∀ mi ∈ rest, mi ∈ l := by
  induction l generalizing k rest with
  | nil =>
    obtain rfl := Except.ok.inj h
    simp
  | cons mi l ih =>
    rw [checkPending] at h
    split at h
    · rcases hsend : mi.send with e | load
      · simp [hsend] at h
      · simp only [hsend] at h
        exact fun mi' hmem => List.mem_cons_of_mem _ (ih h mi' hmem)
    · rcases hrest : (checkPending am (k + 1) l).1 with e | rest'
      · simp [hrest, Except.map] at h
      · simp only [hrest, Except.map, Except.ok.injEq] at h
        subst h
        intro mi' hmem
        rcases List.mem_cons.mp hmem with rfl | hmem
        · exact List.mem_cons_self
        · exact List.mem_cons_of_mem _ (ih hrest mi' hmem)

theorem loadStarted_loads : ∀ load ∈ (loadStarted am k l).2,
    ∃ mi ∈ l, mi.send = .ok load := by
  induction l generalizing k with
  | nil => simp [loadStarted]
  | cons mi l ih =>
    intro load hload
    rw [loadStarted] at hload
    split at hload
    · rcases hsend : mi.send with e | load'
      · simp [hsend] at hload
      · simp only [hsend, List.mem_cons] at hload
        rcases hload with rfl | hload
        · exact ⟨mi, List.mem_cons_self, hsend⟩
        · obtain ⟨mi', hmem, h⟩ := ih load hload
          exact ⟨mi', List.mem_cons_of_mem _ hmem, h⟩
    · obtain ⟨mi', hmem, h⟩ := ih load hload
      exact ⟨mi', List.mem_cons_of_mem _ hmem, h⟩

/-! ## The handler and the receiver -/

/-- What the handler leaves as it was, when it returns. -/
structure Keeps (s s' : State) : Prop where
  moduleList : s'.moduleList = s.moduleList
  curAddModule : s'.curAddModule = s.curAddModule
  prefs : s'.prefs = s.prefs
  pending : ∀ mi ∈ s'.pendingModuleList, mi ∈ s.pendingModuleList
  added : What.checkProcessHadStartedBeforeAddmodule ∈ s'.queue →
    What.checkProcessHadStartedBeforeAddmodule ∈ s.queue

theorem Keeps.refl (s : State) : Keeps s s := ⟨rfl, rfl, rfl, fun _ => id, id⟩

/-- A message that is not the watcher's leaves the state, or has the next message
queued. -/
theorem handleMessage_other {what : What} (hwhat : what ≠ .checkProcessWhetherExist)
    (h : (handleMessage cacheDir what am s).1 = .ok s') :
    s' = s ∨ s' = { s with queue := s.queue ++ [.checkHadStartedBeforeXloaderservice] } := by
  cases what with
  | checkProcessWhetherExist => exact absurd rfl hwhat
  | xloaderSystemServerStartprocess =>
    rcases hsend : (systemModule cacheDir).send with e | load
    · simp [handleMessage, hsend] at h
    · simp only [handleMessage, hsend, Except.ok.injEq] at h
      exact .inr h.symm
  | checkProcessHadStartedBeforeAddmodule =>
    left
    unfold handleMessage at h
    dsimp only at h
    split at h
    · simp at h
    · split at h
      · split at h
        · simp at h
        · exact (Except.ok.inj h).symm
      · exact (Except.ok.inj h).symm
  | checkHadStartedBeforeXloaderservice =>
    rcases hr : (loadStarted am 0 s.moduleList).1 with e | ⟨⟩
    · simp [handleMessage, hr, Except.map] at h
    · simp only [handleMessage, hr, Except.map, Except.ok.injEq] at h
      exact .inl h.symm

theorem handleMessage_keeps {what : What}
    (h : (handleMessage cacheDir what am s).1 = .ok s') : Keeps s s' := by
  by_cases hwhat : what = .checkProcessWhetherExist
  · subst hwhat
    rcases hr : (checkPending am 0 s.pendingModuleList).1 with e | rest
    · simp [handleMessage, hr, Except.map] at h
    · simp only [handleMessage, hr, Except.map, Except.ok.injEq] at h
      subst h
      have hstay := checkPending_stay hr
      split
      · exact ⟨rfl, rfl, rfl, hstay, fun hq => by simpa using hq⟩
      · exact ⟨rfl, rfl, rfl, hstay, id⟩
  · rcases handleMessage_other hwhat h with rfl | rfl
    · exact .refl s'
    · exact ⟨rfl, rfl, rfl, fun _ => id, fun hq => by simpa using hq⟩

/-- **Where a load command comes from**: a pending module, a registered one,
the one added last while its check is outstanding, or the service's own. -/
inductive Source (cacheDir : String) (s : State) (mi : ModuleInfo) : Prop
  | pending (h : mi ∈ s.pendingModuleList) (hproc : mi.processName ≠ none)
  | listed (h : mi ∈ s.moduleList)
  | added (hq : What.checkProcessHadStartedBeforeAddmodule ∈ s.queue)
      (h : s.curAddModule = some mi) (hproc : mi.processName ≠ none)
  | system (h : mi = systemModule cacheDir)

theorem handleMessage_loads {what : What} (hq : what ∈ s.queue) :
    ∀ load ∈ (handleMessage cacheDir what am { s with queue := s.queue.erase what }).2,
      ∃ mi, mi.send = .ok load ∧ Source cacheDir s mi := by
  intro load hload
  cases what with
  | checkProcessWhetherExist =>
    obtain ⟨mi, hmem, hsend, hproc⟩ := checkPending_loads load hload
    exact ⟨mi, hsend, .pending hmem hproc⟩
  | xloaderSystemServerStartprocess =>
    rcases hsend : (systemModule cacheDir).send with e | load'
    · simp [handleMessage, hsend] at hload
    · simp only [handleMessage, hsend, List.mem_singleton] at hload
      subst hload
      exact ⟨_, hsend, .system rfl⟩
  | checkProcessHadStartedBeforeAddmodule =>
    rcases hcur : s.curAddModule with _ | mi
    · simp [handleMessage, hcur] at hload
    · by_cases hrun : queryAllRunningAppInfo mi.processName (am 0)
      · rcases hsend : mi.send with e | load'
        · simp [handleMessage, hcur, hrun, hsend] at hload
        · simp only [handleMessage, hcur, hrun, hsend, ↓reduceIte, List.mem_singleton] at hload
          subst hload
          refine ⟨mi, hsend, .added hq hcur fun hnone => ?_⟩
          simp [queryAllRunningAppInfo, hnone] at hrun
      · simp [handleMessage, hcur, hrun] at hload
  | checkHadStartedBeforeXloaderservice =>
    obtain ⟨mi, hmem, hsend⟩ := loadStarted_loads load hload
    exact ⟨mi, hsend, .listed hmem⟩

/-- `mi` is put among the pending modules. -/
def State.watch (s : State) (mi : ModuleInfo) : State :=
  { s with
    pendingModuleList := s.pendingModuleList ++ [mi]
    checkNums := 0
    queue := s.queue ++ [.checkProcessWhetherExist] }

theorem onReceive_ok {action : Option String} (h : onReceive action p q s = .ok s') :
    s' = s ∨ ∃ mi, action = some actionAmsStartProcess ∧
      registered p q s.moduleList = some mi ∧ s' = s.watch mi := by
  rw [onReceive] at h
  rcases ha : equals action (some actionAmsStartProcess) with e | _ | _
  · simp [ha, bind, Except.bind] at h
  · left
    rw [ha] at h
    exact (Except.ok.inj h).symm
  · rcases hfirst : firstMatch (isKey p q) s.moduleList with e | _ | mi
    · simp [ha, hfirst, bind, Except.bind] at h
    · left
      rw [ha, hfirst] at h
      exact (Except.ok.inj h).symm
    · right
      have haction : action = some actionAmsStartProcess := by
        cases action with
        | none => simp [equals] at ha
        | some x =>
          simp only [equals, Except.ok.injEq, decide_eq_true_eq] at ha
          exact ha.symm
      rw [ha, hfirst] at h
      exact ⟨mi, haction, (firstMatch_isKey hfirst).symm, (Except.ok.inj h).symm⟩

/-! ## One event -/

/-- **What an event can do**, and what it emits. -/
inductive Effect (cacheDir : String) (s : State) : Event → State → List Load → Prop
  | register {caller : Caller} {p q m : Option String} (h : Registers caller p q s) :
      Effect cacheDir s (.addModule caller p q m) (s.register ⟨p, q, m⟩) []
  | unregister {caller : Caller} {p q : Option String} {mi : ModuleInfo}
      (h : registered p q s.moduleList = some mi) :
      Effect cacheDir s (.removeModule caller p q) (s.unregister mi) []
  | watch {action p q : Option String} {mi : ModuleInfo}
      (h : registered p q s.moduleList = some mi) :
      Effect cacheDir s (.receive action p q) (s.watch mi) []
  | handled {what : What} {am : ℕ → ActivityManager} {s' : State} {loads : List Load}
      (h : Keeps s s') (hloads : ∀ load ∈ loads, ∃ mi, mi.send = .ok load ∧ Source cacheDir s mi) :
      Effect cacheDir s (.deliver what am) s' loads
  /-- The process ends and is started again. -/
  | restart {e : Event} {loads : List Load}
      (hloads : ∀ load ∈ loads, ∃ mi, mi.send = .ok load ∧ Source cacheDir s mi) :
      Effect cacheDir s e (start s.prefs) loads
  | nothing {e : Event} : Effect cacheDir s e s []

theorem step_effect (cacheDir : String) (s : State) (e : Event) :
    Effect cacheDir s e (step cacheDir s e).1 (step cacheDir s e).2 := by
  cases e with
  | addModule caller p q m =>
    rcases addModule_cases caller p q m s with ⟨hreg, heq⟩ | ⟨-, heq⟩
    · rw [step, heq]
      exact .register hreg
    · rw [step, heq]
      exact .nothing
  | removeModule caller p q =>
    rcases removeModule_cases caller p q s with ⟨mi, hreg, heq⟩ | ⟨heq, -⟩
    · rw [step, heq]
      exact .unregister hreg
    · rw [step, heq]
      exact .nothing
  | receive action p q =>
    rw [step]
    rcases hr : onReceive action p q s with e | s'
    · exact .restart (by simp)
    · rcases onReceive_ok hr with rfl | ⟨mi, -, hreg, rfl⟩
      · exact .nothing
      · exact .watch hreg
  | deliver what am =>
    rw [step]
    split
    · rename_i hq
      rcases hr : handleMessage cacheDir what am { s with queue := s.queue.erase what } with ⟨r, loads⟩
      have hloads : ∀ load ∈ loads, ∃ mi, mi.send = .ok load ∧ Source cacheDir s mi := by
        have := @handleMessage_loads cacheDir s am what hq
        rwa [hr] at this
      rcases r with e | s'
      · exact .restart hloads
      · have hkeeps : Keeps { s with queue := s.queue.erase what } s' :=
          handleMessage_keeps (by rw [hr])
        exact .handled ⟨hkeeps.moduleList, hkeeps.curAddModule, hkeeps.prefs, hkeeps.pending,
          fun h => List.mem_of_mem_erase (hkeeps.added h)⟩ hloads
    · exact .nothing
  | restart =>
    rw [step]
    exact .restart (by simp)

/-! ## The registry over all runs -/

/-- The keys of the registry are distinct, and the store holds it. -/
structure Durable (s : State) : Prop where
  distinct : (s.moduleList.map ModuleInfo.key).Nodup
  stored : readSharedPreferences s.prefs = .ok s.moduleList

/-- A restart finds the registry as it was. -/
theorem Durable.start_moduleList (h : Durable s) : (start s.prefs).moduleList = s.moduleList := by
  simp only [start, h.stored]

theorem durable_initial : Durable initial := ⟨List.nodup_nil, rfl⟩

/-- **Every event keeps the registry durable.** -/
theorem Durable.effect {e : Event} {loads : List Load} (h : Durable s)
    (he : Effect cacheDir s e s' loads) : Durable s' := by
  cases he with
  | @register caller p q m hreg =>
    refine ⟨?_, read_write _ _⟩
    have hnew := registered_eq_none.mp (firstMatch_isKey hreg.2).symm
    rw [State.register, List.map_append, List.nodup_append]
    refine ⟨h.distinct, by simp, fun a ha b hb => ?_⟩
    obtain ⟨mi, hmem, rfl⟩ := List.mem_map.mp ha
    rw [List.map_singleton, List.mem_singleton] at hb
    rw [hb]
    exact hnew mi hmem
  | unregister hreg =>
    exact ⟨h.distinct.sublist (List.erase_sublist.map _), read_write _ _⟩
  | watch hreg => exact ⟨h.distinct, h.stored⟩
  | handled hkeeps _ =>
    refine ⟨?_, ?_⟩
    · rw [hkeeps.moduleList]
      exact h.distinct
    · rw [hkeeps.prefs, hkeeps.moduleList]
      exact h.stored
  | restart _ =>
    refine ⟨?_, ?_⟩
    · rw [h.start_moduleList]
      exact h.distinct
    · rw [h.start_moduleList]
      exact h.stored
  | nothing => exact h

theorem Durable.step (h : Durable s) (e : Event) : Durable (step cacheDir s e).1 :=
  h.effect (step_effect cacheDir s e)

theorem durable_of_reachable (h : Reachable cacheDir s) : Durable s := by
  obtain ⟨es, rfl⟩ := h
  have hstep : ∀ s e, True → Durable s → Durable (step cacheDir s e).1 := fun _ e _ hs => hs.step e
  exact Machine.run_invariant hstep (fun _ _ => trivial) durable_initial

/-- **The registry is durable and its keys are distinct**, whatever calls,
events and restarts led to it. -/
theorem registry_durable (cacheDir : String) (es : List Event) :
    let s := (step cacheDir).run initial es
    (s.moduleList.map ModuleInfo.key).Nodup ∧
      readSharedPreferences s.prefs = .ok s.moduleList :=
  have h := durable_of_reachable ⟨es, rfl⟩
  ⟨h.distinct, h.stored⟩

end Service

end Dynamicloader
