import Dynamicloader.Service.Loads
/-!
# After a removal

`removeModule` looks at the registry only. A module can also wait in the
pending list, or in the slot of the module added last, and is then loaded
although it was removed. `Forgotten` says that neither holds the key, and
that it is not the service's own; it decides what can happen afterwards.

The direction to the condition is by construction: a state that fails it is
driven to the load command.
-/

namespace Dynamicloader

namespace Service

variable {cacheDir : String} {s s' : State} {p q m : Option String} {caller : Caller}

/-! ## Silence is kept -/

/-- Nothing outside the registry leads to a load command for the key. -/
structure Forgotten (cacheDir : String) (p q : Option String) (s : State) : Prop where
  pending : ∀ mi ∈ s.pendingModuleList, mi.key = (p, q) → mi.processName ≠ none →
    ¬ Loadable mi.modulePath
  added : What.checkProcessHadStartedBeforeAddmodule ∈ s.queue →
    ∀ mi, s.curAddModule = some mi → mi.key = (p, q) → mi.processName ≠ none →
    ¬ Loadable mi.modulePath
  system : (systemModule cacheDir).key ≠ (p, q)

/-- Nothing of the service leads to a load command for the key. -/
structure Silent (cacheDir : String) (p q : Option String) (s : State) : Prop extends
    Forgotten cacheDir p q s where
  durable : Durable s
  unlisted : ∀ mi ∈ s.moduleList, mi.key ≠ (p, q)

theorem Silent.effect {e : Event} {loads : List Load} (h : Silent cacheDir p q s)
    (hadds : ¬ e.adds p q) (he : Effect cacheDir s e s' loads) : Silent cacheDir p q s' := by
  have hdurable := h.durable.effect he
  cases he with
  | @register caller p' q' m' hreg =>
    have hne : (⟨p', q', m'⟩ : ModuleInfo).key ≠ (p, q) := fun hkey => hadds (Prod.mk.inj hkey)
    refine ⟨⟨h.pending, fun _ mi hcur hkey => ?_, h.system⟩, hdurable, fun mi hmi => ?_⟩
    · obtain rfl := Option.some.inj hcur
      exact absurd hkey hne
    · rcases List.mem_append.mp hmi with hmi | hmi
      · exact h.unlisted mi hmi
      · rw [List.mem_singleton.mp hmi]
        exact hne
  | unregister hreg =>
    exact ⟨⟨h.pending, h.added, h.system⟩, hdurable,
      fun mi hmi => h.unlisted mi (List.mem_of_mem_erase hmi)⟩
  | watch hreg =>
    refine ⟨⟨fun mi hmi hkey => ?_, fun hq => ?_, h.system⟩, hdurable, h.unlisted⟩
    · rcases List.mem_append.mp hmi with hmi | hmi
      · exact h.pending mi hmi hkey
      · rw [List.mem_singleton.mp hmi] at hkey
        exact absurd hkey (h.unlisted _ (registered_eq_some hreg).1)
    · refine h.added ?_
      simpa [State.watch] using hq
  | handled hkeeps _ =>
    refine ⟨⟨fun mi hmi => h.pending mi (hkeeps.pending mi hmi), fun hq => ?_, h.system⟩,
      hdurable, ?_⟩
    · rw [hkeeps.curAddModule]
      exact h.added (hkeeps.added hq)
    · rw [hkeeps.moduleList]
      exact h.unlisted
  | restart _ =>
    refine ⟨⟨by simp [start], by simp [start], h.system⟩, hdurable, ?_⟩
    rw [h.durable.start_moduleList]
    exact h.unlisted
  | nothing => exact h

theorem Silent.loads {e : Event} {loads : List Load} (h : Silent cacheDir p q s)
    (he : Effect cacheDir s e s' loads) : ∀ load ∈ loads, load.isFor p q = false := by
  have hsource : ∀ load, (∃ mi, mi.send = .ok load ∧ Source cacheDir s mi) →
      load.isFor p q = false := by
    rintro load ⟨mi, hsend, hsource⟩
    obtain ⟨hload, rfl⟩ := mi.send_ok hsend
    rw [Bool.eq_false_iff]
    intro hfor
    have hkey := ModuleInfo.isFor_load.mp hfor
    rcases hsource with ⟨hmem, hproc⟩ | hmem | ⟨hq, hcur, hproc⟩ | rfl
    · exact h.pending mi hmem hkey hproc hload
    · exact h.unlisted mi hmem hkey
    · exact h.added hq mi hcur hkey hproc hload
    · exact h.system hkey
  cases he with
  | handled _ hloads => exact fun load hmem => hsource load (hloads load hmem)
  | restart hloads => exact fun load hmem => hsource load (hloads load hmem)
  | _ => simp

/-! ## Removal -/

/-- A removal changes nothing outside the registry. -/
theorem removeModule_forgotten (caller : Caller) :
    Forgotten cacheDir p q (removeModule caller p q s).2 ↔ Forgotten cacheDir p q s := by
  rcases removeModule_cases caller p q s with ⟨mi, -, heq⟩ | ⟨heq, -⟩
  · rw [heq]
    exact ⟨fun h => ⟨h.pending, h.added, h.system⟩, fun h => ⟨h.pending, h.added, h.system⟩⟩
  · rw [heq]

/-- A removal that answers `0` leaves no module of the key registered. -/
theorem removeModule_unlisted (hs : Durable s) (h : (removeModule caller p q s).1 = .ok 0) :
    ∀ mi ∈ (removeModule caller p q s).2.moduleList, mi.key ≠ (p, q) := by
  rcases removeModule_cases caller p q s with ⟨mi, hreg, heq⟩ | ⟨heq, hnone⟩
  · rw [heq]
    intro x hx hkey
    obtain ⟨hmem, hkey'⟩ := registered_eq_some hreg
    have hxmi : x = mi := hs.eq_of_key (List.mem_of_mem_erase hx) hmem (hkey.trans hkey'.symm)
    rw [hxmi] at hx
    exact hs.distinct.of_map.not_mem_erase hx
  · rw [heq]
    exact registered_eq_none.mp (hnone h)

theorem Durable.removeModule (hs : Durable s) (caller : Caller) (p q : Option String) :
    Durable (removeModule caller p q s).2 :=
  hs.effect (step_effect "" s (.removeModule caller p q))

/-- **A removed module is not loaded again**, exactly when nothing outside the
registry holds it. -/
theorem removeModule_silences_iff (hs : Reachable cacheDir s)
    (h : (removeModule caller p q s).1 = .ok 0) :
    (∀ es, (∀ e ∈ es, ¬ e.adds p q) →
      ∀ load ∈ (step cacheDir).outputs (removeModule caller p q s).2 es, load.isFor p q = false) ↔
    Forgotten cacheDir p q s := by
  have hdurable := durable_of_reachable hs
  have hdurable' := hdurable.removeModule caller p q
  have hunlisted := removeModule_unlisted hdurable h
  rw [← removeModule_forgotten caller]
  generalize (removeModule caller p q s).2 = s' at hdurable' hunlisted ⊢
  constructor
  · intro hsilent
    have hnot (es : List Event) (hes : ∀ e ∈ es, ¬ e.adds p q) (mi : ModuleInfo)
        (hkey : mi.key = (p, q)) : mi.load ∉ (step cacheDir).outputs s' es := by
      intro hmem
      have hfor := hsilent es hes mi.load hmem
      rw [ModuleInfo.isFor_load.mpr hkey] at hfor
      simp at hfor
    refine ⟨fun mi hmem hkey hproc hload => ?_, fun hq mi hcur hkey hproc hload => ?_,
      fun hkey => ?_⟩
    · -- register another module, so that a broadcast starts the watch
      obtain ⟨x, hx⟩ := Option.ne_none_iff_exists'.mp hproc
      obtain ⟨a, ha⟩ := exists_other p
      obtain ⟨mi', hreg⟩ := registered_addModule a a (some "/a.jar") s'
      rw [← addModule_pending systemCaller (some a) (some a) (some "/a.jar") s'] at hmem
      obtain ⟨am, hout⟩ : ∃ am, (step cacheDir).outputs _ (watchRun a a am) = [mi.load] :=
        outputs_pending hreg hmem hx hload
      refine hnot (.addModule systemCaller (some a) (some a) (some "/a.jar") :: watchRun a a am) ?_ mi
        hkey ?_
      · simp [Event.adds, watchRun, ha]
      · refine List.mem_append_right _ ?_
        rw [step, hout]
        exact List.mem_singleton_self _
    · obtain ⟨x, hx⟩ := Option.ne_none_iff_exists'.mp hproc
      refine hnot [.deliver .checkProcessHadStartedBeforeAddmodule (onlyAt 0 x)] ?_ mi hkey ?_
      · simp [Event.adds]
      · rw [outputs_added hq hcur hx hload]
        exact List.mem_singleton_self _
    · refine hnot [.restart, .deliver .xloaderSystemServerStartprocess (onlyAt 0 "")] ?_ _ hkey ?_
      · simp [Event.adds]
      · rw [outputs_system]
        exact List.mem_singleton_self _
  · intro hforgotten es hes
    have hsilent : Silent cacheDir p q s' := ⟨hforgotten, hdurable', hunlisted⟩
    exact Machine.outputs_invariant
      (fun s e he hs => hs.effect he (step_effect cacheDir s e))
      (fun s e _ hs => hs.loads (step_effect cacheDir s e)) hes hsilent

/-- A module whose start was watched for when it was removed: it is loaded
by the check that was already scheduled. -/
theorem removeModule_not_silent :
    let s := (step "/cache").run initial
      [.addModule systemCaller (some "a") (some "b") (some "/c.jar"),
        .receive (some actionAmsStartProcess) (some "a") (some "b")]
    (removeModule systemCaller (some "a") (some "b") s).1 = .ok 0 ∧
      (step "/cache").outputs (removeModule systemCaller (some "a") (some "b") s).2
        [.deliver .checkProcessWhetherExist (onlyAt 0 "b")] =
          [⟨some "a", some "b", some "/c.jar"⟩] :=
  ⟨rfl, rfl⟩

/-- A module that was added, checked and never watched for stays unloaded. -/
theorem removeModule_silences_checked :
    let s := (step "/cache").run initial
      [.addModule systemCaller (some "a") (some "b") (some "/c.jar"),
        .deliver .checkProcessHadStartedBeforeAddmodule (onlyAt 0 "b")]
    (removeModule systemCaller (some "a") (some "b") s).1 = .ok 0 ∧
      ∀ es, (∀ e ∈ es, ¬ e.adds (some "a") (some "b")) →
        ∀ load ∈ (step "/cache").outputs (removeModule systemCaller (some "a") (some "b") s).2 es,
          load.isFor (some "a") (some "b") = false := by
  intro s
  have h0 : (removeModule systemCaller (some "a") (some "b") s).1 = .ok 0 := rfl
  refine ⟨h0, (removeModule_silences_iff ⟨_, rfl⟩ h0).mpr ⟨?_, ?_, ?_⟩⟩
  · intro mi hmem
    exact absurd hmem List.not_mem_nil
  · intro hq
    exact absurd hq (by decide)
  · decide

end Service

end Dynamicloader
