import Dynamicloader.Service.Loads
/-!
# After a registration

`addModule` for a key that is already registered changes nothing, although
it answers `0`. `Updates` says when the answer is true all the same: the
names are there, whatever is registered or pending for the key has the new
path, and the key is not the service's own. It decides whether the module
is reported from then on, and whether the next load command carries its
path.
-/

namespace Dynamicloader

namespace Service

variable {cacheDir : String} {s s' : State} {p q m : Option String} {caller : Caller}

/-! ## What was registered stays -/

/-- Everything the service holds for the key carries the path `m`. -/
structure Settled (cacheDir : String) (p q m : Option String) (s : State) : Prop where
  durable : Durable s
  listed : ⟨p, q, m⟩ ∈ s.moduleList
  pending : ∀ mi ∈ s.pendingModuleList, mi.key = (p, q) → Loadable mi.modulePath →
    mi.modulePath = m
  added : ∀ mi, s.curAddModule = some mi → mi.key = (p, q) → mi.modulePath = m
  system : (systemModule cacheDir).key = (p, q) → (systemModule cacheDir).modulePath = m

theorem Settled.path_eq (h : Settled cacheDir p q m s) {mi : ModuleInfo}
    (hmem : mi ∈ s.moduleList) (hkey : mi.key = (p, q)) : mi.modulePath = m := by
  rw [h.durable.eq_of_key hmem h.listed hkey]

theorem Settled.effect {e : Event} {loads : List Load} (h : Settled cacheDir p q m s)
    (hchanges : ¬ e.changes p q) (he : Effect cacheDir s e s' loads) :
    Settled cacheDir p q m s' := by
  have hdurable := h.durable.effect he
  cases he with
  | @register caller p' q' m' hreg =>
    refine ⟨hdurable, List.mem_append_left _ h.listed, h.pending, fun mi hcur hkey => ?_, h.system⟩
    obtain rfl := Option.some.inj hcur
    exact absurd (Prod.mk.inj hkey) hchanges
  | @unregister caller p' q' mi hreg =>
    refine ⟨hdurable, ?_, h.pending, h.added, h.system⟩
    have hne : (⟨p, q, m⟩ : ModuleInfo) ≠ mi := by
      intro heq
      have hkey := (registered_eq_some hreg).2
      rw [← heq] at hkey
      exact hchanges (Prod.mk.inj hkey.symm)
    exact (List.mem_erase_of_ne hne).mpr h.listed
  | watch hreg =>
    refine ⟨hdurable, h.listed, fun mi hmi hkey hload => ?_, h.added, h.system⟩
    rcases List.mem_append.mp hmi with hmi | hmi
    · exact h.pending mi hmi hkey hload
    · rw [List.mem_singleton.mp hmi] at hkey ⊢
      exact h.path_eq (registered_eq_some hreg).1 hkey
  | handled hkeeps _ =>
    refine ⟨hdurable, ?_, fun mi hmi => h.pending mi (hkeeps.pending mi hmi), ?_, h.system⟩
    · rw [hkeeps.moduleList]
      exact h.listed
    · rw [hkeeps.curAddModule]
      exact h.added
  | restart _ =>
    refine ⟨hdurable, ?_, by simp [start], by simp [start], h.system⟩
    rw [h.durable.start_moduleList]
    exact h.listed
  | nothing => exact h

theorem Settled.loads {e : Event} {loads : List Load} (h : Settled cacheDir p q m s)
    (he : Effect cacheDir s e s' loads) :
    ∀ load ∈ loads, load.isFor p q = true → load.modulePath = m := by
  have hsource : ∀ load, (∃ mi, mi.send = .ok load ∧ Source cacheDir s mi) →
      load.isFor p q = true → load.modulePath = m := by
    rintro load ⟨mi, hsend, hsource⟩ hfor
    obtain ⟨hload, rfl⟩ := mi.send_ok hsend
    have hkey := ModuleInfo.isFor_load.mp hfor
    rcases hsource with ⟨hmem, -⟩ | hmem | ⟨-, hcur, -⟩ | rfl
    · exact h.pending mi hmem hkey hload
    · exact h.path_eq hmem hkey
    · exact h.added mi hcur hkey
    · exact h.system hkey
  cases he with
  | handled _ hloads => exact fun load hmem => hsource load (hloads load hmem)
  | restart hloads => exact fun load hmem => hsource load (hloads load hmem)
  | _ => simp

/-! ## Registration -/

/-- The module added last is the registered one of its key. -/
def LastAdded (s : State) : Prop :=
  ∀ mi, s.curAddModule = some mi → ∀ x ∈ s.moduleList, x.key = mi.key → x = mi

theorem LastAdded.effect {e : Event} {loads : List Load} (hd : Durable s) (h : LastAdded s)
    (he : Effect cacheDir s e s' loads) : LastAdded s' := by
  have hdurable := hd.effect he
  cases he with
  | register hreg =>
    intro mi hcur x hx hkey
    obtain rfl := Option.some.inj hcur
    exact hdurable.eq_of_key hx (by simp [State.register]) hkey
  | unregister hreg => exact fun mi hcur x hx => h mi hcur x (List.mem_of_mem_erase hx)
  | watch hreg => exact h
  | handled hkeeps _ =>
    rw [LastAdded, hkeeps.curAddModule, hkeeps.moduleList]
    exact h
  | restart _ => simp [LastAdded, start]
  | nothing => exact h

theorem lastAdded_of_reachable (hs : Reachable cacheDir s) : LastAdded s := by
  obtain ⟨es, rfl⟩ := hs
  have hstep : ∀ s e, True → Durable s ∧ LastAdded s →
      Durable (step cacheDir s e).1 ∧ LastAdded (step cacheDir s e).1 := fun s e _ h =>
    ⟨h.1.step e, h.2.effect h.1 (step_effect cacheDir s e)⟩
  exact (Machine.run_invariant hstep (fun _ _ => trivial)
    ⟨durable_initial, by simp [LastAdded, initial, start]⟩).2

/-- A permitted `addModule` that answers `0` had a path to load, and either
registered the module or found one of its key. -/
theorem addModule_zero (h : (addModule caller p q m s).1 = .ok 0) :
    Loadable m ∧
      (registered p q s.moduleList = none ∧
          (addModule caller p q m s).2 = s.register ⟨p, q, m⟩ ∨
        (∃ mi, registered p q s.moduleList = some mi) ∧ (addModule caller p q m s).2 = s) := by
  have hpath {r : Except Throwable ℤ} (hr : r = (preloadDex m).map fun _ => 0) (h0 : r = .ok 0) :
      Loadable m := by
    rcases hm : preloadDex m with e | ⟨⟩
    · rw [hr, hm] at h0
      simp [Except.map] at h0
    · exact preloadDex_ok.mp hm
  unfold addModule at h ⊢
  rcases hperm : verifyCallerPerm caller with e | _ | _
  · simp [hperm] at h
  · simp [hperm] at h
  · rw [hperm] at h
    rcases hfirst : firstMatch (isKey p q) s.moduleList with e | _ | mi
    · simp [hfirst] at h
    · rw [hfirst] at h
      exact ⟨hpath rfl h, Or.inl ⟨(firstMatch_isKey hfirst).symm, rfl⟩⟩
    · rw [hfirst] at h
      exact ⟨hpath rfl h, Or.inr ⟨⟨mi, (firstMatch_isKey hfirst).symm⟩, rfl⟩⟩

/-- What the service holds for the key before the call agrees with the path
that is added. -/
structure Updates (cacheDir : String) (p q m : Option String) (s : State) : Prop where
  pkgName : p ≠ none
  processName : q ≠ none
  listed : ∀ mi ∈ s.moduleList, mi.key = (p, q) → mi.modulePath = m
  pending : ∀ mi ∈ s.pendingModuleList, mi.key = (p, q) → Loadable mi.modulePath →
    mi.modulePath = m
  system : (systemModule cacheDir).key = (p, q) → (systemModule cacheDir).modulePath = m

theorem Updates.settled (hs : Reachable cacheDir s) (hu : Updates cacheDir p q m s)
    (h : (addModule caller p q m s).1 = .ok 0) :
    Settled cacheDir p q m (addModule caller p q m s).2 := by
  have hdurable := durable_of_reachable hs
  have hdurable' : Durable (addModule caller p q m s).2 :=
    hdurable.effect (step_effect cacheDir s (.addModule caller p q m))
  rcases (addModule_zero h).2 with ⟨-, heq⟩ | ⟨⟨mi, hreg⟩, heq⟩
  · rw [heq] at hdurable' ⊢
    refine ⟨hdurable', by simp [State.register], hu.pending, fun mi hcur _ => ?_, hu.system⟩
    obtain rfl := Option.some.inj hcur
    rfl
  · rw [heq]
    obtain ⟨hmem, hkey⟩ := registered_eq_some hreg
    have hmi : mi = ⟨p, q, m⟩ := by
      obtain ⟨rfl, rfl⟩ := Prod.mk.inj hkey
      rw [← hu.listed mi hmem rfl]
    rw [hmi] at hmem
    refine ⟨hdurable, hmem, hu.pending, fun x hcur hkey' => ?_, hu.system⟩
    rw [← lastAdded_of_reachable hs x hcur _ hmem hkey'.symm]

/-- **Registration is last-writer-wins** exactly when what the service already
holds for the key agrees with the new path. -/
theorem addModule_wins_iff (hs : Reachable cacheDir s)
    (h : (addModule caller p q m s).1 = .ok 0) :
    (∀ es, (∀ e ∈ es, ¬ e.changes p q) →
      checkModuleExist p q m ((step cacheDir).run (addModule caller p q m s).2 es) = .ok 1 ∧
      ∀ load, ((step cacheDir).outputs (addModule caller p q m s).2 es).find? (·.isFor p q) =
        some load → load.modulePath = m) ↔
    Updates cacheDir p q m s := by
  constructor
  · intro hwins
    obtain ⟨hp, hq, hmem⟩ := checkModuleExist_mem (hwins [] (by simp)).1
    obtain ⟨a, rfl⟩ := Option.ne_none_iff_exists'.mp hp
    obtain ⟨b, rfl⟩ := Option.ne_none_iff_exists'.mp hq
    -- the first load command of a run that emits just one
    have honly (es : List Event) (hes : ∀ e ∈ es, ¬ e.changes (some a) (some b)) (mi : ModuleInfo)
        (hkey : mi.key = (some a, some b))
        (hout : (step cacheDir).outputs (addModule caller (some a) (some b) m s).2 es =
          [mi.load]) : mi.modulePath = m := by
      refine (hwins es hes).2 mi.load ?_
      rw [hout, List.find?_cons_of_pos (ModuleInfo.isFor_load.mpr hkey)]
    refine ⟨hp, hq, fun mi hmi hkey => ?_, fun mi hmi hkey hload => ?_, fun hkey => ?_⟩
    · rcases (addModule_zero h).2 with ⟨hnone, -⟩ | ⟨-, heq⟩
      · exact absurd hkey (registered_eq_none.mp hnone mi hmi)
      · rw [Machine.run_nil, heq] at hmem
        rw [(durable_of_reachable hs).eq_of_key hmi hmem hkey]
    · obtain ⟨mi', hreg⟩ := registered_of_mem hmem rfl
      rw [← addModule_pending caller (some a) (some b) m s] at hmi
      have hproc : mi.processName = some b := (Prod.mk.inj hkey).2
      obtain ⟨am, hout⟩ : ∃ am, (step cacheDir).outputs _ (watchRun a b am) = [mi.load] :=
        outputs_pending hreg hmi hproc hload
      refine honly (watchRun a b am) ?_ mi hkey hout
      simp [watchRun, Event.changes]
    · refine honly [.restart, .deliver .xloaderSystemServerStartprocess (onlyAt 0 "")] ?_ _ hkey ?_
      · simp [Event.changes]
      · exact outputs_system _ _
  · intro hupdates es hes
    have hsettled := hupdates.settled hs h
    obtain ⟨a, rfl⟩ := Option.ne_none_iff_exists'.mp hupdates.pkgName
    obtain ⟨b, rfl⟩ := Option.ne_none_iff_exists'.mp hupdates.processName
    obtain ⟨path, rfl, -⟩ := (addModule_zero h).1
    have hstep : ∀ s e, ¬ e.changes (some a) (some b) →
        Settled cacheDir (some a) (some b) (some path) s →
        Settled cacheDir (some a) (some b) (some path) (step cacheDir s e).1 := fun s e he hs =>
      hs.effect he (step_effect cacheDir s e)
    refine ⟨checkModuleExist_of_mem (Machine.run_invariant hstep hes hsettled).listed,
      fun load hfind => ?_⟩
    exact Machine.outputs_invariant hstep (fun s e _ hs => hs.loads (step_effect cacheDir s e)) hes
      hsettled load (List.mem_of_find?_eq_some hfind) (List.find?_some hfind)

/-- A second registration with another path answers `0` and is not made. -/
theorem addModule_not_updated :
    let s := (step "/cache").run initial
      [.addModule systemCaller (some "a") (some "b") (some "/c.jar")]
    (addModule systemCaller (some "a") (some "b") (some "/d.jar") s).1 = .ok 0 ∧
      checkModuleExist (some "a") (some "b") (some "/d.jar")
        (addModule systemCaller (some "a") (some "b") (some "/d.jar") s).2 = .ok 0 :=
  ⟨rfl, rfl⟩

/-- The first registration of a key wins. -/
theorem addModule_wins_initial :
    (addModule systemCaller (some "a") (some "b") (some "/c.jar") initial).1 = .ok 0 ∧
      ∀ es, (∀ e ∈ es, ¬ e.changes (some "a") (some "b")) →
        checkModuleExist (some "a") (some "b") (some "/c.jar") ((step "/cache").run
          (addModule systemCaller (some "a") (some "b") (some "/c.jar") initial).2 es) = .ok 1 ∧
        ∀ load, ((step "/cache").outputs
          (addModule systemCaller (some "a") (some "b") (some "/c.jar") initial).2 es).find?
            (·.isFor (some "a") (some "b")) = some load → load.modulePath = some "/c.jar" := by
  have h0 : (addModule systemCaller (some "a") (some "b") (some "/c.jar") initial).1 = .ok 0 := rfl
  refine ⟨h0, (addModule_wins_iff ⟨[], rfl⟩ h0).mpr ⟨by simp, by simp, ?_, ?_, ?_⟩⟩
  · intro mi hmem
    exact absurd hmem List.not_mem_nil
  · intro mi hmem
    exact absurd hmem List.not_mem_nil
  · intro hkey
    exact absurd hkey (by decide)

end Service

end Dynamicloader
