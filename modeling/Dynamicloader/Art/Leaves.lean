import Dynamicloader.Art.Method
/-!
# What the runtime does beside hooks and calls

All of it is done to methods that are not hooked, and changes only their entry
points: `Leaves`. That this is so rests on an invariant of the runtime, `Kept`.
It holds whether or not other threads come between the two halves of a hook; a
method of which only the first half is done is not hooked yet.
-/

namespace Dynamicloader

namespace Art

variable {n k : ℕ} {Info : Type}

/-- Whoever calls the method comes to the handler. -/
structure Intercepted (m : ArtMethod k Info) : Prop where
  quickCode : m.entryPointFromQuickCompiledCode = some .proxyInvokeHandler
  interpreter : m.entryPointFromInterpreter = .toCompiledCode

/-- The invariant of a runtime: declared methods are plain or intercepted, all
others are clones, and hooks lead to clones. -/
structure Kept (D : Dex n k) (s : Runtime k Info) : Prop where
  declared : ∀ p : Fin n, ∃ m, s.methods[(p : ℕ)]? = some m ∧
    m.declaringClass = (D.declared p).declaringClass ∧ m.isXposedOriginalMethod = false ∧
    (m.isXposedHookedMethod = true → s.status m.declaringClass ≠ .absent ∧ Intercepted m)
  clones : ∀ (a : Ptr) (m : ArtMethod k Info), n ≤ a → s.methods[a]? = some m →
    m.isXposedHookedMethod = false ∧ m.isXposedOriginalMethod = true
  infos : ∀ (a : Ptr) (m : ArtMethod k Info) (info : XposedHookInfo Info),
    s.methods[a]? = some m → m.entryPointFromJni = .hookInfo info → n ≤ info.originalMethod

theorem Kept.le_length {D : Dex n k} {s : Runtime k Info} (h : Kept D s) :
    n ≤ s.methods.length := by
  by_contra hlt
  obtain ⟨m, hm, -⟩ := h.declared ⟨s.methods.length, by omega⟩
  simp at hm

/-- A runtime after something that is neither a hook nor a call. -/
structure Leaves (s s' : Runtime k Info) : Prop where
  length : s'.methods.length = s.methods.length
  threadList : s'.threadList = s.threadList
  status : ∀ c, s.status c ≠ .absent → s'.status c ≠ .absent
  methods : ∀ (p : Ptr) (m : ArtMethod k Info), s.methods[p]? = some m →
    ∃ m', s'.methods[p]? = some m' ∧ m.Stays m' ∧ (m.isXposedHookedMethod = true → m' = m)

theorem Leaves.refl (s : Runtime k Info) : Leaves s s :=
  ⟨rfl, rfl, fun _ h => h, fun _ m hm => ⟨m, hm, .refl m, fun _ => rfl⟩⟩

theorem Leaves.trans {s s' s'' : Runtime k Info} (h : Leaves s s') (h' : Leaves s' s'') :
    Leaves s s'' where
  length := h'.length.trans h.length
  threadList := h'.threadList.trans h.threadList
  status c hc := h'.status c (h.status c hc)
  methods p m hm := by
    obtain ⟨m', hm', hstays, hsame⟩ := h.methods p m hm
    obtain ⟨m'', hm'', hstays', hsame'⟩ := h'.methods p m' hm'
    refine ⟨m'', hm'', hstays.trans hstays', fun hhooked => ?_⟩
    obtain rfl := hsame hhooked
    exact hsame' hhooked

/-- A method comes from the one that was at its place. -/
theorem Leaves.exists_from {s s' : Runtime k Info} (h : Leaves s s') {p : Ptr} {m' : ArtMethod k Info}
    (hm' : s'.methods[p]? = some m') : ∃ m, s.methods[p]? = some m ∧ m.Stays m' := by
  have hlt := (List.getElem?_eq_some_iff.mp hm').1
  rw [h.length] at hlt
  have hm := List.getElem?_eq_getElem hlt
  obtain ⟨m'', hm'', hstays, -⟩ := h.methods p _ hm
  obtain rfl := Option.some.inj (hm'.symm.trans hm'')
  exact ⟨_, hm, hstays⟩

/-- What was done left the hooks alone, and the invariant is kept. -/
theorem Kept.leaves {D : Dex n k} {s s' : Runtime k Info} (h : Kept D s) (hs : Leaves s s') :
    Kept D s' where
  declared p := by
    obtain ⟨m, hm, hclass, hclone, hhooked⟩ := h.declared p
    obtain ⟨m', hm', hstays, hsame⟩ := hs.methods p m hm
    refine ⟨m', hm', hstays.declaringClass.trans hclass,
      hstays.isXposedOriginalMethod.trans hclone, fun hh => ?_⟩
    rw [hstays.isXposedHookedMethod] at hh
    obtain rfl := hsame hh
    obtain ⟨hstatus, hintercepted⟩ := hhooked hh
    exact ⟨hs.status _ hstatus, hintercepted⟩
  clones a m' hle hm' := by
    obtain ⟨m, hm, hstays⟩ := hs.exists_from hm'
    obtain ⟨hhooked, hclone⟩ := h.clones a m hle hm
    exact ⟨hstays.isXposedHookedMethod.trans hhooked, hstays.isXposedOriginalMethod.trans hclone⟩
  infos a m' info hm' hinfo := by
    obtain ⟨m, hm, hstays⟩ := hs.exists_from hm'
    exact h.infos a m info hm (hstays.hookInfo info hinfo)

section Steps

variable {D : Dex n k} {s s' : Runtime k Info}

/-! ## One method -/

theorem leaves_modify {q : Ptr} {f : ArtMethod k Info → Option (ArtMethod k Info)}
    (hstays : ∀ m m', f m = some m' → m.Stays m')
    (hplain : ∀ m, s.methods[q]? = some m → m.isXposedHookedMethod = false)
    (h : s.modify q f = some s') : Leaves s s' := by
  rw [Runtime.modify] at h
  obtain ⟨m, hm, h⟩ := Option.bind_eq_some_iff.mp h
  obtain ⟨m', hm', h⟩ := Option.bind_eq_some_iff.mp h
  obtain rfl := Option.some.inj h
  refine ⟨List.length_set, rfl, fun _ hc => hc, fun p x hx => ?_⟩
  by_cases hp : q = p
  · subst hp
    obtain rfl := Option.some.inj (hm.symm.trans hx)
    have hlt := (List.getElem?_eq_some_iff.mp hm).1
    refine ⟨m', List.getElem?_set_self hlt, hstays m m' hm', fun hh => ?_⟩
    exact absurd hh (by simp [hplain m hm])
  · exact ⟨x, (List.getElem?_set_ne hp).trans hx, .refl x, fun _ => rfl⟩

/-- The original of a method is not hooked. -/
theorem Kept.original (h : Kept D s) {p : Fin n} {q : Ptr} (hq : s.original p = some q)
    {m : ArtMethod k Info} (hm : s.methods[q]? = some m) : m.isXposedHookedMethod = false := by
  obtain ⟨mp, hmp, -⟩ := h.declared p
  rw [Runtime.original, hmp] at hq
  simp only [Option.bind_eq_bind, Option.bind_some] at hq
  by_cases hh : mp.isXposedHookedMethod = true
  · rw [if_pos hh] at hq
    obtain ⟨info, hinfo, hq⟩ := Option.bind_eq_some_iff.mp hq
    obtain rfl := Option.some.inj hq
    exact (h.clones _ m (h.infos _ mp info hmp (ArtMethod.getXposedHookInfo_eq_some hinfo)) hm).1
  · rw [if_neg hh] at hq
    obtain rfl := Option.some.inj hq
    obtain rfl := Option.some.inj (hm.symm.trans hmp)
    exact Bool.eq_false_iff.mpr hh

theorem chase_eq {fuel : ℕ} {p q : Ptr} (h : s.chase fuel p = some q)
    {m : ArtMethod k Info} (hm : s.methods[q]? = some m) : m.isXposedHookedMethod = false := by
  induction fuel generalizing p with
  | zero => cases h
  | succ fuel ih =>
    rw [Runtime.chase] at h
    obtain ⟨mp, hmp, h⟩ := Option.bind_eq_some_iff.mp h
    split at h
    · obtain ⟨info, -, h⟩ := Option.bind_eq_some_iff.mp h
      exact ih h
    · next hh =>
      obtain rfl := Option.some.inj h
      obtain rfl := Option.some.inj (hm.symm.trans hmp)
      exact Bool.eq_false_iff.mpr hh

/-! ## Loops -/

/-- Under the invariant, something leaves the hooks alone. -/
def Safe (D : Dex n k) (f : Runtime k Info → Option (Runtime k Info)) : Prop :=
  ∀ s s', Kept D s → f s = some s' → Leaves s s'

theorem safe_foldlM {ι : Type} {f : Runtime k Info → ι → Option (Runtime k Info)} {l : List ι}
    (hf : ∀ i ∈ l, Safe D (f · i)) : Safe D (l.foldlM f) := by
  intro s s' hs h
  induction l generalizing s with
  | nil => exact Option.some.inj h ▸ .refl s
  | cons i l ih =>
    rw [List.forall_mem_cons] at hf
    obtain ⟨u, hu, h⟩ := Option.bind_eq_some_iff.mp ((List.foldlM_cons ..).symm.trans h)
    have hleaves := hf.1 s u hs hu
    exact hleaves.trans (ih hf.2 u (hs.leaves hleaves) h)

theorem safe_map {f : Runtime k Info → Option (Runtime k Info)} (hf : Safe D f)
    {g : Runtime k Info → Runtime k Info} (hg : ∀ s, Leaves s (g s)) :
    Safe D fun s => (f s).map g := by
  intro s s' hs h
  obtain ⟨u, hu, rfl⟩ := Option.map_eq_some_iff.mp h
  exact (hf s u hs hu).trans (hg u)

theorem leaves_instrumentation (s : Runtime k Info) (I : Instrumentation) :
    Leaves s { s with instrumentation := I } :=
  { Leaves.refl s with }

theorem leaves_status (s : Runtime k Info) (c : Fin k) {x : Status} (hx : x ≠ .absent) :
    Leaves s { s with status := Function.update s.status c x } := by
  refine { Leaves.refl s with status := fun c' hc' => ?_ }
  by_cases h : c' = c
  · subst h
    simpa using hx
  · simpa [h] using hc'

/-! ## What the runtime does -/

theorem safe_installStubsForMethod (p : Fin n) :
    Safe D fun s : Runtime k Info => s.installStubsForMethod D p := by
  intro s s' hs h
  obtain ⟨q, hq, h⟩ := Option.bind_eq_some_iff.mp h
  exact leaves_modify (fun _ _ => ArtMethod.stays_installStubs) (fun _ => hs.original hq) h

theorem safe_installStubsForClass (c : Fin k) :
    Safe D fun s : Runtime k Info => s.installStubsForClass D c := by
  intro s s' hs h
  simp only [Runtime.installStubsForClass] at h
  split at h
  · exact Option.some.inj h ▸ .refl s
  · exact safe_foldlM (fun p _ => safe_installStubsForMethod p) s s' hs h

theorem safe_configureStubs (requireEntryExitStubs requireInterpreter : Bool) :
    Safe D fun s : Runtime k Info =>
      s.configureStubs D requireEntryExitStubs requireInterpreter := by
  intro s s' hs h
  have hclasses : ∀ (I : Instrumentation) (g : Runtime k Info → Runtime k Info),
      (∀ s, Leaves s (g s)) → ((Runtime.installStubsForClasses D
        { s with instrumentation := I }).map g = some s') → Leaves s s' := by
    intro I g hg h
    have hI := leaves_instrumentation s I
    exact hI.trans (safe_map (safe_foldlM fun c _ => safe_installStubsForClass c) hg _ _
      (hs.leaves hI) h)
  simp only [Runtime.configureStubs] at h
  split at h
  · exact Option.some.inj h ▸ leaves_instrumentation ..
  split at h
  · exact hclasses _ _ (fun s => leaves_instrumentation ..) h
  · refine hclasses _ _ (fun s => ?_) h
    split
    · exact leaves_instrumentation ..
    · exact .refl s

theorem safe_fixupStaticTrampoline (c : Fin k) (p : Fin n) (methodIndex : ℕ) :
    Safe D fun s : Runtime k Info => s.fixupStaticTrampoline D c p methodIndex := by
  intro s s' hs h
  obtain ⟨m, -, h⟩ := Option.bind_eq_some_iff.mp h
  split at h
  · exact Option.some.inj h ▸ .refl s
  · obtain ⟨q, hq, h⟩ := Option.bind_eq_some_iff.mp h
    refine leaves_modify (fun m m' hm' => ?_) (fun _ => hs.original hq) h
    exact Option.some.inj hm' ▸ ArtMethod.stays_updateMethodsCode ..

theorem safe_initializeClass (c : Fin k) :
    Safe D fun s : Runtime k Info => s.initializeClass D c := by
  intro s s' hs h
  simp only [Runtime.initializeClass] at h
  split at h
  · have hc := leaves_status s c (x := .initialized) (by simp)
    rw [Runtime.fixupStaticTrampolines] at h
    split at h
    · exact Option.some.inj h ▸ hc
    · exact hc.trans (safe_foldlM (fun x _ => safe_fixupStaticTrampoline c x.1 x.2) _ _
        (hs.leaves hc) h)
  · exact Option.some.inj h ▸ .refl s

theorem Leaves.not_hooked (h : Leaves s s') {q : Ptr}
    (hq : ∀ m, s.methods[q]? = some m → m.isXposedHookedMethod = false) {m' : ArtMethod k Info}
    (hm' : s'.methods[q]? = some m') : m'.isXposedHookedMethod = false := by
  obtain ⟨m, hm, hstays⟩ := h.exists_from hm'
  exact hstays.isXposedHookedMethod.trans (hq m hm)

theorem leaves_linkCodes {l : List (Fin n × ℕ)}
    (hl : ∀ x ∈ l, ∀ m, s.methods[(x.1 : ℕ)]? = some m → m.isXposedHookedMethod = false)
    (h : l.foldlM (fun s (x : Fin n × ℕ) => s.modify x.1 fun m =>
      m.linkCode D s.instrumentation (D.classes m.declaringClass) (s.isDeoptimized x.1) x.2) s =
        some s') : Leaves s s' := by
  induction l generalizing s with
  | nil => exact Option.some.inj h ▸ .refl s
  | cons x l ih =>
    rw [List.forall_mem_cons] at hl
    obtain ⟨u, hu, h⟩ := Option.bind_eq_some_iff.mp ((List.foldlM_cons ..).symm.trans h)
    have hleaves := leaves_modify (fun _ _ => ArtMethod.stays_linkCode) hl.1 hu
    exact hleaves.trans (ih (fun y hy _ => hleaves.not_hooked (hl.2 y hy)) h)

theorem safe_loadClass (c : Fin k) : Safe D fun s : Runtime k Info => s.loadClass D c := by
  intro s s' hs h
  simp only [Runtime.loadClass] at h
  split at h
  · next hc =>
    refine (leaves_status s c (x := .loaded) (by simp)).trans (leaves_linkCodes ?_ h)
    intro x hx m hm
    have hclass := D.declares c x.1 (List.fst_mem_of_mem_zipIdx hx)
    obtain ⟨m', hm', hdeclared, -, hhooked⟩ := hs.declared x.1
    obtain rfl := Option.some.inj (hm.symm.trans hm')
    refine Bool.eq_false_iff.mpr fun hh => (hhooked hh).1 ?_
    rw [hdeclared, hclass, hc]
  · exact Option.some.inj h ▸ .refl s

theorem safe_registerNative (p : Ptr) (fnPtr : ℕ) (isFast : Bool) :
    Safe D fun s : Runtime k Info => s.registerNative p (.function fnPtr) isFast := by
  intro s s' hs h
  obtain ⟨q, hq, h⟩ := Option.bind_eq_some_iff.mp h
  exact leaves_modify (fun _ _ => ArtMethod.stays_registerNative (by simp)) (fun _ => chase_eq hq) h

theorem leaves_registerNatives {c : Fin k} {xs : List Runtime.NativeMethod} {r : ℤ}
    (hs : Kept D s) (h : Runtime.registerNatives D c xs s = some (s', r)) : Leaves s s' := by
  induction xs generalizing s with
  | nil => exact (Prod.mk.inj (Option.some.inj h)).1 ▸ .refl s
  | cons x xs ih =>
    rw [Runtime.registerNatives] at h
    split at h
    · exact (Prod.mk.inj (Option.some.inj h)).1 ▸ .refl s
    · obtain ⟨b, -, h⟩ := Option.bind_eq_some_iff.mp h
      split at h
      · exact (Prod.mk.inj (Option.some.inj h)).1 ▸ .refl s
      · obtain ⟨u, hu, h⟩ := Option.bind_eq_some_iff.mp h
        have hleaves := safe_registerNative _ _ _ s u hs hu
        exact hleaves.trans (ih (hs.leaves hleaves) h)

theorem safe_unregisterNatives (c : Fin k) :
    Safe D fun s : Runtime k Info => s.unregisterNatives D c := by
  refine safe_foldlM fun p _ s s' _ h => ?_
  obtain ⟨b, -, h⟩ := Option.bind_eq_some_iff.mp h
  split at h
  · obtain ⟨q, hq, h⟩ := Option.bind_eq_some_iff.mp h
    exact leaves_modify (fun _ _ => ArtMethod.stays_unregisterNative) (fun _ => chase_eq hq) h
  · exact Option.some.inj h ▸ .refl s

/-- A method that may be deoptimised is not hooked. -/
theorem not_hooked_of_mayDeoptimize {m : ArtMethod k Info}
    (h : Runtime.mayDeoptimize D m = true) : m.isXposedHookedMethod = false := by
  simp only [Runtime.mayDeoptimize, ArtMethod.isProxyMethod, Bool.and_eq_true, Bool.not_eq_true',
    Bool.or_eq_false_iff] at h
  exact h.1.2.2

theorem leaves_deoptimizedMethods (s : Runtime k Info) (l : List Ptr) (I : Instrumentation) :
    Leaves s { s with deoptimizedMethods := l, instrumentation := I } :=
  { Leaves.refl s with }

theorem safe_deoptimize (p : Ptr) : Safe D fun s : Runtime k Info => s.deoptimize D p := by
  intro s s' hs h
  obtain ⟨m, hm, h⟩ := Option.bind_eq_some_iff.mp h
  split at h
  · cases h
  next hmay =>
  simp only [Bool.or_eq_true, Bool.not_eq_true', not_or, Bool.not_eq_false] at hmay
  dsimp only at h
  split at h
  · exact Option.some.inj h ▸ leaves_deoptimizedMethods ..
  · refine (leaves_deoptimizedMethods ..).trans
      (leaves_modify (fun m m' hm' => ?_) (fun x hx => ?_) h)
    · exact Option.some.inj hm' ▸ ArtMethod.stays_updateEntrypoints ..
    · obtain rfl := Option.some.inj (hm.symm.trans hx)
      exact not_hooked_of_mayDeoptimize hmay.1

theorem safe_undeoptimize (p : Ptr) : Safe D fun s : Runtime k Info => s.undeoptimize D p := by
  intro s s' hs h
  obtain ⟨m, hm, h⟩ := Option.bind_eq_some_iff.mp h
  split at h
  · cases h
  next hmay =>
  simp only [Bool.or_eq_true, Bool.not_eq_true', not_or, Bool.not_eq_false] at hmay
  dsimp only at h
  split at h
  · exact Option.some.inj h ▸ leaves_deoptimizedMethods ..
  · have hrest : ∀ u : Runtime k Info, (u.modify p fun m => (s.restoredCode D m).map
        fun quickCode => m.updateEntrypoints s.instrumentation (D.classes m.declaringClass)
          (some quickCode)) = some s' → u.methods = s.methods → Leaves s u → Leaves s s' := by
      intro u h hu hleaves
      refine hleaves.trans (leaves_modify (fun m m' hm' => ?_) (fun x hx => ?_) h)
      · obtain ⟨quickCode, -, heq⟩ := Option.map_eq_some_iff.mp hm'
        exact heq ▸ ArtMethod.stays_updateEntrypoints ..
      · rw [hu] at hx
        obtain rfl := Option.some.inj (hm.symm.trans hx)
        exact not_hooked_of_mayDeoptimize hmay.1
    split at h
    · exact hrest _ h rfl (leaves_deoptimizedMethods ..)
    · exact hrest _ h rfl (leaves_deoptimizedMethods ..)

/-! ## One step -/

/-- The operation makes the thread enter the method by its compiled code. -/
inductive Enters (s : Runtime k Info) : Op n k Info → ℕ → Ptr → Prop
  | call (thread : ℕ) (p : Ptr) : Enters s (.call thread p) thread p
  | invokeOriginal {thread : ℕ} {javaMethod p : Ptr} {isResolved : Bool}
      (hp : s.invokeOriginalMethodNative javaMethod isResolved = some p) :
      Enters s (.invokeOriginal thread javaMethod isResolved) thread p

/-- All that an operation can do. -/
inductive Effect (s : Runtime k Info) (op : Op n k Info) :
    Runtime k Info × List (Out Info) → Prop
  | leaves {s' : Runtime k Info} {out : List (Out Info)} (h : Leaves s s')
      (hout : ∀ y ∈ out, ∃ r, y = .jni r) : Effect s op (s', out)
  | hook {p : Ptr} {info : Info} {x : Runtime k Info × Runtime.Hooking} (hop : op = .hook p info)
      (hloaded : s.isLoaded p = true) (hx : s.enableXposedHook p info = some x) :
      Effect s op (x.1, [.hooking p info x.2])
  | call {thread : ℕ} {p : Ptr} (henters : Enters s op thread p) :
      Effect s op (s.call thread p, [])
  | leave (thread : ℕ) :
      Effect s op ({ s with threadList := s.threadList.modify thread List.tail }, [])

theorem effect_step (hs : Kept D s) {op : Op n k Info} {x : Runtime k Info × List (Out Info)}
    (hx : s.step D op = some x) : Effect s op x := by
  have hsafe : ∀ {f : Runtime k Info → Option (Runtime k Info)} {out : List (Out Info)},
      Safe D f → (∀ y ∈ out, ∃ r, y = .jni r) → (f s).map (·, out) = some x → Effect s op x := by
    intro f out hf hout hx
    obtain ⟨s', hs', rfl⟩ := Option.map_eq_some_iff.mp hx
    exact .leaves (hf s s' hs hs') hout
  have hquiet : ∀ y ∈ ([] : List (Out Info)), ∃ r, y = .jni r := by simp
  have hidle : some (s, []) = some x → Effect s op x := by
    intro hx
    obtain rfl := Option.some.inj hx
    exact .leaves (.refl s) hquiet
  cases op with
  | loadClass c => exact hsafe (safe_loadClass c) hquiet hx
  | initializeClass c => exact hsafe (safe_initializeClass c) hquiet hx
  | registerNatives c xs =>
    simp only [Runtime.step] at hx
    split at hx
    · exact hidle hx
    · obtain ⟨y, hy, rfl⟩ := Option.map_eq_some_iff.mp hx
      exact .leaves (leaves_registerNatives hs hy) (by simp)
  | unregisterNatives c =>
    simp only [Runtime.step] at hx
    split at hx
    · exact hidle hx
    · exact hsafe (safe_unregisterNatives c) (by simp) hx
  | configureStubs entryExit interpreter =>
    exact hsafe (safe_configureStubs entryExit interpreter) hquiet hx
  | deoptimize p =>
    simp only [Runtime.step] at hx
    split at hx
    · exact hsafe (safe_deoptimize p) hquiet hx
    · exact hidle hx
  | undeoptimize p =>
    simp only [Runtime.step] at hx
    split at hx
    · exact hsafe (safe_undeoptimize p) hquiet hx
    · exact hidle hx
  | hook p info =>
    simp only [Runtime.step] at hx
    split at hx
    · next hloaded =>
      obtain ⟨y, hy, rfl⟩ := Option.map_eq_some_iff.mp hx
      exact .hook rfl hloaded hy
    · exact hidle hx
  | call thread p =>
    obtain rfl := Option.some.inj hx
    exact .call (.call thread p)
  | invokeOriginal thread p isResolved =>
    simp only [Runtime.step] at hx
    split at hx
    · obtain ⟨q, hq, rfl⟩ := Option.map_eq_some_iff.mp hx
      exact .call (.invokeOriginal hq)
    · exact hidle hx
  | leave thread =>
    obtain rfl := Option.some.inj hx
    exact .leave thread

end Steps

/-! ## The two halves of a hook -/

section Halves

variable {D : Dex n k} {s : Runtime k Info}

theorem Kept.withThreads (h : Kept D s) (threadList : List (List Frame)) :
    Kept D { s with threadList := threadList } :=
  ⟨h.declared, h.clones, h.infos⟩

/-- Calls are on the stacks only. -/
theorem call_eq (s : Runtime k Info) (thread : ℕ) (p : Ptr) :
    ∃ threadList, s.call thread p = { s with threadList := threadList } := by
  rw [Runtime.call]
  cases s.methods[p]? with
  | none => exact ⟨s.threadList, rfl⟩
  | some m => exact ⟨_, rfl⟩

theorem Kept.prepare (h : Kept D s) {p : Fin n} {m : ArtMethod k Info}
    (hm : s.methods[(p : ℕ)]? = some m) (hhooked : m.isXposedHookedMethod = false)
    (additionalInfo : Info) : Kept D (s.prepare p m additionalInfo) where
  declared q := by
    obtain ⟨x, hx, hrest⟩ := h.declared q
    by_cases hq : q = p
    · subst hq
      obtain rfl := Option.some.inj (hm.symm.trans hx)
      refine ⟨_, Runtime.getElem?_prepare_self additionalInfo hm, hrest.1, hrest.2.1, fun hh => ?_⟩
      exact absurd (hh.symm.trans hhooked) (by simp)
    · have hne : (q : ℕ) ≠ p := fun heq => hq (Fin.ext heq)
      exact ⟨x, Runtime.getElem?_prepare_of_ne additionalInfo hne hx, hrest⟩
  clones a x hle hx := by
    rcases Runtime.of_getElem?_prepare additionalInfo hm hx with ⟨rfl, rfl⟩ | ⟨rfl, rfl⟩ | ⟨-, hx⟩
    · exact absurd p.isLt (Nat.not_lt.mpr hle)
    · exact ⟨m.isXposedHookedMethod_backup.trans hhooked, m.isXposedOriginalMethod_backup⟩
    · exact h.clones a x hle hx
  infos a x info hx hinfo := by
    rcases Runtime.of_getElem?_prepare additionalInfo hm hx with ⟨rfl, rfl⟩ | ⟨rfl, rfl⟩ | ⟨-, hx⟩
    · obtain rfl := Jni.hookInfo.inj hinfo
      exact h.le_length
    · exact h.infos p m info hm hinfo
    · exact h.infos a x info hx hinfo

theorem Kept.intercept (h : Kept D s) {p : Fin n}
    (hstatus : s.status (D.declared p).declaringClass ≠ .absent) : Kept D (s.intercept p) where
  declared q := by
    obtain ⟨x, hx, hclass, hclone, hhooked⟩ := h.declared q
    by_cases hq : q = p
    · subst hq
      refine ⟨_, Runtime.getElem?_intercept_self hx, hclass,
        x.isXposedOriginalMethod_intercepted.trans hclone, fun _ => ⟨?_, rfl, rfl⟩⟩
      rw [show x.intercepted.declaringClass = (D.declared q).declaringClass from hclass]
      exact hstatus
    · have hne : (q : ℕ) ≠ p := fun heq => hq (Fin.ext heq)
      exact ⟨x, (Runtime.getElem?_intercept_of_ne hne s).trans hx, hclass, hclone, hhooked⟩
  clones a x hle hx := by
    have hne : a ≠ p := Nat.ne_of_gt (Nat.lt_of_lt_of_le p.isLt hle)
    exact h.clones a x hle ((Runtime.getElem?_intercept_of_ne hne s).symm.trans hx)
  infos a x info hx hinfo := by
    obtain ⟨y, hy, hsame⟩ := Runtime.of_getElem?_intercept hx
    exact h.infos a y info hy (hsame ▸ hinfo)

theorem kept_boot (D : Dex n k) (forcedInterpretOnly : Bool) (threads : ℕ) :
    Kept D (boot D forcedInterpretOnly threads : Runtime k Info) where
  declared p := by
    refine ⟨_, getElem?_boot D forcedInterpretOnly threads p, rfl,
      (D.declared p).has_unlinked (by decide), fun hh => ?_⟩
    exact absurd (hh.symm.trans ((D.declared p).has_unlinked (by decide))) (by simp)
  clones a m hle ha := by
    have hlt := (List.getElem?_eq_some_iff.mp ha).1
    simp only [boot, List.length_ofFn] at hlt
    omega
  infos a m info ha hinfo := by
    obtain ⟨p, rfl⟩ := List.mem_ofFn.mp (List.mem_of_getElem? ha)
    cases hinfo

end Halves

end Art

end Dynamicloader
