import Dynamicloader.Art.Model
/-!
# One method and its clone

Whatever the runtime does to the entry points of a method, it does to a clone
as well: no function asks for the flag that tells them apart. And it leaves
alone what a hook depends on, all flags but the one for fast natives and the
indices of the method (`Stays`).
-/

namespace Dynamicloader

namespace Art

/-! ## Flags -/

theorem or_and_of_disjoint {f o mask : UInt32} (h : o &&& mask = 0) :
    (f ||| o) &&& mask = f &&& mask := by
  have hbits : o.toBitVec &&& mask.toBitVec = 0 := congrArg UInt32.toBitVec h
  refine UInt32.toBitVec_inj.mp (BitVec.eq_of_getLsbD_eq fun i hi => ?_)
  have hbit := congrArg (fun x : BitVec 32 => x.getLsbD i) hbits
  simp only [BitVec.getLsbD_and] at hbit
  simp only [UInt32.toBitVec_and, UInt32.toBitVec_or, BitVec.getLsbD_and, BitVec.getLsbD_or]
  cases hf : f.toBitVec.getLsbD i <;> cases hm : mask.toBitVec.getLsbD i <;> simp_all

theorem and_not_and_of_disjoint {f o mask : UInt32} (h : o &&& mask = 0) :
    (f &&& ~~~o) &&& mask = f &&& mask := by
  have hbits : o.toBitVec &&& mask.toBitVec = 0 := congrArg UInt32.toBitVec h
  refine UInt32.toBitVec_inj.mp (BitVec.eq_of_getLsbD_eq fun i hi => ?_)
  have hbit := congrArg (fun x : BitVec 32 => x.getLsbD i) hbits
  simp only [BitVec.getLsbD_and] at hbit
  simp only [UInt32.toBitVec_and, UInt32.toBitVec_not, BitVec.getLsbD_and, BitVec.getLsbD_not]
  cases hm : mask.toBitVec.getLsbD i <;> simp_all

theorem or_and_self (f mask : UInt32) : (f ||| mask) &&& mask = mask := by
  refine UInt32.toBitVec_inj.mp (BitVec.eq_of_getLsbD_eq fun i hi => ?_)
  simp only [UInt32.toBitVec_and, UInt32.toBitVec_or, BitVec.getLsbD_and, BitVec.getLsbD_or]
  cases mask.toBitVec.getLsbD i <;> simp

theorem and_not_and_self (f mask : UInt32) : (f &&& ~~~mask) &&& mask = 0 := by
  rw [UInt32.and_assoc]
  refine UInt32.toBitVec_inj.mp (BitVec.eq_of_getLsbD_eq fun i hi => ?_)
  simp

variable {n k : ℕ} {Info : Type}

namespace ArtMethod

variable (m : ArtMethod k Info)

/-! ## The clone -/

theorem has_backup {mask : UInt32} (h : kAccXposedOriginalMethod &&& mask = 0) :
    m.backup.has mask = m.has mask := by
  rw [has, has, backup, or_and_of_disjoint h]

@[simp] theorem isStatic_backup : m.backup.isStatic = m.isStatic := m.has_backup (by decide)

@[simp] theorem isConstructor_backup : m.backup.isConstructor = m.isConstructor :=
  m.has_backup (by decide)

@[simp] theorem isNative_backup : m.backup.isNative = m.isNative := m.has_backup (by decide)

@[simp] theorem isAbstract_backup : m.backup.isAbstract = m.isAbstract := m.has_backup (by decide)

@[simp] theorem isDirect_backup : m.backup.isDirect = m.isDirect := m.has_backup (by decide)

@[simp] theorem isXposedHookedMethod_backup :
    m.backup.isXposedHookedMethod = m.isXposedHookedMethod := m.has_backup (by decide)

@[simp] theorem isXposedOriginalMethod_backup : m.backup.isXposedOriginalMethod = true := by
  rw [isXposedOriginalMethod, has, backup, or_and_self]
  decide

@[simp] theorem isFastNative_backup : m.backup.isFastNative = m.isFastNative := by
  rw [isFastNative, isFastNative, backup, or_and_of_disjoint (by decide)]

@[simp] theorem isProxyMethod_backup (K : Class n) :
    m.backup.isProxyMethod K = m.isProxyMethod K := by
  rw [isProxyMethod, isProxyMethod, isXposedHookedMethod_backup]

theorem registerNative_backup (nativeMethod : Jni Info) (isFast : Bool) :
    m.backup.registerNative nativeMethod isFast =
      (m.registerNative nativeMethod isFast).map backup := by
  have hflags : (m.accessFlags ||| kAccXposedOriginalMethod) ||| kAccFastNative =
      (m.accessFlags ||| kAccFastNative) ||| kAccXposedOriginalMethod := by
    rw [UInt32.or_assoc, UInt32.or_comm kAccXposedOriginalMethod, UInt32.or_assoc]
  simp only [registerNative, isNative_backup, isFastNative_backup]
  split
  · rfl
  split
  · rfl
  split
  · rfl
  cases isFast with
  | false => rfl
  | true => simp only [backup, if_true, hflags, Option.map_some]

theorem unregisterNative_backup : m.backup.unregisterNative = m.unregisterNative.map backup := by
  simp only [unregisterNative, isNative_backup, isFastNative_backup, registerNative_backup]
  split <;> rfl

theorem updateEntrypoints_backup (I : Instrumentation) (K : Class n) (quickCode : Option Code) :
    m.backup.updateEntrypoints I K quickCode = (m.updateEntrypoints I K quickCode).backup := by
  simp only [updateEntrypoints, isNative_backup, isProxyMethod_backup]
  rfl

theorem updateMethodsCode_backup (I : Instrumentation) (K : Class n) (isDeoptimized : Bool)
    (quickCode : Option Code) : m.backup.updateMethodsCode I K isDeoptimized quickCode =
      (m.updateMethodsCode I K isDeoptimized quickCode).backup := by
  simp only [updateMethodsCode, isNative_backup, updateEntrypoints_backup]
  split_ifs <;> rfl

theorem findOatMethodFor_backup (K : Class n) (virtualIndices : List (Option ℕ)) :
    m.backup.findOatMethodFor K virtualIndices = m.findOatMethodFor K virtualIndices := by
  simp only [findOatMethodFor, isStatic_backup, isDirect_backup]
  rfl

theorem getQuickOatCodeFor_backup (K : Class n) (virtualIndices : List (Option ℕ)) :
    m.backup.getQuickOatCodeFor K virtualIndices = m.getQuickOatCodeFor K virtualIndices := by
  simp only [getQuickOatCodeFor, isAbstract_backup, isProxyMethod_backup, isNative_backup,
    findOatMethodFor_backup]

theorem needsInterpreter_backup (I : Instrumentation) (K : Class n) (quickCode : Option Code) :
    m.backup.needsInterpreter I K quickCode = m.needsInterpreter I K quickCode := by
  simp only [needsInterpreter, isNative_backup, isProxyMethod_backup]

theorem newQuickCode_backup (I : Instrumentation) (K : Class n)
    (isClassInitialized isDeoptimized : Bool) (virtualIndices : List (Option ℕ)) :
    m.backup.newQuickCode I K isClassInitialized isDeoptimized virtualIndices =
      m.newQuickCode I K isClassInitialized isDeoptimized virtualIndices := by
  simp only [newQuickCode, isConstructor_backup, isStatic_backup, isNative_backup,
    getQuickOatCodeFor_backup]

theorem installStubs_backup (I : Instrumentation) (K : Class n)
    (isClassInitialized isDeoptimized : Bool) (virtualIndices : List (Option ℕ)) :
    m.backup.installStubs I K isClassInitialized isDeoptimized virtualIndices =
      (m.installStubs I K isClassInitialized isDeoptimized virtualIndices).map backup := by
  simp only [installStubs, isAbstract_backup, isProxyMethod_backup, isConstructor_backup,
    newQuickCode_backup, updateEntrypoints_backup]
  split
  · rfl
  split
  · rfl
  rw [Option.map_map]
  rfl

theorem fixup_backup (I : Instrumentation) (K : Class n) (isDeoptimized : Bool)
    (quickCode : Option Code) :
    m.backup.fixup I K isDeoptimized quickCode = (m.fixup I K isDeoptimized quickCode).backup := by
  simp only [fixup, needsInterpreter_backup, isNative_backup, updateMethodsCode_backup]

theorem getXposedHookInfo_eq_some {m : ArtMethod k Info} {info : XposedHookInfo Info}
    (h : m.getXposedHookInfo = some info) : m.entryPointFromJni = .hookInfo info := by
  rw [getXposedHookInfo] at h
  split at h
  · next hjni => exact Option.some.inj h ▸ hjni
  · cases h

/-! ## What stays as it is -/

variable {m} {m' : ArtMethod k Info}

/-- Only entry points and the flag for fast natives may have changed, and what is
in the place of the native function is no other hook. -/
structure Stays (m m' : ArtMethod k Info) : Prop where
  declaringClass : m'.declaringClass = m.declaringClass
  dexMethodIndex : m'.dexMethodIndex = m.dexMethodIndex
  flags : ∀ mask, kAccFastNative &&& mask = 0 → m'.has mask = m.has mask
  hookInfo : ∀ info, m'.entryPointFromJni = .hookInfo info → m.entryPointFromJni = .hookInfo info

theorem Stays.refl (m : ArtMethod k Info) : Stays m m := ⟨rfl, rfl, fun _ _ => rfl, fun _ h => h⟩

theorem Stays.trans {m'' : ArtMethod k Info} (h : Stays m m') (h' : Stays m' m'') :
    Stays m m'' :=
  ⟨h'.declaringClass.trans h.declaringClass, h'.dexMethodIndex.trans h.dexMethodIndex,
    fun mask hmask => (h'.flags mask hmask).trans (h.flags mask hmask),
    fun info hinfo => h.hookInfo info (h'.hookInfo info hinfo)⟩

theorem Stays.isXposedHookedMethod (h : Stays m m') :
    m'.isXposedHookedMethod = m.isXposedHookedMethod := h.flags _ (by decide)

theorem Stays.isXposedOriginalMethod (h : Stays m m') :
    m'.isXposedOriginalMethod = m.isXposedOriginalMethod := h.flags _ (by decide)

theorem Stays.isStatic (h : Stays m m') : m'.isStatic = m.isStatic := h.flags _ (by decide)

theorem stays_registerNative {nativeMethod : Jni Info} {isFast : Bool}
    (hnative : ∀ info, nativeMethod ≠ .hookInfo info)
    (h : m.registerNative nativeMethod isFast = some m') : Stays m m' := by
  simp only [registerNative] at h
  split_ifs at h
  all_goals
    obtain rfl := Option.some.inj h
    refine ⟨rfl, rfl, fun mask hmask => ?_, fun info hinfo => absurd hinfo (hnative info)⟩
  · simp only [has, or_and_of_disjoint hmask]
  · rfl

theorem stays_unregisterNative (h : m.unregisterNative = some m') : Stays m m' := by
  simp only [unregisterNative] at h
  split_ifs at h
  exact stays_registerNative (by simp) h

theorem stays_updateEntrypoints (I : Instrumentation) (K : Class n) (quickCode : Option Code) :
    Stays m (m.updateEntrypoints I K quickCode) := ⟨rfl, rfl, fun _ _ => rfl, fun _ h => h⟩

theorem stays_updateMethodsCode (I : Instrumentation) (K : Class n) (isDeoptimized : Bool)
    (quickCode : Option Code) : Stays m (m.updateMethodsCode I K isDeoptimized quickCode) := by
  simp only [updateMethodsCode]
  split_ifs <;> exact stays_updateEntrypoints ..

theorem stays_installStubs {I : Instrumentation} {K : Class n}
    {isClassInitialized isDeoptimized : Bool} {virtualIndices : List (Option ℕ)}
    (h : m.installStubs I K isClassInitialized isDeoptimized virtualIndices = some m') :
    Stays m m' := by
  simp only [installStubs] at h
  split at h
  · exact Option.some.inj h ▸ Stays.refl m
  split at h
  · exact Option.some.inj h ▸ Stays.refl m
  obtain ⟨quickCode, -, heq⟩ := Option.map_eq_some_iff.mp h
  exact heq ▸ stays_updateEntrypoints ..

theorem stays_linkCode {D : Dex n k} {I : Instrumentation} {K : Class n} {isDeoptimized : Bool}
    {methodIndex : ℕ} (h : m.linkCode D I K isDeoptimized methodIndex = some m') :
    Stays m m' := by
  simp only [linkCode] at h
  split at h
  · exact Option.some.inj h ▸ Stays.refl m
  split at h
  · exact Option.some.inj h ▸ ⟨rfl, rfl, fun _ _ => rfl, fun _ h => h⟩
  obtain ⟨m₂, hm₂, heq⟩ := Option.map_eq_some_iff.mp h
  have hm : Stays m m₂ := by
    split at hm₂
    · obtain ⟨hclass, hindex, hflags, hinfo⟩ := stays_unregisterNative hm₂
      exact ⟨hclass, hindex, hflags, hinfo⟩
    · exact Option.some.inj hm₂ ▸ ⟨rfl, rfl, fun _ _ => rfl, fun _ h => h⟩
  exact hm.trans (heq ▸ stays_updateMethodsCode ..)

/-! ## The method that is hooked -/

variable (m)

theorem has_intercepted {mask : UInt32} (hnative : kAccNative &&& mask = 0)
    (hhooked : kAccXposedHookedMethod &&& mask = 0) : m.intercepted.has mask = m.has mask := by
  rw [has, has, intercepted, or_and_of_disjoint hhooked, and_not_and_of_disjoint hnative]

@[simp] theorem isStatic_intercepted : m.intercepted.isStatic = m.isStatic :=
  m.has_intercepted (by decide) (by decide)

@[simp] theorem isXposedOriginalMethod_intercepted :
    m.intercepted.isXposedOriginalMethod = m.isXposedOriginalMethod :=
  m.has_intercepted (by decide) (by decide)

@[simp] theorem isXposedHookedMethod_intercepted :
    m.intercepted.isXposedHookedMethod = true := by
  rw [isXposedHookedMethod, has, intercepted, or_and_self]
  decide

@[simp] theorem isNative_intercepted : m.intercepted.isNative = false := by
  rw [isNative, has, intercepted, or_and_of_disjoint (by decide), and_not_and_self]
  rfl

end ArtMethod

/-! ## A hook in the runtime -/

namespace Runtime

variable {s : Runtime k Info} {p q : Ptr} {m x : ArtMethod k Info} (additionalInfo : Info)

theorem exists_of_isLoaded (h : s.isLoaded p = true) :
    ∃ m, s.methods[p]? = some m ∧ s.status m.declaringClass ≠ .absent := by
  rw [isLoaded] at h
  cases hm : s.methods[p]? with
  | none => simp [hm] at h
  | some m => exact ⟨m, rfl, by simpa [hm] using h⟩

theorem length_prepare : (s.prepare p m additionalInfo).methods.length = s.methods.length + 1 := by
  rw [prepare, List.length_set, List.length_append, List.length_singleton]

theorem getElem?_prepare_self (hm : s.methods[p]? = some m) :
    (s.prepare p m additionalInfo).methods[p]? =
      some { m with entryPointFromJni := .hookInfo (s.newHookInfo m additionalInfo) } := by
  have hlt := (List.getElem?_eq_some_iff.mp hm).1
  exact List.getElem?_set_self (by rw [List.length_append]; omega)

theorem getElem?_prepare_clone (hm : s.methods[p]? = some m) :
    (s.prepare p m additionalInfo).methods[s.methods.length]? = some m.backup := by
  have hlt := (List.getElem?_eq_some_iff.mp hm).1
  rw [prepare, List.getElem?_set_ne (by omega), List.getElem?_append_right (Nat.le_refl _)]
  simp

theorem getElem?_prepare_of_ne (hq : q ≠ p) (hx : s.methods[q]? = some x) :
    (s.prepare p m additionalInfo).methods[q]? = some x := by
  have hlt := (List.getElem?_eq_some_iff.mp hx).1
  rw [prepare, List.getElem?_set_ne (Ne.symm hq), List.getElem?_append_left hlt, hx]

/-- A method there is now: the one that is hooked, its clone, or another. -/
theorem of_getElem?_prepare (hm : s.methods[p]? = some m)
    (hx : (s.prepare p m additionalInfo).methods[q]? = some x) :
    (q = p ∧ x = { m with entryPointFromJni := .hookInfo (s.newHookInfo m additionalInfo) }) ∨
      (q = s.methods.length ∧ x = m.backup) ∨ (q ≠ p ∧ s.methods[q]? = some x) := by
  by_cases hq : q = p
  · subst hq
    exact .inl ⟨rfl, Option.some.inj (hx.symm.trans (getElem?_prepare_self additionalInfo hm))⟩
  have hlt := (List.getElem?_eq_some_iff.mp hx).1
  rw [length_prepare] at hlt
  rcases Nat.lt_succ_iff_lt_or_eq.mp hlt with hlt | rfl
  · have hold := List.getElem?_eq_getElem hlt
    obtain rfl := Option.some.inj (hx.symm.trans (getElem?_prepare_of_ne additionalInfo hq hold))
    exact .inr (.inr ⟨hq, hold⟩)
  · exact .inr (.inl ⟨rfl,
      Option.some.inj (hx.symm.trans (getElem?_prepare_clone additionalInfo hm))⟩)

theorem length_intercept : (s.intercept p).methods.length = s.methods.length :=
  List.length_modify ..

theorem getElem?_intercept_self (hm : s.methods[p]? = some m) :
    (s.intercept p).methods[p]? = some m.intercepted := by
  simp [intercept, hm]

theorem getElem?_intercept_of_ne (hq : q ≠ p) (s : Runtime k Info) :
    (s.intercept p).methods[q]? = s.methods[q]? := by
  simp [intercept, Ne.symm hq]

/-- The end of a hook does not touch what is in the place of native functions. -/
theorem of_getElem?_intercept (hx : (s.intercept p).methods[q]? = some x) :
    ∃ y, s.methods[q]? = some y ∧ x.entryPointFromJni = y.entryPointFromJni := by
  by_cases hq : q = p
  · subst hq
    have hlt := (List.getElem?_eq_some_iff.mp hx).1
    rw [length_intercept] at hlt
    have hy := List.getElem?_eq_getElem hlt
    exact ⟨_, hy, Option.some.inj (hx.symm.trans (getElem?_intercept_self hy)) ▸ rfl⟩
  · exact ⟨x, (getElem?_intercept_of_ne hq s).symm.trans hx, rfl⟩

/-- A hook of the method from its beginning to its end. -/
def install (s : Runtime k Info) (p : Ptr) (m : ArtMethod k Info) (additionalInfo : Info) :
    Runtime k Info :=
  (s.prepare p m additionalInfo).intercept p

theorem length_install : (s.install p m additionalInfo).methods.length = s.methods.length + 1 :=
  length_intercept.trans (length_prepare additionalInfo)

theorem getElem?_install_self (hm : s.methods[p]? = some m) :
    (s.install p m additionalInfo).methods[p]? =
      some (m.hooked (s.newHookInfo m additionalInfo)) :=
  getElem?_intercept_self (getElem?_prepare_self additionalInfo hm)

theorem getElem?_install_clone (hm : s.methods[p]? = some m) :
    (s.install p m additionalInfo).methods[s.methods.length]? = some m.backup := by
  have hne := Nat.ne_of_gt (List.getElem?_eq_some_iff.mp hm).1
  rw [install, getElem?_intercept_of_ne hne, getElem?_prepare_clone additionalInfo hm]

theorem getElem?_install_of_ne (hq : q ≠ p) (hx : s.methods[q]? = some x) :
    (s.install p m additionalInfo).methods[q]? = some x := by
  rw [install, getElem?_intercept_of_ne hq, getElem?_prepare_of_ne additionalInfo hq hx]

/-- The three ways `EnableXposedHook` can go, up to `ResumeAll`. -/
theorem enableUntilResumeAll_cases (hm : s.methods[p]? = some m) :
    (m.isXposedHookedMethod = true ∧
        s.enableUntilResumeAll p additionalInfo = some (s, .alreadyHooked)) ∨
      (m.isXposedHookedMethod = false ∧ m.isXposedOriginalMethod = true ∧
        s.enableUntilResumeAll p additionalInfo = some (s, .illegalArgument)) ∨
      (m.isXposedHookedMethod = false ∧ m.isXposedOriginalMethod = false ∧
        s.enableUntilResumeAll p additionalInfo =
          some (s.prepare p m additionalInfo, .hooked)) := by
  rw [enableUntilResumeAll, hm]
  cases hhooked : m.isXposedHookedMethod <;> cases horiginal : m.isXposedOriginalMethod <;>
    simp [hhooked, horiginal]

end Runtime

theorem getElem?_boot (D : Dex n k) (forcedInterpretOnly : Bool) (threads : ℕ) (p : Fin n) :
    (boot D forcedInterpretOnly threads : Runtime k Info).methods[(p : ℕ)]? =
      some (D.declared p).unlinked := by
  simp [boot]

/-- No method of the dex file is hooked or a clone. -/
theorem Declared.has_unlinked (d : Declared k) {mask : UInt32}
    (h : (kAccXposedHookedMethod ||| kAccXposedOriginalMethod) &&& mask = mask) :
    (d.unlinked : ArtMethod k Info).has mask = false := by
  rw [ArtMethod.has, unlinked, ← h, ← UInt32.and_assoc, d.noXposed, UInt32.zero_and]
  rfl

end Art

end Dynamicloader
