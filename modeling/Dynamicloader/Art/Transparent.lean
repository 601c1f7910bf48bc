import Dynamicloader.Common.Simulation
import Dynamicloader.Art.Method
/-!
# Hooks do not change the methods behind them

A runtime with hooks against the same runtime without them: whatever is done
to classes, native functions and stubs, one operation at a time, and whichever
methods have been hooked before, the original of a method is what the method
would be had it never been hooked (`hooks_transparent`).

The relation between the two runs is `Sim`. It names the clone of each method
that has one; no two methods have the same.
-/

namespace Dynamicloader

namespace Art

variable {n k : ℕ} {Info : Type}

/-- `h` is what a hook made of the method `m`, with its clone at `a`. -/
structure Covers (h m : ArtMethod k Info) (a : Ptr) : Prop where
  hooked : h.isXposedHookedMethod = true
  isNative : h.isNative = false
  isStatic : h.isStatic = m.isStatic
  declaringClass : h.declaringClass = m.declaringClass
  dexMethodIndex : h.dexMethodIndex = m.dexMethodIndex
  info : ∃ additionalInfo,
    h.entryPointFromJni = .hookInfo ⟨⟨m.isConstructor, a⟩, additionalInfo, a⟩
  quickCode : h.entryPointFromQuickCompiledCode = some .proxyInvokeHandler
  interpreter : h.entryPointFromInterpreter = .toCompiledCode

/-- Where the plain method `m` is found: at its own place, or in the clone. -/
inductive At (methods : List (ArtMethod k Info)) (p : Fin n) (m : ArtMethod k Info) :
    Option Ptr → Prop
  | itself (hp : methods[(p : ℕ)]? = some m) : At methods p m none
  | clone {h : ArtMethod k Info} {a : Ptr} (hp : methods[(p : ℕ)]? = some h)
      (hcovers : Covers h m a) (hle : n ≤ a) (ha : methods[a]? = some m.backup) :
      At methods p m (some a)

/-- A method that is neither hooked nor a clone. -/
structure Plain (D : Dex n k) (p : Fin n) (m : ArtMethod k Info) : Prop where
  notHooked : m.isXposedHookedMethod = false
  notOriginal : m.isXposedOriginalMethod = false
  declaringClass : m.declaringClass = (D.declared p).declaringClass

/-- The runtime `s` with hooks and the runtime `t` without. Methods in `Deopt`
are those that may be deoptimised one by one. -/
structure Sim (D : Dex n k) (Deopt : Fin n → Prop) (clone : Fin n → Option Ptr)
    (s t : Runtime k Info) : Prop where
  status : s.status = t.status
  instrumentation : s.instrumentation = t.instrumentation
  deoptimizedMethods : s.deoptimizedMethods = t.deoptimizedMethods
  deoptimized : ∀ q ∈ t.deoptimizedMethods, ∃ p : Fin n, Deopt p ∧ (p : ℕ) = q
  methods : ∀ p : Fin n, ∃ m, t.methods[(p : ℕ)]? = some m ∧ Plain D p m ∧
    At s.methods p m (clone p)
  apart : ∀ p q a, clone p = some a → clone q = some a → p = q
  clones : ∀ a m, n ≤ a → s.methods[a]? = some m → ∃ p, clone p = some a
  hooked : ∀ p a, clone p = some a → ¬ Deopt p ∧ t.status (D.declared p).declaringClass ≠ .absent

/-! ## One method -/

section Set

variable {D : Dex n k} {methods : List (ArtMethod k Info)} {p q : Fin n} {m m' : ArtMethod k Info}

theorem Covers.stays {h : ArtMethod k Info} {a : Ptr} (hcovers : Covers h m a)
    (hm : m.Stays m') : Covers h m' a where
  hooked := hcovers.hooked
  isNative := hcovers.isNative
  isStatic := hcovers.isStatic.trans hm.isStatic.symm
  declaringClass := hcovers.declaringClass.trans hm.declaringClass.symm
  dexMethodIndex := hcovers.dexMethodIndex.trans hm.dexMethodIndex.symm
  info := by
    rw [show m'.isConstructor = m.isConstructor from hm.flags _ (by decide)]
    exact hcovers.info
  quickCode := hcovers.quickCode
  interpreter := hcovers.interpreter

theorem Plain.stays (h : Plain D p m) (hm : m.Stays m') : Plain D p m' where
  notHooked := hm.isXposedHookedMethod.trans h.notHooked
  notOriginal := hm.isXposedOriginalMethod.trans h.notOriginal
  declaringClass := hm.declaringClass.trans h.declaringClass

/-- What is found of the plain method, itself or as a clone. -/
def found (c : Option Ptr) (m : ArtMethod k Info) : ArtMethod k Info :=
  c.elim m fun _ => m.backup

theorem At.getElem? {c : Option Ptr} (h : At methods p m c) :
    methods[c.getD p]? = some (found c m) := by
  cases h with
  | itself hp => exact hp
  | clone hp hcovers hle ha => exact ha

/-- A method that is written elsewhere does not move this one. -/
theorem At.set_of_ne {c : Option Ptr} (h : At methods q m c) {a : Ptr} (hq : a ≠ q)
    (hc : ∀ b, c = some b → a ≠ b) : At (methods.set a m') q m c := by
  cases h with
  | itself hp => exact .itself ((List.getElem?_set_ne hq).trans hp)
  | clone hp hcovers hle ha =>
    exact .clone ((List.getElem?_set_ne hq).trans hp) hcovers hle
      ((List.getElem?_set_ne (hc _ rfl)).trans ha)

theorem At.set_self {c : Option Ptr} (h : At methods p m c) (hm : m.Stays m') :
    At (methods.set (c.getD p) (found c m')) p m' c := by
  have hlt := (List.getElem?_eq_some_iff.mp h.getElem?).1
  have hset := List.getElem?_set_self (a := found c m') hlt
  cases h with
  | itself hp => exact .itself hset
  | clone hp hcovers hle ha =>
    have hne := Nat.ne_of_gt (Nat.lt_of_lt_of_le p.isLt hle)
    exact .clone ((List.getElem?_set_ne hne).trans hp) (hcovers.stays hm) hle hset

theorem At.install {s : Runtime k Info} {c : Option Ptr} (h : At s.methods q m c) {a : Ptr}
    (hq : a ≠ q) (hc : ∀ b, c = some b → a ≠ b) (additionalInfo : Info) :
    At (s.install a m' additionalInfo).methods q m c := by
  cases h with
  | itself hp => exact .itself (Runtime.getElem?_install_of_ne additionalInfo hq.symm hp)
  | clone hp hcovers hle ha =>
    exact .clone (Runtime.getElem?_install_of_ne additionalInfo hq.symm hp) hcovers hle
      (Runtime.getElem?_install_of_ne additionalInfo (hc _ rfl).symm ha)

end Set

namespace Sim

variable {D : Dex n k} {Deopt : Fin n → Prop} {clone : Fin n → Option Ptr}
  {s t : Runtime k Info}

/-- The clone of a method is not among the declared ones. -/
theorem le_clone (h : Sim D Deopt clone s t) {p : Fin n} {a : Ptr} (hp : clone p = some a) :
    n ≤ a := by
  obtain ⟨m, -, -, hat⟩ := h.methods p
  rw [hp] at hat
  cases hat with
  | clone _ _ hle _ => exact hle

theorem set (h : Sim D Deopt clone s t) {p : Fin n} {m m' : ArtMethod k Info}
    (hp : t.methods[(p : ℕ)]? = some m) (hm : m.Stays m') :
    Sim D Deopt clone
      { s with methods := s.methods.set ((clone p).getD p) (found (clone p) m') }
      { t with methods := t.methods.set p m' } := by
  refine ⟨h.status, h.instrumentation, h.deoptimizedMethods, h.deoptimized, fun q => ?_, h.apart,
    fun a x hle ha => ?_, h.hooked⟩
  · obtain ⟨mq, hmq, hplain, hat⟩ := h.methods q
    by_cases hpq : p = q
    · subst hpq
      obtain rfl := Option.some.inj (hp.symm.trans hmq)
      have hlt := (List.getElem?_eq_some_iff.mp hp).1
      exact ⟨m', List.getElem?_set_self hlt, hplain.stays hm, hat.set_self hm⟩
    · have hne : (p : ℕ) ≠ q := fun heq => hpq (Fin.ext heq)
      refine ⟨mq, (List.getElem?_set_ne hne).trans hmq, hplain, hat.set_of_ne ?_ ?_⟩
      · cases hc : clone p with
        | none => exact hne
        | some a => exact Nat.ne_of_gt (Nat.lt_of_lt_of_le q.isLt (h.le_clone hc))
      · intro b hb
        cases hc : clone p with
        | none => exact Nat.ne_of_lt (Nat.lt_of_lt_of_le p.isLt (h.le_clone hb))
        | some a =>
          rintro rfl
          exact hpq (h.apart p q a hc hb)
  · have hlt := (List.getElem?_eq_some_iff.mp ha).1
    rw [List.length_set] at hlt
    exact h.clones a _ hle (List.getElem?_eq_getElem hlt)

/-- **Both runtimes do the same to a method**, the one with hooks to the clone
where there is one. -/
theorem modify (h : Sim D Deopt clone s t) (p : Fin n)
    {f : ArtMethod k Info → Option (ArtMethod k Info)}
    (hstays : ∀ m m', f m = some m' → m.Stays m')
    (hclone : clone p = none ∨ ∀ m, f m.backup = (f m).map .backup) :
    Option.Rel (Sim D Deopt clone) (s.modify ((clone p).getD p) f) (t.modify p f) := by
  obtain ⟨m, hm, -, hat⟩ := h.methods p
  have hfound : f (found (clone p) m) = (f m).map (found (clone p)) := by
    cases hc : clone p with
    | none => exact Option.map_id'.symm
    | some a => exact hclone.resolve_left (by simp [hc]) m
  rw [Runtime.modify, Runtime.modify, hm, hat.getElem?]
  simp only [Option.bind_eq_bind, Option.bind_some, hfound]
  cases hf : f m with
  | none => exact .none
  | some m' => exact .some (h.set hm (hstays m m' hf))

/-! ## What both runtimes find -/

theorem original_hooked (h : Sim D Deopt clone s t) (p : Fin n) :
    s.original p = some ((clone p).getD p) := by
  obtain ⟨m, -, hplain, hat⟩ := h.methods p
  cases hc : clone p with
  | none =>
    rw [hc] at hat
    cases hat with
    | itself hp =>
      rw [Runtime.original, hp]
      simp [hplain.notHooked]
  | some a =>
    rw [hc] at hat
    cases hat with
    | clone hp hcovers hle ha =>
      obtain ⟨additionalInfo, hinfo⟩ := hcovers.info
      rw [Runtime.original, hp]
      simp [hcovers.hooked, ArtMethod.getXposedHookInfo, hinfo]

theorem original_plain (h : Sim D Deopt clone s t) (p : Fin n) : t.original p = some (p : ℕ) := by
  obtain ⟨m, hm, hplain, -⟩ := h.methods p
  rw [Runtime.original, hm]
  simp [hplain.notHooked]

theorem chase_hooked (h : Sim D Deopt clone s t) (p : Fin n) :
    s.chase s.methods.length p = some ((clone p).getD p) := by
  obtain ⟨m, -, hplain, hat⟩ := h.methods p
  have hlt := (List.getElem?_eq_some_iff.mp hat.getElem?).1
  cases hc : clone p with
  | none =>
    rw [hc] at hat hlt
    obtain ⟨l, hl⟩ : ∃ l, s.methods.length = l + 1 := ⟨_, (Nat.succ_pred (by omega)).symm⟩
    cases hat with
    | itself hp =>
      rw [hl, Runtime.chase, hp]
      simp [hplain.notHooked]
  | some a =>
    have hle := h.le_clone hc
    have hp := p.isLt
    rw [hc, Option.getD_some] at hlt
    obtain ⟨l, hl⟩ : ∃ l, s.methods.length = l + 2 := ⟨s.methods.length - 2, by omega⟩
    rw [hc] at hat
    cases hat with
    | clone hp hcovers hle ha =>
      obtain ⟨additionalInfo, hinfo⟩ := hcovers.info
      rw [hl, Runtime.chase, hp]
      simp [hcovers.hooked, ArtMethod.getXposedHookInfo, hinfo, Runtime.chase, ha,
        hplain.notHooked]

theorem chase_plain (h : Sim D Deopt clone s t) (p : Fin n) :
    t.chase t.methods.length p = some (p : ℕ) := by
  obtain ⟨m, hm, hplain, -⟩ := h.methods p
  have hlt := (List.getElem?_eq_some_iff.mp hm).1
  obtain ⟨l, hl⟩ : ∃ l, t.methods.length = l + 1 := ⟨_, (Nat.succ_pred (by omega)).symm⟩
  rw [hl, Runtime.chase, hm]
  simp [hplain.notHooked]

theorem isDeoptimized (h : Sim D Deopt clone s t) (p : Fin n) :
    s.isDeoptimized ((clone p).getD p) = t.isDeoptimized p := by
  rw [Runtime.isDeoptimized, Runtime.isDeoptimized, h.deoptimizedMethods]
  cases hc : clone p with
  | none => rfl
  | some a =>
    -- neither the clone nor the hooked method is ever deoptimised
    have hclone : a ∉ t.deoptimizedMethods := by
      intro ha
      obtain ⟨q, -, rfl⟩ := h.deoptimized a ha
      exact absurd (h.le_clone hc) (Nat.not_le_of_lt q.isLt)
    have hp : (p : ℕ) ∉ t.deoptimizedMethods := by
      intro hp
      obtain ⟨q, hq, heq⟩ := h.deoptimized p hp
      exact (h.hooked p a hc).1 (Fin.ext heq ▸ hq)
    rw [Option.getD_some, List.contains_eq_mem, List.contains_eq_mem, decide_eq_false hclone,
      decide_eq_false hp]

/-- A field that a hook does not touch. -/
theorem map_getElem? (h : Sim D Deopt clone s t) {α : Type} {f : ArtMethod k Info → α}
    (hf : ∀ h m a, Covers h m a → f h = f m) (p : Fin n) :
    (s.methods[(p : ℕ)]?).map f = (t.methods[(p : ℕ)]?).map f := by
  obtain ⟨m, hm, -, hat⟩ := h.methods p
  rw [hm]
  generalize clone p = c at hat
  cases hat with
  | itself hp => rw [hp]
  | clone hp hcovers _ _ => rw [hp, Option.map_some, Option.map_some, hf _ _ _ hcovers]

theorem virtualIndices (h : Sim D Deopt clone s t) (K : Class n) :
    s.virtualIndices K = t.virtualIndices K :=
  List.map_congr_left fun p _ => h.map_getElem? (fun _ _ _ hcovers => hcovers.dexMethodIndex) p

theorem isInitialized (h : Sim D Deopt clone s t) (c : Fin k) :
    s.isInitialized c = t.isInitialized c := by
  rw [Runtime.isInitialized, Runtime.isInitialized, h.status]

theorem isLoaded (h : Sim D Deopt clone s t) (p : Fin n) : s.isLoaded p = t.isLoaded p := by
  have hclass := h.map_getElem? (fun _ _ _ hcovers => hcovers.declaringClass) p
  rw [Runtime.isLoaded, Runtime.isLoaded, h.status]
  obtain ⟨m, hm, -, -⟩ := h.methods p
  rw [hm] at hclass
  obtain ⟨m₀, hm₀, heq⟩ := Option.map_eq_some_iff.mp hclass
  rw [hm, hm₀, Option.any_some, Option.any_some, heq]

theorem isNativeOrHooksNative (h : Sim D Deopt clone s t) (p : Fin n) :
    s.isNativeOrHooksNative p = t.isNativeOrHooksNative p := by
  obtain ⟨m, hm, hplain, hat⟩ := h.methods p
  have ht : t.isNativeOrHooksNative p = some m.isNative := by
    rw [Runtime.isNativeOrHooksNative, hm]
    cases hnative : m.isNative <;> simp [hnative, hplain.notHooked]
  rw [ht]
  generalize clone p = c at hat
  cases hat with
  | itself hp =>
    rw [Runtime.isNativeOrHooksNative, hp]
    cases hnative : m.isNative <;> simp [hnative, hplain.notHooked]
  | clone hp hcovers hle ha =>
    obtain ⟨additionalInfo, hinfo⟩ := hcovers.info
    rw [Runtime.isNativeOrHooksNative, hp]
    simp [hcovers.isNative, hcovers.hooked, ArtMethod.getXposedHookInfo, hinfo, ha]

/-! ## A method that is not hooked -/

theorem getElem?_eq (h : Sim D Deopt clone s t) {p : Fin n} (hp : clone p = none) :
    s.methods[(p : ℕ)]? = t.methods[(p : ℕ)]? := by
  obtain ⟨m, hm, -, hat⟩ := h.methods p
  rw [hp] at hat
  cases hat with
  | itself hat => rw [hm, hat]

theorem isDeoptimized_eq (h : Sim D Deopt clone s t) {p : Fin n} (hp : clone p = none) :
    s.isDeoptimized p = t.isDeoptimized p := by
  have hdeopt := h.isDeoptimized p
  rw [hp] at hdeopt
  exact hdeopt

theorem modify_eq (h : Sim D Deopt clone s t) {p : Fin n} (hp : clone p = none)
    {f : ArtMethod k Info → Option (ArtMethod k Info)}
    (hstays : ∀ m m', f m = some m' → m.Stays m') :
    Option.Rel (Sim D Deopt clone) (s.modify p f) (t.modify p f) := by
  have hmodify := h.modify p hstays (.inl hp)
  rw [hp] at hmodify
  exact hmodify

/-! ## The rest of the state -/

theorem withInstrumentation (h : Sim D Deopt clone s t) (I : Instrumentation) :
    Sim D Deopt clone { s with instrumentation := I } { t with instrumentation := I } :=
  { h with instrumentation := rfl }

theorem withStatus (h : Sim D Deopt clone s t) (c : Fin k) (st : Status)
    (hst : st ≠ .absent) : Sim D Deopt clone { s with status := Function.update s.status c st }
      { t with status := Function.update t.status c st } := by
  refine { h with status := by rw [h.status], hooked := fun p a hp => ?_ }
  refine ⟨(h.hooked p a hp).1, ?_⟩
  by_cases hc : (D.declared p).declaringClass = c
  · simpa [hc] using hst
  · simpa [hc] using (h.hooked p a hp).2

theorem withDeoptimized (h : Sim D Deopt clone s t) {l : List Ptr}
    (hl : ∀ q ∈ l, ∃ p : Fin n, Deopt p ∧ (p : ℕ) = q) :
    Sim D Deopt clone { s with deoptimizedMethods := l } { t with deoptimizedMethods := l } :=
  { h with deoptimizedMethods := rfl, deoptimized := hl }

/-! ## What both runtimes do -/

theorem installStubsForMethod (h : Sim D Deopt clone s t) (p : Fin n) :
    Option.Rel (Sim D Deopt clone) (s.installStubsForMethod D p)
      (t.installStubsForMethod D p) := by
  rw [Runtime.installStubsForMethod, Runtime.installStubsForMethod, h.original_hooked,
    h.original_plain]
  simp only [Option.bind_eq_bind, Option.bind_some, h.isDeoptimized, h.instrumentation,
    h.isInitialized, h.virtualIndices]
  exact h.modify p (fun _ _ => ArtMethod.stays_installStubs)
    (.inr fun m => m.installStubs_backup ..)

theorem installStubsForClass (h : Sim D Deopt clone s t) (c : Fin k) :
    Option.Rel (Sim D Deopt clone) (s.installStubsForClass D c) (t.installStubsForClass D c) := by
  rw [Runtime.installStubsForClass, Runtime.installStubsForClass, h.status]
  split
  · exact .some h
  · exact rel_foldlM (fun p _ _ _ h => h.installStubsForMethod p) h

theorem installStubsForClasses (h : Sim D Deopt clone s t) :
    Option.Rel (Sim D Deopt clone) (s.installStubsForClasses D) (t.installStubsForClasses D) :=
  rel_foldlM (fun c _ _ _ h => h.installStubsForClass c) h

theorem configureStubs (h : Sim D Deopt clone s t)
    (requireEntryExitStubs requireInterpreter : Bool) : Option.Rel (Sim D Deopt clone)
      (s.configureStubs D requireEntryExitStubs requireInterpreter)
      (t.configureStubs D requireEntryExitStubs requireInterpreter) := by
  simp only [Runtime.configureStubs, h.instrumentation]
  split
  · exact .some (h.withInstrumentation _)
  split
  · exact rel_map (h.withInstrumentation _).installStubsForClasses
      fun _ _ h => h.withInstrumentation _
  · refine rel_map (h.withInstrumentation _).installStubsForClasses fun s t h => ?_
    rw [show s.deoptimizedMethods.isEmpty = t.deoptimizedMethods.isEmpty by
      rw [h.deoptimizedMethods]]
    split
    · exact h.withInstrumentation _
    · exact h

theorem fixupStaticTrampoline (h : Sim D Deopt clone s t) (c : Fin k) (p : Fin n)
    (methodIndex : ℕ) : Option.Rel (Sim D Deopt clone) (s.fixupStaticTrampoline D c p methodIndex)
      (t.fixupStaticTrampoline D c p methodIndex) := by
  have hstatic := h.map_getElem? (fun _ _ _ hcovers => hcovers.isStatic) p
  obtain ⟨m, hm, -, hat⟩ := h.methods p
  rw [hm] at hstatic
  obtain ⟨m₀, hm₀, heq⟩ := Option.map_eq_some_iff.mp hstatic
  rw [Runtime.fixupStaticTrampoline, Runtime.fixupStaticTrampoline, hm, hm₀, h.original_hooked,
    h.original_plain]
  simp only [Option.bind_eq_bind, Option.bind_some, heq, h.isDeoptimized, h.instrumentation]
  split
  · exact .some h
  · refine h.modify p (fun m m' hm' => ?_) (.inr fun m => congrArg some (m.fixup_backup ..))
    exact Option.some.inj hm' ▸ ArtMethod.stays_updateMethodsCode ..

theorem initializeClass (h : Sim D Deopt clone s t) (c : Fin k) :
    Option.Rel (Sim D Deopt clone) (s.initializeClass D c) (t.initializeClass D c) := by
  rw [Runtime.initializeClass, Runtime.initializeClass, h.status]
  split
  · have hst := h.withStatus c .initialized (by simp)
    rw [← h.status]
    rw [← h.status] at hst
    rw [Runtime.fixupStaticTrampolines, Runtime.fixupStaticTrampolines]
    split
    · exact .some hst
    · exact rel_foldlM (fun x _ _ _ h => h.fixupStaticTrampoline c x.1 x.2) hst
  · exact .some h

/-- The methods of a class that is not there are not hooked. -/
theorem clone_eq_none (h : Sim D Deopt clone s t) {c : Fin k} (hc : t.status c = .absent)
    {p : Fin n} (hp : p ∈ (D.classes c).directMethods ++ (D.classes c).virtualMethods) :
    clone p = none := by
  cases hclone : clone p with
  | none => rfl
  | some a =>
    have hstatus := (h.hooked p a hclone).2
    rw [D.declares c p hp] at hstatus
    exact absurd hc hstatus

theorem loadClass (h : Sim D Deopt clone s t) (c : Fin k) :
    Option.Rel (Sim D Deopt clone) (s.loadClass D c) (t.loadClass D c) := by
  rw [Runtime.loadClass, Runtime.loadClass, h.status]
  split
  · next hc =>
    have hst := h.withStatus c .loaded (by simp)
    rw [← h.status]
    rw [← h.status] at hst
    refine rel_foldlM (fun x hx s t h' => ?_) hst
    have hnone := h.clone_eq_none hc (List.fst_mem_of_mem_zipIdx hx)
    rw [h'.instrumentation, h'.isDeoptimized_eq hnone]
    exact h'.modify_eq hnone fun _ _ => ArtMethod.stays_linkCode
  · exact .some h

theorem registerNative (h : Sim D Deopt clone s t) (p : Fin n) (fnPtr : ℕ) (isFast : Bool) :
    Option.Rel (Sim D Deopt clone) (s.registerNative p (.function fnPtr) isFast)
      (t.registerNative p (.function fnPtr) isFast) := by
  rw [Runtime.registerNative, Runtime.registerNative, h.chase_hooked, h.chase_plain]
  exact h.modify p (fun _ _ => ArtMethod.stays_registerNative (by simp))
    (.inr fun m => m.registerNative_backup (.function fnPtr) isFast)

theorem unregisterNative (h : Sim D Deopt clone s t) (p : Fin n) :
    Option.Rel (Sim D Deopt clone) (s.unregisterNative p) (t.unregisterNative p) := by
  rw [Runtime.unregisterNative, Runtime.unregisterNative, h.chase_hooked, h.chase_plain]
  exact h.modify p (fun _ _ => ArtMethod.stays_unregisterNative)
    (.inr fun m => m.unregisterNative_backup)

theorem registerNatives (h : Sim D Deopt clone s t) (c : Fin k) (xs : List Runtime.NativeMethod) :
    Option.Rel (fun x y => Sim D Deopt clone x.1 y.1 ∧ x.2 = y.2)
      (Runtime.registerNatives D c xs s) (Runtime.registerNatives D c xs t) := by
  induction xs generalizing s t with
  | nil => exact .some ⟨h, rfl⟩
  | cons x xs ih =>
    rw [Runtime.registerNatives, Runtime.registerNatives]
    cases x.resolve (D.classes c) with
    | none => exact .some ⟨h, rfl⟩
    | some y =>
      obtain ⟨p, fnPtr, isFast⟩ := y
      simp only [h.isNativeOrHooksNative]
      cases t.isNativeOrHooksNative p with
      | none => exact .none
      | some b =>
        cases b with
        | false => exact .some ⟨h, rfl⟩
        | true =>
          have hrest := rel_bind (h.registerNative p fnPtr isFast) fun _ _ h => ih h
          exact hrest

theorem unregisterNatives (h : Sim D Deopt clone s t) (c : Fin k) :
    Option.Rel (Sim D Deopt clone) (s.unregisterNatives D c) (t.unregisterNatives D c) := by
  refine rel_foldlM (fun p _ s t h => ?_) h
  rw [h.isNativeOrHooksNative]
  cases t.isNativeOrHooksNative p with
  | none => exact .none
  | some b =>
    cases b with
    | false => exact .some h
    | true => exact h.unregisterNative p

/-- Only methods that are not hooked are deoptimised one by one. -/
theorem clone_eq_none_of_deopt (h : Sim D Deopt clone s t) {p : Fin n} (hp : Deopt p) :
    clone p = none := by
  cases hc : clone p with
  | none => rfl
  | some a => exact absurd hp (h.hooked p a hc).1

theorem deoptimize (h : Sim D Deopt clone s t) {p : Fin n} (hp : Deopt p) :
    Option.Rel (Sim D Deopt clone) (s.deoptimize D p) (t.deoptimize D p) := by
  have hnone := h.clone_eq_none_of_deopt hp
  obtain ⟨m, hm, -, -⟩ := h.methods p
  rw [Runtime.deoptimize, Runtime.deoptimize, h.getElem?_eq hnone, hm]
  simp only [Option.bind_eq_bind, Option.bind_some, h.isDeoptimized_eq hnone, h.instrumentation,
    h.deoptimizedMethods]
  split
  · exact .none
  have hdeopt := h.withDeoptimized (l := p :: t.deoptimizedMethods)
    (List.forall_mem_cons.mpr ⟨⟨p, hp, rfl⟩, h.deoptimized⟩)
  split
  · rw [← h.instrumentation]
    rw [← h.instrumentation] at hdeopt
    exact .some hdeopt
  · refine (hdeopt.withInstrumentation _).modify_eq hnone fun m m' hm' => ?_
    exact Option.some.inj hm' ▸ ArtMethod.stays_updateEntrypoints ..

theorem restoredCode (h : Sim D Deopt clone s t) (m : ArtMethod k Info) :
    s.restoredCode D m = t.restoredCode D m := by
  simp only [Runtime.restoredCode, h.isInitialized, h.virtualIndices]

theorem undeoptimize (h : Sim D Deopt clone s t) (p : Fin n) :
    Option.Rel (Sim D Deopt clone) (s.undeoptimize D p) (t.undeoptimize D p) := by
  obtain ⟨m, hm, -, hat⟩ := h.methods p
  cases hc : clone p with
  | some a =>
    -- a hooked method passes for a proxy, and a plain one has not been deoptimised
    rw [hc] at hat
    have hdeopt : t.isDeoptimized p = false := by
      rw [Runtime.isDeoptimized, List.contains_eq_mem, decide_eq_false_iff_not]
      intro hp
      obtain ⟨q, hq, heq⟩ := h.deoptimized p hp
      exact (h.hooked p a hc).1 (Fin.ext heq ▸ hq)
    cases hat with
    | clone hp hcovers hle ha =>
      rw [Runtime.undeoptimize, Runtime.undeoptimize, hp, hm]
      simp only [Option.bind_eq_bind, Option.bind_some, Runtime.mayDeoptimize,
        ArtMethod.isProxyMethod, hcovers.hooked, hdeopt, Bool.or_true, Bool.not_true,
        Bool.and_false, Bool.false_and, Bool.not_false, Bool.true_or, if_true]
      exact .none
  | none =>
    rw [Runtime.undeoptimize, Runtime.undeoptimize, h.getElem?_eq hc, hm]
    simp only [Option.bind_eq_bind, Option.bind_some, h.isDeoptimized_eq hc, h.instrumentation,
      h.deoptimizedMethods, h.restoredCode]
    split
    · exact .none
    have hdeopt := h.withDeoptimized (l := t.deoptimizedMethods.erase p)
      fun q hq => h.deoptimized q (List.mem_of_mem_erase hq)
    have hstays : ∀ m m' : ArtMethod k Info, ((t.restoredCode D m).map fun quickCode =>
        m.updateEntrypoints t.instrumentation (D.classes m.declaringClass) (some quickCode)) =
          some m' → m.Stays m' := by
      intro m m' hm'
      obtain ⟨quickCode, -, heq⟩ := Option.map_eq_some_iff.mp hm'
      exact heq ▸ ArtMethod.stays_updateEntrypoints ..
    split
    · rw [← h.instrumentation]
      rw [← h.instrumentation] at hdeopt
      exact .some hdeopt
    split
    · exact (hdeopt.withInstrumentation _).modify_eq hc hstays
    · rw [← h.instrumentation] at hdeopt ⊢
      exact hdeopt.modify_eq hc (h.instrumentation ▸ hstays)

/-! ## What only the runtime with hooks does -/

theorem le_length (h : Sim D Deopt clone s t) : n ≤ s.methods.length := by
  by_contra hlt
  obtain ⟨m, -, -, hat⟩ := h.methods ⟨s.methods.length, by omega⟩
  generalize clone _ = c at hat
  cases hat with
  | itself hp => simp at hp
  | clone hp => simp at hp

/-- A hook adds a clone to the method that is hooked. -/
theorem install (h : Sim D Deopt clone s t) {p : Fin n} {m : ArtMethod k Info}
    (hnone : clone p = none) (hm : t.methods[(p : ℕ)]? = some m) (hdeopt : ¬ Deopt p)
    (hstatus : t.status (D.declared p).declaringClass ≠ .absent) (additionalInfo : Info) :
    Sim D Deopt (Function.update clone p (some s.methods.length))
      (s.install p m additionalInfo) t := by
  have hms := (h.getElem?_eq hnone).trans hm
  have hfresh : ∀ q, clone q ≠ some s.methods.length := by
    intro q hq
    obtain ⟨mq, -, -, hat⟩ := h.methods q
    have hlt := (List.getElem?_eq_some_iff.mp hat.getElem?).1
    rw [hq] at hlt
    exact absurd hlt (Nat.lt_irrefl _)
  refine { h with methods := fun q => ?_, apart := fun q r a hq hr => ?_,
                  clones := fun a x hle ha => ?_, hooked := fun q a hq => ?_ }
  · obtain ⟨mq, hmq, hplain, hat⟩ := h.methods q
    refine ⟨mq, hmq, hplain, ?_⟩
    by_cases hpq : q = p
    · subst hpq
      obtain rfl := Option.some.inj (hm.symm.trans hmq)
      rw [Function.update_self]
      refine .clone (Runtime.getElem?_install_self additionalInfo hms) ?_ h.le_length
        (Runtime.getElem?_install_clone additionalInfo hms)
      exact ⟨ArtMethod.isXposedHookedMethod_intercepted _, ArtMethod.isNative_intercepted _,
        ArtMethod.isStatic_intercepted _, rfl, rfl, ⟨_, rfl⟩, rfl, rfl⟩
    · have hne : (p : ℕ) ≠ q := fun heq => hpq (Fin.ext heq.symm)
      rw [Function.update_of_ne hpq]
      exact hat.install hne
        (fun b hb => Nat.ne_of_lt (Nat.lt_of_lt_of_le p.isLt (h.le_clone hb))) additionalInfo
  · by_cases hqp : q = p <;> by_cases hrp : r = p
    · rw [hqp, hrp]
    · subst hqp
      rw [Function.update_self] at hq
      rw [Function.update_of_ne hrp] at hr
      exact absurd (hr.trans hq.symm) (hfresh r)
    · subst hrp
      rw [Function.update_self] at hr
      rw [Function.update_of_ne hqp] at hq
      exact absurd (hq.trans hr.symm) (hfresh q)
    · rw [Function.update_of_ne hqp] at hq
      rw [Function.update_of_ne hrp] at hr
      exact h.apart q r a hq hr
  · have hlt := (List.getElem?_eq_some_iff.mp ha).1
    rw [Runtime.length_install] at hlt
    rcases Nat.lt_succ_iff_lt_or_eq.mp hlt with hlt | rfl
    · obtain ⟨q, hq⟩ := h.clones a _ hle (List.getElem?_eq_getElem hlt)
      have hne : q ≠ p := by
        rintro rfl
        exact absurd (hnone.symm.trans hq) (by simp)
      exact ⟨q, by rw [Function.update_of_ne hne, hq]⟩
    · exact ⟨p, Function.update_self ..⟩
  · by_cases hqp : q = p
    · exact hqp ▸ ⟨hdeopt, hstatus⟩
    · rw [Function.update_of_ne hqp] at hq
      exact h.hooked q a hq

/-- A method is a plain one, a hooked one or a clone. -/
theorem kinds (h : Sim D Deopt clone s t) {p : Ptr} {m : ArtMethod k Info}
    (hm : s.methods[p]? = some m) :
    (∃ q : Fin n, (q : ℕ) = p ∧ clone q = none ∧ t.methods[p]? = some m ∧ Plain D q m) ∨
      (∃ (q : Fin n) (mt : ArtMethod k Info) (a : Ptr), (q : ℕ) = p ∧ Covers m mt a) ∨
      ∃ (q : Fin n) (mt : ArtMethod k Info), m = mt.backup ∧ Plain D q mt := by
  by_cases hlt : p < n
  · obtain ⟨mt, hmt, hplain, hat⟩ := h.methods ⟨p, hlt⟩
    generalize hc : clone ⟨p, hlt⟩ = c at hat
    cases hat with
    | itself hp =>
      obtain rfl := Option.some.inj (hm.symm.trans hp)
      exact .inl ⟨⟨p, hlt⟩, rfl, hc, hmt, hplain⟩
    | clone hp hcovers _ _ =>
      obtain rfl := Option.some.inj (hm.symm.trans hp)
      exact .inr (.inl ⟨⟨p, hlt⟩, mt, _, rfl, hcovers⟩)
  · obtain ⟨q, hq⟩ := h.clones p m (Nat.le_of_not_lt hlt) hm
    obtain ⟨mt, -, hplain, hat⟩ := h.methods q
    rw [hq] at hat
    cases hat with
    | clone _ _ _ ha => exact .inr (.inr ⟨q, mt, Option.some.inj (hm.symm.trans ha), hplain⟩)

theorem hook (h : Sim D Deopt clone s t) {p : Ptr} (hp : ∀ q : Fin n, (q : ℕ) = p → ¬ Deopt q)
    (hloaded : s.isLoaded p = true) (additionalInfo : Info) :
    ∃ s' r, s.enableXposedHook p additionalInfo = some (s', r) ∧
      ∃ clone', Sim D Deopt clone' s' t := by
  obtain ⟨m, hm, hstatus⟩ := Runtime.exists_of_isLoaded hloaded
  rw [Runtime.enableXposedHook]
  rcases Runtime.enableUntilResumeAll_cases additionalInfo hm with
    ⟨-, heq⟩ | ⟨-, -, heq⟩ | ⟨hhooked, hclone, heq⟩
  · exact ⟨s, _, congrArg _ heq, clone, h⟩
  · exact ⟨s, _, congrArg _ heq, clone, h⟩
  · rcases h.kinds hm with ⟨q, rfl, hc, hmt, hplain⟩ | ⟨q, mt, a, -, hcovers⟩ | ⟨q, mt, rfl, -⟩
    · rw [h.status, hplain.declaringClass] at hstatus
      exact ⟨_, _, congrArg _ heq, _, h.install hc hmt (hp q rfl) hstatus additionalInfo⟩
    · exact absurd (hcovers.hooked.symm.trans hhooked) (by simp)
    · exact absurd (mt.isXposedOriginalMethod_backup.symm.trans hclone) (by simp)

theorem invokeOriginalMethodNative (h : Sim D Deopt clone s t) {p : Ptr}
    (hloaded : s.isLoaded p = true) (isResolved : Bool) :
    ∃ q, s.invokeOriginalMethodNative p isResolved = some q := by
  obtain ⟨m, hm, -⟩ := Runtime.exists_of_isLoaded hloaded
  rw [Runtime.invokeOriginalMethodNative, hm]
  cases isResolved with
  | true => exact ⟨p, rfl⟩
  | false =>
    simp only [Bool.false_eq_true, if_false, Option.bind_eq_bind, Option.bind_some]
    rcases h.kinds hm with ⟨q, rfl, -, -, hplain⟩ | ⟨q, mt, a, -, hcovers⟩ | ⟨q, mt, rfl, hplain⟩
    · exact ⟨_, if_neg (by simp [hplain.notHooked])⟩
    · obtain ⟨additionalInfo, hinfo⟩ := hcovers.info
      rw [if_pos hcovers.hooked, ArtMethod.getXposedHookInfo, hinfo]
      exact ⟨a, rfl⟩
    · exact ⟨p, if_neg (by simp [hplain.notHooked])⟩

theorem withThreads (h : Sim D Deopt clone s t) (threadList : List (List Frame)) :
    Sim D Deopt clone { s with threadList := threadList } t :=
  { h with status := h.status }

end Sim

theorem sim_boot (D : Dex n k) (Deopt : Fin n → Prop) (forcedInterpretOnly : Bool) (threads : ℕ) :
    Sim D Deopt (fun _ => none) (boot D forcedInterpretOnly threads : Runtime k Info)
      (boot D forcedInterpretOnly threads) where
  status := rfl
  instrumentation := rfl
  deoptimizedMethods := rfl
  deoptimized := by simp [boot]
  methods p := by
    have hp : (boot D forcedInterpretOnly threads : Runtime k Info).methods[(p : ℕ)]? =
        some (D.declared p).unlinked := by simp [boot]
    exact ⟨_, hp, ⟨(D.declared p).has_unlinked (by decide), (D.declared p).has_unlinked (by decide),
      rfl⟩, .itself hp⟩
  apart := by simp
  clones a m hle ha := by
    have hlt := (List.getElem?_eq_some_iff.mp ha).1
    simp only [boot, List.length_ofFn] at hlt
    omega
  hooked := by simp

/-! ## Runs -/

/-- What is left of a run without hooks, and without the calls, which change
no method. -/
def Op.unhooked : Op n k Info → Option (Op n k Info)
  | .hook .. | .call .. | .invokeOriginal .. | .leave .. => none
  | op => some op

/-- What is left of the outputs without hooks. -/
def Out.unhooked : Out Info → Option (Out Info)
  | .hooking .. => none
  | .jni result => some (.jni result)

/-- A step that both runtimes take. -/
theorem Sim.step {D : Dex n k} {Deopt : Fin n → Prop} {clone : Fin n → Option Ptr}
    {s t : Runtime k Info} (h : Sim D Deopt clone s t) {op op' : Op n k Info}
    (hop : op.unhooked = some op') (hdeopt : ∀ p, op = .deoptimize p → Deopt p) :
    Option.Rel (fun x y => Sim D Deopt clone x.1 y.1 ∧ x.2.filterMap Out.unhooked = y.2)
      (s.step D op) (t.step D op') := by
  cases op with
  | loadClass c =>
    obtain rfl := Option.some.inj hop
    exact rel_map (h.loadClass c) fun _ _ h => ⟨h, rfl⟩
  | initializeClass c =>
    obtain rfl := Option.some.inj hop
    exact rel_map (h.initializeClass c) fun _ _ h => ⟨h, rfl⟩
  | registerNatives c xs =>
    obtain rfl := Option.some.inj hop
    rw [Runtime.step, Runtime.step, h.status]
    split
    · exact .some ⟨h, rfl⟩
    · refine rel_map (h.registerNatives c xs) fun x y hxy => ⟨hxy.1, ?_⟩
      rw [hxy.2]
      rfl
  | unregisterNatives c =>
    obtain rfl := Option.some.inj hop
    rw [Runtime.step, Runtime.step, h.status]
    split
    · exact .some ⟨h, rfl⟩
    · exact rel_map (h.unregisterNatives c) fun _ _ h => ⟨h, rfl⟩
  | configureStubs entryExit interpreter =>
    obtain rfl := Option.some.inj hop
    exact rel_map (h.configureStubs entryExit interpreter) fun _ _ h => ⟨h, rfl⟩
  | deoptimize p =>
    obtain rfl := Option.some.inj hop
    rw [Runtime.step, Runtime.step, h.isLoaded]
    split
    · exact rel_map (h.deoptimize (hdeopt p rfl)) fun _ _ h => ⟨h, rfl⟩
    · exact .some ⟨h, rfl⟩
  | undeoptimize p =>
    obtain rfl := Option.some.inj hop
    rw [Runtime.step, Runtime.step, h.isLoaded]
    split
    · exact rel_map (h.undeoptimize p) fun _ _ h => ⟨h, rfl⟩
    · exact .some ⟨h, rfl⟩
  | hook | call | invokeOriginal | leave => cases hop

/-- Where the original of a declared method is: it is the method itself, or the
clone that the hook keeps. A hooked method leads to the handler, and to the
clone from there. -/
inductive Original (s : Runtime k Info) (p : Fin n) (m : ArtMethod k Info) : Prop
  | itself (hp : s.methods[(p : ℕ)]? = some m) (hm : m.isXposedHookedMethod = false)
  | clone {h : ArtMethod k Info} {info : XposedHookInfo Info} (hp : s.methods[(p : ℕ)]? = some h)
      (hhooked : h.isXposedHookedMethod = true) (hinfo : h.entryPointFromJni = .hookInfo info)
      (hquick : h.entryPointFromQuickCompiledCode = some .proxyInvokeHandler)
      (hinterpreter : h.entryPointFromInterpreter = .toCompiledCode)
      (hreflected : info.reflectedMethod = ⟨m.isConstructor, info.originalMethod⟩)
      (horiginal : s.methods[info.originalMethod]? = some m.backup)

theorem Sim.original {D : Dex n k} {Deopt : Fin n → Prop} {clone : Fin n → Option Ptr}
    {s t : Runtime k Info} (h : Sim D Deopt clone s t) (p : Fin n) :
    ∃ m, t.methods[(p : ℕ)]? = some m ∧ Original s p m := by
  obtain ⟨m, hm, hplain, hat⟩ := h.methods p
  refine ⟨m, hm, ?_⟩
  generalize clone p = c at hat
  cases hat with
  | itself hp => exact .itself hp hplain.notHooked
  | clone hp hcovers hle ha =>
    obtain ⟨additionalInfo, hinfo⟩ := hcovers.info
    exact .clone hp hcovers.hooked hinfo hcovers.quickCode hcovers.interpreter rfl ha

end Art

end Dynamicloader
