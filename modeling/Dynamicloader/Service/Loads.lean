import Mathlib.Data.List.Nodup
import Dynamicloader.Service.Steps
/-!
# Load commands for a key

A key's load commands come from four places: the registry, the pending
list, the slot of the module added last, and the service's own module for
`system_server`. This file says which commands and which calls are about a
key, and how each of the four places is driven to its load command.
-/

namespace Dynamicloader

namespace Service

variable {cacheDir : String} {s s' : State} {p q m : Option String} {caller : Caller}

/-- The command is one for the key. -/
def Load.isFor (p q : Option String) (load : Load) : Bool :=
  load.packageName = p ∧ load.processName = q

/-- The event is a call of `addModule` for the key. -/
def Event.adds (p q : Option String) : Event → Prop
  | .addModule _ pkgName processName _ => pkgName = p ∧ processName = q
  | _ => False

/-- The event is a call of `addModule` or `removeModule` for the key. -/
def Event.changes (p q : Option String) : Event → Prop
  | .addModule _ pkgName processName _ => pkgName = p ∧ processName = q
  | .removeModule _ pkgName processName => pkgName = p ∧ processName = q
  | _ => False

theorem ModuleInfo.isFor_load {mi : ModuleInfo} :
    mi.load.isFor p q = true ↔ mi.key = (p, q) := by
  rw [Load.isFor, decide_eq_true_iff]
  exact ⟨fun h => Prod.ext h.1 h.2, Prod.mk.inj⟩

/-- Modules of one key in the registry are the same. -/
theorem Durable.eq_of_key (h : Durable s) {x y : ModuleInfo} (hx : x ∈ s.moduleList)
    (hy : y ∈ s.moduleList) (hkey : x.key = y.key) : x = y :=
  List.inj_on_of_nodup_map h.distinct hx hy hkey

/-! ## Driving the service to a load command -/

/-- A process that runs at question `k`, and at no other. -/
def onlyAt (k : ℕ) (procName : String) (j : ℕ) : ActivityManager :=
  ⟨none, if j = k then some [some procName] else none⟩

theorem query_onlyAt_self (k : ℕ) (x : String) :
    queryAllRunningAppInfo (some x) (onlyAt k x k) = true := by
  simp [queryAllRunningAppInfo, onlyAt, amongServices, amongProcesses]

theorem query_onlyAt_of_ne {j k : ℕ} (h : j ≠ k) (proc : Option String) (x : String) :
    queryAllRunningAppInfo proc (onlyAt k x j) = false := by
  cases proc <;> simp [queryAllRunningAppInfo, onlyAt, amongServices, amongProcesses, h]

theorem checkPending_idle {k j : ℕ} (h : k < j) (x : String) (l : List ModuleInfo) :
    checkPending (onlyAt k x) j l = (.ok l, []) := by
  induction l generalizing j with
  | nil => rfl
  | cons mi l ih =>
    rw [checkPending, query_onlyAt_of_ne (by omega), ih (by omega)]
    rfl

/-- Of the pending modules, the one whose process runs when it is asked for
is sent. -/
theorem checkPending_onlyAt {mi : ModuleInfo} {x : String} (hproc : mi.processName = some x)
    (hload : Loadable mi.modulePath) (k : ℕ) (l₁ l₂ : List ModuleInfo) :
    checkPending (onlyAt (k + l₁.length) x) k (l₁ ++ mi :: l₂) =
      (.ok (l₁ ++ l₂), [mi.load]) := by
  induction l₁ generalizing k with
  | nil =>
    rw [List.nil_append, checkPending, hproc, List.length_nil, Nat.add_zero, query_onlyAt_self,
      mi.send_of_loadable hload, checkPending_idle (Nat.lt_succ_self k)]
    rfl
  | cons mi' l₁ ih =>
    have hk : k + (mi' :: l₁).length = k + 1 + l₁.length := by
      rw [List.length_cons]
      omega
    rw [List.cons_append, checkPending, hk, query_onlyAt_of_ne (by omega), ih]
    rfl

/-- A start broadcast for a registered module. -/
theorem step_receive {a b : String} {mi : ModuleInfo}
    (h : registered (some a) (some b) s.moduleList = some mi) :
    step cacheDir s (.receive (some actionAmsStartProcess) (some a) (some b)) =
      (s.watch mi, []) := by
  simp [step, onReceive, equals, bind, Except.bind, firstMatch_isKey_some, h, pure, Except.pure,
    State.watch]

/-- A start broadcast, and the check it schedules. -/
def watchRun (a b : String) (am : ℕ → ActivityManager) : List Event :=
  [.receive (some actionAmsStartProcess) (some a) (some b), .deliver .checkProcessWhetherExist am]

/-- **A pending module can be sent**, as soon as any module is registered. -/
theorem outputs_pending {a b x : String} {mi mi' : ModuleInfo}
    (h : registered (some a) (some b) s.moduleList = some mi') (hmem : mi ∈ s.pendingModuleList)
    (hproc : mi.processName = some x) (hload : Loadable mi.modulePath) :
    ∃ am, (step cacheDir).outputs s (watchRun a b am) = [mi.load] := by
  obtain ⟨l₁, l₂, hl⟩ := List.append_of_mem hmem
  refine ⟨onlyAt (0 + l₁.length) x, ?_⟩
  have hpending : (s.watch mi').pendingModuleList = l₁ ++ mi :: (l₂ ++ [mi']) := by
    simp [State.watch, hl]
  have hq : What.checkProcessWhetherExist ∈ (s.watch mi').queue := by simp [State.watch]
  have hdeliver : (step cacheDir (s.watch mi')
      (.deliver .checkProcessWhetherExist (onlyAt (0 + l₁.length) x))).2 = [mi.load] := by
    rw [step, if_pos hq]
    simp only [handleMessage, hpending, checkPending_onlyAt hproc hload, Except.map]
  simp only [watchRun, Machine.outputs_cons, Machine.outputs_nil, step_receive h, hdeliver,
    List.nil_append, List.append_nil]

/-- The service's own module is sent after a restart. -/
theorem outputs_system (s : State) (am : ℕ → ActivityManager) :
    (step cacheDir).outputs s [.restart, .deliver .xloaderSystemServerStartprocess am] =
      [(systemModule cacheDir).load] := by
  have hload : Loadable (systemModule cacheDir).modulePath := by
    refine ⟨_, rfl, fun h => ?_⟩
    have := congrArg String.toList h
    simp at this
  simp [step, start, handleMessage, (systemModule cacheDir).send_of_loadable hload]

/-- The module added last is sent while its check is outstanding. -/
theorem outputs_added {mi : ModuleInfo} {x : String}
    (hq : What.checkProcessHadStartedBeforeAddmodule ∈ s.queue) (hcur : s.curAddModule = some mi)
    (hproc : mi.processName = some x) (hload : Loadable mi.modulePath) :
    (step cacheDir).outputs s
      [.deliver .checkProcessHadStartedBeforeAddmodule (onlyAt 0 x)] = [mi.load] := by
  simp [step, hq, handleMessage, hcur, hproc, query_onlyAt_self, mi.send_of_loadable hload]

/-- A caller signed like the system. -/
def systemCaller : Caller :=
  ⟨0, ⟨fun _ => some ["com.android.systemui"], fun _ => none, fun _ _ => 0⟩⟩

/-- Behind a permitted `addModule`, the key is registered. -/
theorem registered_addModule (a b : String) (m : Option String) (s : State) :
    ∃ mi, registered (some a) (some b)
      (addModule systemCaller (some a) (some b) m s).2.moduleList = some mi := by
  rcases addModule_cases systemCaller (some a) (some b) m s with ⟨-, heq⟩ | ⟨hreg, heq⟩
  · rw [heq]
    have hmem : (⟨some a, some b, m⟩ : ModuleInfo) ∈ (s.register ⟨some a, some b, m⟩).moduleList := by
      simp [State.register]
    exact registered_of_mem hmem rfl
  · rw [heq]
    rcases hr : registered (some a) (some b) s.moduleList with _ | mi
    · refine absurd ⟨rfl, ?_⟩ hreg
      rw [firstMatch_isKey_some, hr]
    · exact ⟨mi, rfl⟩

theorem addModule_pending (caller : Caller) (p q m : Option String) (s : State) :
    (addModule caller p q m s).2.pendingModuleList = s.pendingModuleList := by
  rcases addModule_cases caller p q m s with ⟨-, heq⟩ | ⟨-, heq⟩ <;> rw [heq]
  rfl

/-- Some package name differs from a given one. -/
theorem exists_other (p : Option String) : ∃ a : String, some a ≠ p := by
  by_cases h : some "a" = p
  · exact ⟨"b", by rw [← h]; decide⟩
  · exact ⟨"a", h⟩

end Service

end Dynamicloader
