import Dynamicloader.Service.Loads
/-!
# The start watcher

A start broadcast puts its module among the pending ones, whether or not an
entry of the same key is still there, and every entry is sent when its
process is found running. So a broadcast is answered by one load command as
long as it is the only one whose entry is waiting, and by several otherwise.

The number of waiting entries that can be sent is a potential: no event but
a broadcast for the key raises it, and every load command for the key from
the pending list lowers it by one.
-/

namespace Dynamicloader

namespace Service

variable {cacheDir : String} {s s' : State} {a b : String} {mi : ModuleInfo}
variable {am : ℕ → ActivityManager}

/-- The service, with the load commands from the pending list as its only
outputs. -/
def watcher (cacheDir : String) : Machine State Event Load
  | s, .deliver .checkProcessWhetherExist am =>
    step cacheDir s (.deliver .checkProcessWhetherExist am)
  | s, e => ((step cacheDir s e).1, [])

/-- The event is a start broadcast for the key. -/
def Event.starts (a b : String) : Event → Prop
  | .receive action pkgName prName =>
    action = some actionAmsStartProcess ∧ pkgName = some a ∧ prName = some b
  | _ => False

/-- An entry of the key with a path that is neither null nor empty. -/
def ModuleInfo.sendsFor (a b : String) (mi : ModuleInfo) : Bool :=
  mi.pkgName = some a ∧ mi.processName = some b ∧ mi.modulePath ≠ none ∧ mi.modulePath ≠ some ""

theorem ModuleInfo.sendsFor_iff :
    mi.sendsFor a b = true ↔ mi.key = (some a, some b) ∧ Loadable mi.modulePath := by
  have hload : Loadable mi.modulePath ↔ mi.modulePath ≠ none ∧ mi.modulePath ≠ some "" := by
    rcases mi.modulePath with _ | path <;> simp [Loadable]
  rw [hload, sendsFor, decide_eq_true_iff, key, Prod.mk.injEq]
  tauto

/-! ## The potential -/

/-- The waiting entries that can be sent for the key. -/
def State.waiting (a b : String) (s : State) : ℕ := s.pendingModuleList.countP (·.sendsFor a b)

/-- The loop of the check: what it sends for the key it takes from the list. -/
theorem checkPending_countP (k : ℕ) (l : List ModuleInfo) :
    (checkPending am k l).2.countP (·.isFor (some a) (some b)) ≤ l.countP (·.sendsFor a b) ∧
      ∀ rest, (checkPending am k l).1 = .ok rest →
        (checkPending am k l).2.countP (·.isFor (some a) (some b)) + rest.countP (·.sendsFor a b) ≤
          l.countP (·.sendsFor a b) := by
  induction l generalizing k with
  | nil => simp [checkPending]
  | cons mi l ih =>
    obtain ⟨hle, hrest⟩ := ih (k + 1)
    rw [checkPending]
    split
    · rcases hsend : mi.send with e | load
      · simp
      · obtain ⟨hload, rfl⟩ := mi.send_ok hsend
        have hiff : mi.load.isFor (some a) (some b) = mi.sendsFor a b := by
          rw [Bool.eq_iff_iff, ModuleInfo.isFor_load, ModuleInfo.sendsFor_iff]
          exact ⟨fun h => ⟨h, hload⟩, And.left⟩
        simp only [List.countP_cons, hiff]
        refine ⟨by omega, fun rest hr => ?_⟩
        have := hrest rest hr
        omega
    · simp only [List.countP_cons]
      refine ⟨by omega, fun rest hr => ?_⟩
      rcases hr' : (checkPending am (k + 1) l).1 with e | rest'
      · simp [hr', Except.map] at hr
      · simp only [hr', Except.map, Except.ok.injEq] at hr
        subst hr
        have := hrest rest' hr'
        rw [List.countP_cons]
        omega

/-- The watcher is left as it was: its entries, its counter, and the
messages on their way to it. -/
structure SameWatch (s s' : State) : Prop where
  pending : s'.pendingModuleList = s.pendingModuleList
  checkNums : s'.checkNums = s.checkNums
  checks : s'.queue.count .checkProcessWhetherExist = s.queue.count .checkProcessWhetherExist

theorem SameWatch.refl (s : State) : SameWatch s s := ⟨rfl, rfl, rfl⟩

/-- Only the watcher's own message changes the watcher. -/
theorem handleMessage_sameWatch {what : What} (hwhat : what ≠ .checkProcessWhetherExist)
    (h : (handleMessage cacheDir what am s).1 = .ok s') : SameWatch s s' := by
  rcases handleMessage_other hwhat h with rfl | rfl
  · exact .refl s'
  · exact ⟨rfl, rfl, by simp⟩

theorem waiting_start (prefs : Prefs) : (start prefs).waiting a b = 0 := rfl

/-- The delivery of the watcher's message. -/
theorem watcher_deliver (s : State) (am : ℕ → ActivityManager) :
    (step cacheDir s (.deliver .checkProcessWhetherExist am)).2.countP
        (·.isFor (some a) (some b)) +
      (step cacheDir s (.deliver .checkProcessWhetherExist am)).1.waiting a b ≤ s.waiting a b := by
  rw [step]
  split
  · obtain ⟨hle, hrest⟩ :=
      @checkPending_countP a b am 0 s.pendingModuleList
    rcases hr : (checkPending am 0 s.pendingModuleList).1 with e | rest
    · simp only [handleMessage, hr, Except.map, waiting_start]
      exact hle
    · simp only [handleMessage, hr, Except.map]
      have := hrest rest hr
      split <;> exact this
  · simp

/-- The delivery of another message. -/
theorem waiting_deliver {what : What} (hwhat : what ≠ .checkProcessWhetherExist) :
    (step cacheDir s (.deliver what am)).1.waiting a b ≤ s.waiting a b := by
  rw [step]
  split
  · rcases hr : handleMessage cacheDir what am { s with queue := s.queue.erase what } with ⟨r, loads⟩
    rcases r with e | s'
    · exact Nat.zero_le _
    · have hsame := handleMessage_sameWatch hwhat (congrArg Prod.fst hr)
      simp only [State.waiting, hsame.pending, Nat.le_refl]
  · exact Nat.le_refl _

/-- **Only a broadcast for the key adds to what can be sent.** -/
theorem watcher_potential (s : State) (e : Event) (he : ¬ e.starts a b) :
    (watcher cacheDir s e).2.countP (·.isFor (some a) (some b)) +
      (watcher cacheDir s e).1.waiting a b ≤ s.waiting a b := by
  cases e with
  | addModule caller p q m =>
    simp only [watcher, step, State.waiting, addModule_pending, List.countP_nil, Nat.zero_add,
      Nat.le_refl]
  | removeModule caller p q =>
    rcases removeModule_cases caller p q s with ⟨mi, -, heq⟩ | ⟨heq, -⟩ <;>
      simp [watcher, step, heq, State.waiting, State.unregister]
  | receive action p q =>
    simp only [watcher, step, List.countP_nil, Nat.zero_add]
    rcases hr : onReceive action p q s with e | s'
    · exact Nat.zero_le _
    · rcases onReceive_ok hr with rfl | ⟨mi, haction, hreg, rfl⟩
      · exact Nat.le_refl _
      · -- the entry that is put there is one of another key
        have hnot : mi.sendsFor a b = false := by
          rw [Bool.eq_false_iff]
          intro hsends
          have hkey := (ModuleInfo.sendsFor_iff.mp hsends).1
          rw [(registered_eq_some hreg).2, Prod.mk.injEq] at hkey
          exact he ⟨haction, hkey.1, hkey.2⟩
        simp [State.waiting, State.watch, List.countP_append, hnot]
  | deliver what am =>
    by_cases hwhat : what = .checkProcessWhetherExist
    · subst hwhat
      exact watcher_deliver s am
    · have h : (step cacheDir s (.deliver what am)).1.waiting a b ≤ s.waiting a b :=
        waiting_deliver hwhat
      cases what with
      | checkProcessWhetherExist => exact absurd rfl hwhat
      | _ => simpa only [watcher, List.countP_nil, Nat.zero_add] using h
  | restart => exact Nat.zero_le _

/-! ## Sending what waits -/

/-- A check that finds one pending process running. The check is made again
if modules stay, for the first five times. -/
theorem deliver_onlyAt {l₁ l₂ : List ModuleInfo} {x : String}
    (hq : What.checkProcessWhetherExist ∈ s.queue) (hl : s.pendingModuleList = l₁ ++ mi :: l₂)
    (hproc : mi.processName = some x) (hload : Loadable mi.modulePath) :
    ∃ s', step cacheDir s (.deliver .checkProcessWhetherExist (onlyAt l₁.length x)) =
        (s', [mi.load]) ∧ s'.pendingModuleList = l₁ ++ l₂ ∧
      (l₁ ++ l₂ ≠ [] → s.checkNums < 5 → What.checkProcessWhetherExist ∈ s'.queue) := by
  have hcheck : checkPending (onlyAt l₁.length x) 0 (l₁ ++ mi :: l₂) =
      (.ok (l₁ ++ l₂), [mi.load]) := by
    have := checkPending_onlyAt hproc hload 0 l₁ l₂
    rwa [Nat.zero_add] at this
  rw [step, if_pos hq]
  simp only [handleMessage, hl, hcheck, Except.map]
  by_cases hagain : l₁ ++ l₂ ≠ [] ∧ s.checkNums < 5
  · rw [if_pos hagain]
    exact ⟨_, rfl, rfl, fun _ _ => by simp⟩
  · rw [if_neg hagain]
    exact ⟨_, rfl, rfl, fun hne hlt => absurd ⟨hne, hlt⟩ hagain⟩

/-- An entry that can be sent, with what stands around it. -/
theorem exists_sendsFor {l : List ModuleInfo} (h : 0 < l.countP (·.sendsFor a b)) :
    ∃ l₁ mi l₂, l = l₁ ++ mi :: l₂ ∧ mi.sendsFor a b = true ∧
      l.countP (·.sendsFor a b) = (l₁ ++ l₂).countP (·.sendsFor a b) + 1 := by
  obtain ⟨mi, hmem, hsends⟩ := List.countP_pos_iff.mp h
  obtain ⟨l₁, l₂, rfl⟩ := List.append_of_mem hmem
  refine ⟨l₁, mi, l₂, rfl, hsends, ?_⟩
  simp only [List.countP_append, List.countP_cons, hsends, ↓reduceIte]
  omega

/-- **Two waiting entries are both sent**, by the check that was scheduled
and the one after it. -/
theorem outputs_twice (hq : What.checkProcessWhetherExist ∈ s.queue) (hnums : s.checkNums < 5)
    (h : 2 ≤ s.waiting a b) :
    ∃ am am', ((watcher cacheDir).outputs s [.deliver .checkProcessWhetherExist am,
      .deliver .checkProcessWhetherExist am']).countP (·.isFor (some a) (some b)) = 2 := by
  obtain ⟨l₁, mi, l₂, hl, hsends, hcount⟩ :=
    exists_sendsFor (Nat.lt_of_lt_of_le Nat.two_pos h)
  have hrest : 0 < (l₁ ++ l₂).countP (·.sendsFor a b) := by
    rw [State.waiting] at h
    omega
  obtain ⟨hkey, hload⟩ := ModuleInfo.sendsFor_iff.mp hsends
  obtain ⟨s₁, hstep, hl₁, hq₁⟩ : ∃ s₁, step cacheDir s _ = _ ∧ _ :=
    deliver_onlyAt hq hl (Prod.mk.inj hkey).2 hload
  have hne : l₁ ++ l₂ ≠ [] := by
    intro hnil
    simp [hnil] at hrest
  obtain ⟨l₃, mi', l₄, hl', hsends', -⟩ := exists_sendsFor hrest
  obtain ⟨hkey', hload'⟩ := ModuleInfo.sendsFor_iff.mp hsends'
  obtain ⟨s₂, hstep₂, -, -⟩ : ∃ s₂, step cacheDir s₁ _ = _ ∧ _ :=
    deliver_onlyAt (hq₁ hne hnums) (hl₁.trans hl') (Prod.mk.inj hkey').2 hload'
  refine ⟨onlyAt l₁.length b, onlyAt l₃.length b, ?_⟩
  simp only [Machine.outputs_cons, Machine.outputs_nil, watcher, hstep, hstep₂]
  simp [ModuleInfo.isFor_load.mpr hkey, ModuleInfo.isFor_load.mpr hkey']

/-! ## One broadcast, one load command -/

/-- **A start is answered once.** From a start broadcast for a registered
module to the next one for the same key, whatever else happens, the pending
list yields at most one load command for the key, exactly when at most one
entry of it can be sent once the broadcast has put its own there. -/
theorem started_once_iff
    (hreg : registered (some a) (some b) s.moduleList = some mi) :
    (∀ es, (∀ e ∈ es, ¬ e.starts a b) →
      ((watcher cacheDir).outputs
        (step cacheDir s (.receive (some actionAmsStartProcess) (some a) (some b))).1 es).countP
          (·.isFor (some a) (some b)) ≤ 1) ↔
    (s.pendingModuleList ++ [mi]).countP (·.sendsFor a b) ≤ 1 := by
  have hwatch : (step cacheDir s
      (.receive (some actionAmsStartProcess) (some a) (some b))).1 = s.watch mi := by
    rw [step_receive hreg]
  rw [hwatch]
  change _ ↔ (s.watch mi).waiting a b ≤ 1
  constructor
  · intro hall
    by_contra hmore
    have hq : What.checkProcessWhetherExist ∈ (s.watch mi).queue := by simp [State.watch]
    have htwo : 2 ≤ (s.watch mi).waiting a b := by omega
    obtain ⟨am, am', hout⟩ : ∃ am am', ((watcher cacheDir).outputs (s.watch mi) _).countP _ = 2 :=
      outputs_twice hq (Nat.zero_lt_succ 4) htwo
    have hle := hall [.deliver .checkProcessWhetherExist am, .deliver .checkProcessWhetherExist am']
      (by simp [Event.starts])
    omega
  · intro hone es hes
    have hstep : ∀ (s : State) (e : Event), ¬ e.starts a b →
        (watcher cacheDir s e).2.countP (·.isFor (some a) (some b)) +
          (watcher cacheDir s e).1.waiting a b ≤ s.waiting a b := watcher_potential
    have hpot := Machine.outputs_potential hstep hes (s := s.watch mi)
    omega

/-- The process of the first broadcast dies before the check, and is started
again: its entry is still there, and the next check sends both. -/
theorem started_twice :
    let start : Event := .receive (some actionAmsStartProcess) (some "a") (some "b")
    let s := (step "/cache").run initial
      [.addModule systemCaller (some "a") (some "b") (some "/c.jar"), start,
        .deliver .checkProcessWhetherExist fun _ => ⟨none, some []⟩]
    (watcher "/cache").outputs (step "/cache" s start).1
        [.deliver .checkProcessWhetherExist fun _ => ⟨none, some [some "b"]⟩] =
      [⟨some "a", some "b", some "/c.jar"⟩, ⟨some "a", some "b", some "/c.jar"⟩] :=
  rfl

/-- A first start is answered once. -/
theorem started_once_first :
    let s := (step "/cache").run initial
      [.addModule systemCaller (some "a") (some "b") (some "/c.jar")]
    registered (some "a") (some "b") s.moduleList = some ⟨some "a", some "b", some "/c.jar"⟩ ∧
      ∀ es, (∀ e ∈ es, ¬ e.starts "a" "b") →
        ((watcher "/cache").outputs
          (step "/cache" s (.receive (some actionAmsStartProcess) (some "a") (some "b"))).1
            es).countP (·.isFor (some "a") (some "b")) ≤ 1 := by
  intro s
  have hreg : registered (some "a") (some "b") s.moduleList =
      some ⟨some "a", some "b", some "/c.jar"⟩ := rfl
  exact ⟨hreg, (started_once_iff hreg).mpr (by decide)⟩

end Service

end Dynamicloader
