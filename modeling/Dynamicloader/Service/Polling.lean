import Dynamicloader.Service.Watch
import Mathlib.Data.List.Perm.Subperm
/-!
# How long the watcher polls

Every start broadcast sends the watcher a message and sets its counter back;
a delivery sends the next one while entries are pending and the counter is
below five. The messages of several broadcasts are on their way at once and
share the counter.

`Log` records what the watcher has done: the broadcasts it has taken, the
deliveries, and for each entry how often it was examined and what became of
it. It is tied to the service: the entries that wait are the pending list,
and every entry that was sent has a load command of its own among those the
service has put out. The messages on their way and what the counter has left pay for the
deliveries to come (`State.left`), and with those an entry has had they
make six (`Polling.examined`).

Nothing of this survives the process. An entry whose process runs and whose
path `preloadDex` does not take ends it, with all other entries.
-/

namespace Dynamicloader

namespace Service

variable {cacheDir : String} {s s' : State} {am : ℕ → ActivityManager}

/-! ## What the watcher has done -/

/-- What became of an entry. -/
inductive Fate where
  | waiting
  | sent
  /-- The process has ended. -/
  | lost
  deriving DecidableEq

/-- An entry of `mPendingModuleList`. -/
structure Entry where
  mi : ModuleInfo
  examined : ℕ := 0
  fate : Fate := .waiting
  deriving DecidableEq

def Entry.lose (entry : Entry) : Entry :=
  if entry.fate = .waiting then { entry with fate := .lost } else entry

/-- The entries behind one round of the loop, which an exception leaves. -/
def examine (am : ℕ → ActivityManager) (k : ℕ) : List Entry → List Entry
  | [] => []
  | entry :: rest =>
    if entry.fate = .waiting then
      let entry := { entry with examined := entry.examined + 1 }
      if queryAllRunningAppInfo entry.mi.processName (am k) then
        match entry.mi.send with
        | .error _ => entry :: rest
        | .ok _ => { entry with fate := .sent } :: examine am (k + 1) rest
      else entry :: examine am (k + 1) rest
    else entry :: examine am k rest

structure Log where
  entries : List Entry := []
  /-- The broadcasts that matched a module. -/
  broadcasts : ℕ := 0
  /-- The deliveries of `CHECK_PROCESS_WHETHER_EXIST`. -/
  deliveries : ℕ := 0

def Log.ended (log : Log) : Log := { log with entries := log.entries.map Entry.lose }

/-- The log behind an event. -/
def Log.after (cacheDir : String) (s : State) (log : Log) : Event → Log
  | .receive action pkgName prName =>
    match onReceive action pkgName prName s with
    | .error _ => log.ended
    | .ok s' =>
      let put := s'.pendingModuleList.drop s.pendingModuleList.length
      { log with
        entries := log.entries ++ put.map fun mi => { mi }
        broadcasts := log.broadcasts + put.length }
  | .deliver what am =>
    if what ∈ s.queue then
      let log :=
        if what = .checkProcessWhetherExist then
          { log with
            entries := examine am 0 log.entries
            deliveries := log.deliveries + 1 }
        else log
      match (handleMessage cacheDir what am { s with queue := s.queue.erase what }).1 with
      | .error _ => log.ended
      | .ok _ => log
    else log
  | .restart => log.ended
  | _ => log

/-- **The service with its log.** -/
def observed (cacheDir : String) : Machine (State × Log) Event Load
  | (s, log), e => (((step cacheDir s e).1, log.after cacheDir s e), (step cacheDir s e).2)

/-- The check messages on their way. -/
def State.checks (s : State) : ℕ := s.queue.count .checkProcessWhetherExist

/-- **The event does not end the process.** For the watcher's own message:
the entries that are found running have a path to load. -/
def Event.Survives (cacheDir : String) (s : State) : Event → Prop
  | .deliver .checkProcessWhetherExist am =>
    ∀ i mi, s.pendingModuleList[i]? = some mi →
      queryAllRunningAppInfo mi.processName (am i) = true → Loadable mi.modulePath
  | .deliver what am =>
    (handleMessage cacheDir what am { s with queue := s.queue.erase what }).1.isOk = true
  | .receive action pkgName prName => (onReceive action pkgName prName s).isOk = true
  | .restart => False
  | _ => True

/-! ## The loop over the entries -/

/-- The modules of the entries that wait. -/
def waiting (entries : List Entry) : List ModuleInfo :=
  (entries.filter fun entry => entry.fate = .waiting).map Entry.mi

theorem waiting_append (entries entries' : List Entry) :
    waiting (entries ++ entries') = waiting entries ++ waiting entries' := by
  rw [waiting, List.filter_append, List.map_append]
  rfl

theorem waiting_cons {entry : Entry} (h : entry.fate = .waiting) (entries : List Entry) :
    waiting (entry :: entries) = entry.mi :: waiting entries := by
  rw [waiting, List.filter_cons_of_pos (by simpa using h)]
  rfl

theorem waiting_cons_of_ne {entry : Entry} (h : entry.fate ≠ .waiting) (entries : List Entry) :
    waiting (entry :: entries) = waiting entries := by
  rw [waiting, List.filter_cons_of_neg (by simpa using h)]
  rfl

/-- The load commands of the entries that were sent. -/
def sentLoads (entries : List Entry) : List Load :=
  (entries.filter fun entry => entry.fate = .sent).map fun entry => entry.mi.load

theorem sentLoads_append (entries entries' : List Entry) :
    sentLoads (entries ++ entries') = sentLoads entries ++ sentLoads entries' := by
  rw [sentLoads, List.filter_append, List.map_append]
  rfl

theorem sentLoads_cons_of_ne {entry : Entry} (h : entry.fate ≠ .sent) (entries : List Entry) :
    sentLoads (entry :: entries) = sentLoads entries := by
  rw [sentLoads, List.filter_cons_of_neg (by simpa using h)]
  rfl

theorem sentLoads_cons {entry : Entry} (h : entry.fate = .sent) (entries : List Entry) :
    sentLoads (entry :: entries) = entry.mi.load :: sentLoads entries := by
  rw [sentLoads, List.filter_cons_of_pos (by simpa using h)]
  rfl

theorem waiting_ne_nil {entry : Entry} {entries : List Entry} (hmem : entry ∈ entries)
    (h : entry.fate = .waiting) : waiting entries ≠ [] := by
  have hmi : entry.mi ∈ waiting entries :=
    List.mem_map_of_mem (List.mem_filter.mpr ⟨hmem, by simpa using h⟩)
  exact List.ne_nil_of_mem hmi

theorem checkPending_ok {l : List ModuleInfo} {k : ℕ}
    (h : ∀ i mi, l[i]? = some mi → queryAllRunningAppInfo mi.processName (am (k + i)) = true →
      Loadable mi.modulePath) : ∃ rest, (checkPending am k l).1 = .ok rest := by
  induction l generalizing k with
  | nil => exact ⟨[], rfl⟩
  | cons mi l ih =>
    have htail : ∀ i mi, l[i]? = some mi →
        queryAllRunningAppInfo mi.processName (am (k + 1 + i)) = true → Loadable mi.modulePath := by
      intro i mi' hi hrun
      rw [Nat.add_assoc, Nat.add_comm 1] at hrun
      exact h (i + 1) mi' hi hrun
    obtain ⟨rest, hrest⟩ := ih htail
    rw [checkPending]
    split
    · rename_i hrun
      rw [(mi.send_of_loadable (h 0 mi rfl hrun))]
      exact ⟨rest, hrest⟩
    · exact ⟨mi :: rest, by simp only [hrest]; rfl⟩

/-- What one round makes of an entry: it is examined once more, and may be
sent. -/
def Entry.After (entry entry' : Entry) : Prop :=
  entry.fate ≠ .waiting ∧ entry' = entry ∨
    entry.fate = .waiting ∧ entry'.examined = entry.examined + 1 ∧ entry'.fate ≠ .lost

/-- **The log follows the loop**: what waits stays, and what is sent is put
out. -/
theorem examine_spec {entries : List Entry} {k : ℕ} {rest : List ModuleInfo}
    (h : (checkPending am k (waiting entries)).1 = .ok rest) :
    waiting (examine am k entries) = rest ∧
      (sentLoads (examine am k entries)).Perm
        (sentLoads entries ++ (checkPending am k (waiting entries)).2) ∧
      ∀ entry' ∈ examine am k entries, ∃ entry ∈ entries, entry.After entry' := by
  induction entries generalizing k rest with
  | nil =>
    obtain rfl := Except.ok.inj h
    exact ⟨rfl, .rfl, by simp [examine]⟩
  | cons entry entries ih =>
    -- what is said of the rest, and of the new head
    have hcons : ∀ {k' entry'}, entry.After entry' →
        (∀ e' ∈ examine am k' entries, ∃ e ∈ entries, e.After e') →
        ∀ e' ∈ entry' :: examine am k' entries, ∃ e ∈ entry :: entries, e.After e' := by
      intro k' entry' hafter hrest e' he'
      rcases List.mem_cons.mp he' with rfl | he'
      · exact ⟨entry, List.mem_cons_self, hafter⟩
      · obtain ⟨e, he, hafter'⟩ := hrest e' he'
        exact ⟨e, List.mem_cons_of_mem _ he, hafter'⟩
    by_cases hfate : entry.fate = .waiting
    · have hunsent : entry.fate ≠ .sent := by simp [hfate]
      rw [waiting_cons hfate, checkPending] at h
      rw [waiting_cons hfate, checkPending, sentLoads_cons_of_ne hunsent]
      simp only [examine, hfate, ↓reduceIte]
      split at h
      · rename_i hrun
        simp only [hrun, ↓reduceIte]
        cases hsend : entry.mi.send with
        | error e => simp [hsend] at h
        | ok load =>
          simp only [hsend] at h ⊢
          obtain ⟨hwaiting, hsent, hafter⟩ := ih h
          obtain ⟨-, rfl⟩ := entry.mi.send_ok hsend
          refine ⟨?_, ?_, hcons (.inr ⟨hfate, rfl, by simp⟩) hafter⟩
          · rw [waiting_cons_of_ne (by simp), hwaiting]
          · rw [sentLoads_cons (by rfl)]
            exact (hsent.cons _).trans List.perm_middle.symm
      · rename_i hrun
        simp only [hrun, Bool.false_eq_true, ↓reduceIte]
        cases hrest : (checkPending am (k + 1) (waiting entries)).1 with
        | error e => simp [hrest, Except.map] at h
        | ok rest' =>
          simp only [hrest, Except.map, Except.ok.injEq] at h
          obtain ⟨hwaiting, hsent, hafter⟩ := ih hrest
          refine ⟨?_, ?_, hcons (.inr ⟨hfate, rfl, by simp⟩) hafter⟩
          · rw [waiting_cons (by rfl), hwaiting]
            exact h
          · rw [sentLoads_cons_of_ne (by simp)]
            exact hsent
    · rw [waiting_cons_of_ne hfate] at h
      simp only [examine, hfate, ↓reduceIte]
      obtain ⟨hwaiting, hsent, hafter⟩ := ih h
      refine ⟨(waiting_cons_of_ne hfate _).trans hwaiting, ?_, hcons (.inl ⟨hfate, rfl⟩) hafter⟩
      have hhead : ∀ l, sentLoads (entry :: l) = sentLoads [entry] ++ sentLoads l :=
        sentLoads_append [entry]
      rw [waiting_cons_of_ne hfate, hhead entries, hhead (examine _ _ _), List.append_assoc]
      exact hsent.append_left _

/-! ## One event -/

/-- **What an event does to the watcher.** -/
inductive Polls (survives : Prop) (s : State) (log : Log) (out : List Load) :
    State → Log → Prop
  | same {s' : State} (h : SameWatch s s') : Polls survives s log out s' log
  | put (mi : ModuleInfo) : Polls survives s log out (s.watch mi)
      { log with entries := log.entries ++ [{ mi }], broadcasts := log.broadcasts + 1 }
  | checked {s' : State} (am : ℕ → ActivityManager) (hchecks : 0 < s.checks)
      (hrest : (checkPending am 0 s.pendingModuleList).1 = .ok s'.pendingModuleList)
      (hout : out = (checkPending am 0 s.pendingModuleList).2)
      (hagain : s'.pendingModuleList ≠ [] ∧ s.checkNums < 5 ∧ s'.checkNums = s.checkNums + 1 ∧
          s'.checks = s.checks ∨
        ¬ (s'.pendingModuleList ≠ [] ∧ s.checkNums < 5) ∧ s'.checkNums = s.checkNums ∧
          s'.checks + 1 = s.checks) :
      Polls survives s log out s' { log with
        entries := examine am 0 log.entries, deliveries := log.deliveries + 1 }
  /-- The process ends, and with it the messages on their way. -/
  | ended {s' : State} {log' : Log} (hends : ¬ survives) (hchecks : s'.checks = 0)
      (hbroadcasts : log'.broadcasts = log.broadcasts)
      (hdeliveries : log'.deliveries ≤ log.deliveries + min 1 s.checks) :
      Polls survives s log out s' log'

theorem checks_start (prefs : Prefs) : (start prefs).checks = 0 := rfl

theorem checks_watch (s : State) (mi : ModuleInfo) : (s.watch mi).checks = s.checks + 1 := by
  rw [State.checks, State.watch, List.count_append, List.count_singleton_self]
  rfl

/-- The delivery of the watcher's message. -/
theorem polls_check {log : Log} (hq : What.checkProcessWhetherExist ∈ s.queue) :
    Polls (Event.Survives cacheDir s (.deliver .checkProcessWhetherExist am)) s log
      (step cacheDir s (.deliver .checkProcessWhetherExist am)).2
      (step cacheDir s (.deliver .checkProcessWhetherExist am)).1
      (log.after cacheDir s (.deliver .checkProcessWhetherExist am)) := by
  have hpos : 0 < s.checks := List.count_pos_iff.mpr hq
  have herase : (s.queue.erase .checkProcessWhetherExist).count .checkProcessWhetherExist + 1 =
      s.checks := by
    rw [List.count_erase_self]
    exact Nat.sub_add_cancel hpos
  rw [step, Log.after, if_pos hq, if_pos hq, if_pos rfl]
  cases hr : (checkPending am 0 s.pendingModuleList).1 with
  | error e =>
    have hends : ¬ Event.Survives cacheDir s (.deliver .checkProcessWhetherExist am) := by
      intro hsurvives
      obtain ⟨rest, hrest⟩ := checkPending_ok (k := 0) fun i mi hi hrun =>
        hsurvives i mi hi (by rwa [Nat.zero_add] at hrun)
      rw [hr] at hrest
      cases hrest
    simp only [handleMessage, hr, Except.map]
    refine .ended hends (checks_start _) rfl ?_
    rw [Nat.min_eq_left hpos]
    exact Nat.le_refl _
  | ok rest =>
    simp only [handleMessage, hr, Except.map]
    by_cases hagain : rest ≠ [] ∧ s.checkNums < 5
    · rw [if_pos hagain]
      refine .checked am hpos hr rfl (.inl ⟨hagain.1, hagain.2, rfl, ?_⟩)
      rw [State.checks, List.count_append, List.count_singleton_self]
      exact herase
    · rw [if_neg hagain]
      exact .checked am hpos hr rfl (.inr ⟨hagain, rfl, herase⟩)

/-- The delivery of another message. -/
theorem polls_other {log : Log} {what : What} (hq : what ∈ s.queue)
    (hwhat : what ≠ .checkProcessWhetherExist) :
    Polls (Event.Survives cacheDir s (.deliver what am)) s log
      (step cacheDir s (.deliver what am)).2 (step cacheDir s (.deliver what am)).1
      (log.after cacheDir s (.deliver what am)) := by
  rw [step, Log.after, if_pos hq, if_pos hq, if_neg hwhat]
  rcases hr : handleMessage cacheDir what am { s with queue := s.queue.erase what } with ⟨r, loads⟩
  cases r with
  | error e =>
    have hends : ¬ Event.Survives cacheDir s (.deliver what am) := by
      intro hsurvives
      have hok : (handleMessage cacheDir what am
          { s with queue := s.queue.erase what }).1.isOk = true := by
        cases what with
        | checkProcessWhetherExist => exact absurd rfl hwhat
        | _ => exact hsurvives
      rw [hr] at hok
      cases hok
    exact .ended hends (checks_start _) rfl (Nat.le_add_right _ _)
  | ok s' =>
    have hsame := handleMessage_sameWatch hwhat (congrArg Prod.fst hr)
    refine .same ⟨hsame.pending, hsame.checkNums, hsame.checks.trans ?_⟩
    exact List.count_erase_of_ne (Ne.symm hwhat)

theorem polls_observed (cacheDir : String) (s : State) (log : Log) (e : Event) :
    Polls (e.Survives cacheDir s) s log (step cacheDir s e).2 (step cacheDir s e).1
      (log.after cacheDir s e) := by
  cases e with
  | addModule caller p q m =>
    rw [step]
    rcases addModule_cases caller p q m s with ⟨-, heq⟩ | ⟨-, heq⟩
    · rw [heq]
      exact .same ⟨rfl, rfl, by simp [State.register]⟩
    · rw [heq]
      exact .same (.refl s)
  | removeModule caller p q =>
    rw [step]
    rcases removeModule_cases caller p q s with ⟨mi, -, heq⟩ | ⟨heq, -⟩
    · rw [heq]
      exact .same ⟨rfl, rfl, rfl⟩
    · rw [heq]
      exact .same (.refl s)
  | receive action p q =>
    rw [step, Log.after]
    cases hr : onReceive action p q s with
    | error e =>
      refine .ended (fun hsurvives => ?_) (checks_start _) rfl (Nat.le_add_right _ _)
      rw [Event.Survives, hr] at hsurvives
      cases hsurvives
    | ok s' =>
      rcases onReceive_ok hr with rfl | ⟨mi, -, -, rfl⟩
      · simp only [List.drop_length, List.map_nil, List.append_nil, List.length_nil, Nat.add_zero]
        exact .same (.refl _)
      · simp only [State.watch, List.drop_left, List.map_cons, List.map_nil, List.length_cons,
          List.length_nil, Nat.zero_add]
        exact .put mi
  | deliver what am =>
    by_cases hq : what ∈ s.queue
    · by_cases hwhat : what = .checkProcessWhetherExist
      · subst hwhat
        exact polls_check hq
      · exact polls_other hq hwhat
    · rw [step, Log.after, if_neg hq, if_neg hq]
      exact .same (.refl s)
  | restart =>
    rw [step, Log.after]
    exact .ended id (checks_start _) rfl (Nat.le_add_right _ _)

/-! ## Runs -/

/-- The deliveries that the messages on their way and the counter leave. -/
def State.left (s : State) : ℕ := if s.checks = 0 then 0 else s.checks + (5 - s.checkNums)

theorem State.left_le (s : State) : s.left ≤ s.checks + (5 - s.checkNums) := by
  unfold left
  split
  · omega
  · omega

variable {survives : Prop} {log log' : Log} {out : List Load}

theorem Polls.broadcasts_le (h : Polls survives s log out s' log') :
    log.broadcasts ≤ log'.broadcasts := by
  cases h with
  | same h => exact Nat.le_refl _
  | put mi => exact Nat.le_add_right _ _
  | checked am hchecks hrest hout hagain => exact Nat.le_refl _
  | ended hends hchecks hbroadcasts hdeliveries => exact Nat.le_of_eq hbroadcasts.symm

/-- Only a broadcast adds a message. -/
theorem Polls.checks_le (h : Polls survives s log out s' log') (hs : s.checks ≤ log.broadcasts) :
    s'.checks ≤ log'.broadcasts := by
  cases h with
  | same h => exact Nat.le_trans (Nat.le_of_eq h.checks) hs
  | put mi =>
    rw [checks_watch]
    exact Nat.succ_le_succ hs
  | checked am hchecks hrest hout hagain => simp only; omega
  | ended hends hchecks hbroadcasts hdeliveries => omega

/-- **Every delivery is paid for**, by a message or by the counter. -/
theorem Polls.left_le (h : Polls survives s log out s' log')
    (hlog : log'.broadcasts = log.broadcasts) :
    log'.deliveries + s'.left ≤ log.deliveries + s.left := by
  cases h with
  | same h =>
    have hchecks : s'.checks = s.checks := h.checks
    have hleft : s'.left = s.left := by rw [State.left, State.left, hchecks, h.checkNums]
    exact Nat.le_of_eq (congrArg _ hleft)
  | put mi => exact absurd hlog (by simp)
  | checked am hchecks hrest hout hagain =>
    have hle := s'.left_le
    have hleft : s.left = s.checks + (5 - s.checkNums) := if_neg (by omega)
    rw [hleft]
    simp only
    omega
  | ended hends hchecks hbroadcasts hdeliveries =>
    have hleft' : s'.left = 0 := if_pos hchecks
    have hleft : min 1 s.checks ≤ s.left := by
      unfold State.left
      split
      · omega
      · omega
    omega

/-- **The watcher while the process lives.** -/
structure Polling (s : State) (log : Log) : Prop where
  pending : s.pendingModuleList = waiting log.entries
  checkNums : s.checkNums ≤ 5
  polls : s.pendingModuleList ≠ [] → 0 < s.checks ∨ s.checkNums = 5
  /-- What an entry has had and what is to come make six examinations. -/
  examined : ∀ entry ∈ log.entries, entry.fate = .sent ∨
    entry.fate = .waiting ∧ 6 ≤ entry.examined + s.checks + (5 - s.checkNums)

theorem polling_start (prefs : Prefs) : Polling (start prefs) {} :=
  ⟨rfl, Nat.zero_le 5, fun hne => absurd rfl hne, by simp⟩

theorem Polling.same (h : Polling s log) (hs : SameWatch s s') : Polling s' log := by
  have hchecks : s'.checks = s.checks := hs.checks
  refine ⟨hs.pending.trans h.pending, by rw [hs.checkNums]; exact h.checkNums, ?_, ?_⟩
  · rw [hs.pending, hs.checkNums, hchecks]
    exact h.polls
  · rw [hs.checkNums, hchecks]
    exact h.examined

/-- A broadcast gives every entry that waits six more deliveries. -/
theorem Polling.put (h : Polling s log) (mi : ModuleInfo) :
    Polling (s.watch mi)
      { log with entries := log.entries ++ [{ mi }], broadcasts := log.broadcasts + 1 } := by
  have hchecks := checks_watch s mi
  have hnums : (s.watch mi).checkNums = 0 := rfl
  refine ⟨?_, Nat.zero_le 5, fun _ => .inl (by omega), fun entry hentry => ?_⟩
  · rw [waiting_append, ← h.pending]
    rfl
  · rw [hchecks, hnums]
    rcases List.mem_append.mp hentry with hold | hnew
    · rcases h.examined entry hold with hsent | ⟨hwaiting, hle⟩
      · exact .inl hsent
      · exact .inr ⟨hwaiting, by omega⟩
    · rw [List.mem_singleton.mp hnew]
      exact .inr ⟨rfl, by simp only; omega⟩

/-- **Every event that the process survives keeps it.** -/
theorem Polling.polls_step (h : Polling s log) (hp : Polls survives s log out s' log')
    (hsurvives : survives) : Polling s' log' := by
  cases hp with
  | same hs => exact h.same hs
  | put mi => exact h.put mi
  | checked am hchecks hrest hout hagain =>
    rw [h.pending] at hrest
    obtain ⟨hwaiting, -, hafter⟩ := examine_spec hrest
    have hnums := h.checkNums
    refine ⟨hwaiting.symm, by omega, fun hne => ?_, fun entry' hentry => ?_⟩
    · rcases hagain with ⟨-, -, -, hsame⟩ | ⟨hstop, heq, -⟩
      · exact .inl (by omega)
      · have hfive : ¬ s.checkNums < 5 := fun hlt => hstop ⟨hne, hlt⟩
        exact .inr (by omega)
    · obtain ⟨entry, hmem, hround⟩ := hafter entry' hentry
      rcases h.examined entry hmem with hsent | ⟨hwait, hle⟩
      · rcases hround with ⟨-, rfl⟩ | ⟨hwait, -⟩
        · exact .inl hsent
        · cases hsent.symm.trans hwait
      · rcases hround with ⟨hne, -⟩ | ⟨-, hexamined, hlost⟩
        · exact absurd hwait hne
        · cases hfate : entry'.fate with
          | sent => exact .inl rfl
          | lost => exact absurd hfate hlost
          | waiting =>
            -- it still waits, so the counter was used up or goes on
            have hne := waiting_ne_nil hentry hfate
            rw [hwaiting] at hne
            refine .inr ⟨rfl, ?_⟩
            rcases hagain with ⟨-, hlt, hsucc, hsame⟩ | ⟨hstop, heq, hless⟩
            · omega
            · have hfive : ¬ s.checkNums < 5 := fun hlt => hstop ⟨hne, hlt⟩
              omega
  | ended hends => exact absurd hsurvives hends

/-- **What is sent is put out.** -/
theorem Polling.sent_step (h : Polling s log) (hp : Polls survives s log out s' log')
    (hsurvives : survives) {before : List Load} (hsent : (sentLoads log.entries).Subperm before) :
    (sentLoads log'.entries).Subperm (before ++ out) := by
  have hmore : before.Subperm (before ++ out) := (List.sublist_append_left _ _).subperm
  cases hp with
  | same hs => exact hsent.trans hmore
  | put mi =>
    rw [sentLoads_append, sentLoads_cons_of_ne (by simp)]
    simpa [sentLoads] using hsent.trans hmore
  | checked am hchecks hrest hout hagain =>
    rw [h.pending] at hrest hout
    obtain ⟨-, hperm, -⟩ := examine_spec hrest
    rw [hout]
    exact hperm.subperm.trans ((List.subperm_append_right _).mpr hsent)
  | ended hends => exact absurd hsurvives hends

/-- **When polling has stopped**, every entry was sent or examined six
times. -/
theorem Polling.six (h : Polling s log) (hstopped : s.checks = 0) :
    ∀ entry ∈ log.entries, entry.fate = .sent ∨ 6 ≤ entry.examined := by
  intro entry hmem
  rcases h.examined entry hmem with hsent | ⟨hwait, hle⟩
  · exact .inl hsent
  · have hne := waiting_ne_nil hmem hwait
    rw [← h.pending] at hne
    rcases h.polls hne with hpos | hfive
    · omega
    · exact .inr (by omega)

/-- Without another broadcast the deliveries are those paid for. -/
theorem deliveries_run (es : List Event) (s : State) (log : Log) :
    log.broadcasts ≤ ((observed cacheDir).run (s, log) es).2.broadcasts ∧
      (((observed cacheDir).run (s, log) es).2.broadcasts = log.broadcasts →
        ((observed cacheDir).run (s, log) es).2.deliveries ≤ log.deliveries + s.left) := by
  induction es generalizing s log with
  | nil => exact ⟨Nat.le_refl _, fun _ => Nat.le_add_right _ _⟩
  | cons e es ih =>
    have hp := polls_observed cacheDir s log e
    obtain ⟨hle, hrun⟩ := ih (step cacheDir s e).1 (log.after cacheDir s e)
    have hstep := hp.broadcasts_le
    have hcons : (observed cacheDir).run (s, log) (e :: es) =
        (observed cacheDir).run ((step cacheDir s e).1, log.after cacheDir s e) es := rfl
    rw [hcons]
    refine ⟨Nat.le_trans hstep hle, fun heq => ?_⟩
    have hfirst := hp.left_le (by omega)
    have hrest := hrun (by omega)
    omega

/-- **The bounds on polling**, for the service as a run has left it that has
put `out` out. -/
structure Polled (cacheDir : String) (s : State) (log : Log) (out : List Load) : Prop where
  queued : s.checks ≤ log.broadcasts
  further : ∀ es, ((observed cacheDir).run (s, log) es).2.broadcasts = log.broadcasts →
    ((observed cacheDir).run (s, log) es).2.deliveries ≤
      log.deliveries + (s.checks + (5 - s.checkNums))
  /-- The entries that were sent are gone from the list, and no others. -/
  pending : s.pendingModuleList = waiting log.entries
  /-- Each has a load command of its own. -/
  sent : (sentLoads log.entries).Subperm out
  examined : s.checks = 0 → ∀ entry ∈ log.entries, entry.fate = .sent ∨ 6 ≤ entry.examined

/-- **Polling is bounded, and long enough**, in every run that does not end
the process. -/
theorem polled_of_survives (cacheDir : String) (prefs : Prefs) (es : List Event)
    (hes : (observed cacheDir).Along (fun x e => e.Survives cacheDir x.1) (start prefs, {}) es) :
    Polled cacheDir ((observed cacheDir).run (start prefs, {}) es).1
      ((observed cacheDir).run (start prefs, {}) es).2
      ((observed cacheDir).outputs (start prefs, {}) es) := by
  let J : State × Log → List Load → Prop := fun x out =>
    Polling x.1 x.2 ∧ x.1.checks ≤ x.2.broadcasts ∧ (sentLoads x.2.entries).Subperm out
  have hinv : J ((observed cacheDir).run (start prefs, {}) es)
      ([] ++ (observed cacheDir).outputs (start prefs, {}) es) := by
    refine Machine.run_outputs_along (J := J) (fun x e out hsurvives hx => ?_) hes
      ⟨polling_start prefs, Nat.zero_le _, List.Subperm.refl _⟩
    have hp := polls_observed cacheDir x.1 x.2 e
    exact ⟨hx.1.polls_step hp hsurvives, hp.checks_le hx.2.1, hx.1.sent_step hp hsurvives hx.2.2⟩
  rw [List.nil_append] at hinv
  obtain ⟨hpolling, hqueued, hsent⟩ := hinv
  refine ⟨hqueued, fun es' hes' => ?_, hpolling.pending, hsent, hpolling.six⟩
  have hle := ((deliveries_run es' _ _).2 hes')
  exact Nat.le_trans hle (Nat.add_le_add_left (State.left_le _) _)

/-- One module has no path, and its process runs: the handler throws, and the
entry of the other module is lost before it was examined at all. -/
theorem entry_lost :
    let start (a b : String) : Event := .receive (some actionAmsStartProcess) (some a) (some b)
    let es : List Event := [.addModule systemCaller (some "a") (some "b") none,
      .addModule systemCaller (some "c") (some "d") (some "/d.jar"), start "a" "b", start "c" "d",
      .deliver .checkProcessWhetherExist fun _ => ⟨none, some [some "b"]⟩]
    let x := (observed "/cache").run (initial, {}) es
    x.1.checks = 0 ∧
      x.2.entries = [⟨⟨some "a", some "b", none⟩, 1, .lost⟩,
        ⟨⟨some "c", some "d", some "/d.jar"⟩, 0, .lost⟩] ∧
      ¬ Polled "/cache" x.1 x.2 ((observed "/cache").outputs (initial, {}) es) := by
  intro start es x
  have hchecks : x.1.checks = 0 := by decide
  have hentries : x.2.entries = [⟨⟨some "a", some "b", none⟩, 1, .lost⟩,
      ⟨⟨some "c", some "d", some "/d.jar"⟩, 0, .lost⟩] := by decide
  refine ⟨hchecks, hentries, fun h => ?_⟩
  have hsix := h.examined hchecks
  rw [hentries] at hsix
  simp at hsix

/-- A start that is found running at the second check: the entry was examined
twice and is sent. -/
theorem polled_once :
    let es : List Event :=
      [.addModule systemCaller (some "a") (some "b") (some "/b.jar"),
        .receive (some actionAmsStartProcess) (some "a") (some "b"),
        .deliver .checkProcessWhetherExist fun _ => ⟨none, some []⟩,
        .deliver .checkProcessWhetherExist fun _ => ⟨none, some [some "b"]⟩]
    let x := (observed "/cache").run (start fun _ => none, {}) es
    let out := (observed "/cache").outputs (start fun _ => none, {}) es
    (observed "/cache").Along (fun x e => e.Survives "/cache" x.1) (start fun _ => none, {}) es ∧
      x.2.entries = [⟨⟨some "a", some "b", some "/b.jar"⟩, 2, .sent⟩] ∧
      out = [⟨some "a", some "b", some "/b.jar"⟩] ∧ Polled "/cache" x.1 x.2 out := by
  intro es x out
  have hes : (observed "/cache").Along (fun x e => e.Survives "/cache" x.1)
      (start fun _ => none, {}) es := by
    have hone : ∀ (i : ℕ) (mi : ModuleInfo), [⟨some "a", some "b", some "/b.jar"⟩][i]? = some mi →
        Loadable mi.modulePath := by
      intro i mi hi
      obtain rfl := List.mem_singleton.mp (List.mem_of_getElem? hi)
      exact ⟨"/b.jar", rfl, by decide⟩
    exact ⟨trivial, rfl, fun i mi hi _ => hone i mi hi, fun i mi hi _ => hone i mi hi, trivial⟩
  exact ⟨hes, by decide, by decide, polled_of_survives "/cache" (fun _ => none) es hes⟩

end Service

end Dynamicloader
