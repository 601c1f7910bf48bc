import Dynamicloader.Common.Threads
import Dynamicloader.Hooking.Registry
/-!
# Every member is hooked once

A member that is hooked goes through three stages: it has no set; a call has
made its set and is on its way to install it; it is installed. The call that
made the set is the only one on that way, so however the calls overlap
`hookMethodNative` is called once for the member, with the set that stays in
the map.

The calls that a run begins (`accepted`) are balanced against the operations
on the sets: a call that was begun has done its one operation, or its thread
is still on the way to it.
-/

namespace Dynamicloader

namespace Hooking

open Bridge (ArraySort CopyOnWriteSortedSet)

variable {Member Class Ptr Cb : Type} [DecidableEq Member]

/-- The member whose set the call has made and not yet installed. -/
def Phase.creates : Phase Member Cb → Option Member
  | .add m _ _ true => some m
  | .install m _ _ => some m
  | _ => none

def State.creator (s : State Member Class Ptr Cb) (c : ℕ) : Option Member :=
  (s.calls c).bind Phase.creates

def Output.isNative (m : Member) : Output Member Class Cb → Bool
  | .hookMethodNative m' _ => m' = m
  | _ => false

/-- The number of calls of `hookMethodNative` for a member. -/
def natives (m : Member) (log : List (Output Member Class Cb)) : ℕ := log.countP (·.isNative m)

/-- **The stages of a member.** -/
inductive Stage (s : State Member Class Ptr Cb) (log : List (Output Member Class Cb))
    (m : Member) : Prop
  | untouched (hm : s.sHookedMethodCallbacks m = none) (hn : natives m log = 0)
      (hc : ∀ c, s.creator c ≠ some m)
  | creating (c : ℕ) (hm : s.sHookedMethodCallbacks m ≠ none) (hn : natives m log = 0)
      (hc : ∀ c', s.creator c' = some m ↔ c' = c)
  | installed (hm : s.sHookedMethodCallbacks m ≠ none) (hn : natives m log = 1)
      (hc : ∀ c, s.creator c ≠ some m)

variable {P : Platform Member Class Ptr} {s s' : State Member Class Ptr Cb} {m : Member}
  {out log log' : List (Output Member Class Cb)}

omit [DecidableEq Member] in
theorem State.creator_goes (c : ℕ) (phase : Option (Phase Member Cb)) (c' : ℕ) :
    (s.goes c phase).creator c' = if c' = c then phase.bind Phase.creates else s.creator c' := by
  rw [creator, calls_goes]
  split
  · rfl
  · rfl

theorem natives_append (m : Member) (log out : List (Output Member Class Cb)) :
    natives m (log ++ out) = natives m log + natives m out := List.countP_append

namespace Stage

/-- A step that does not concern the member. -/
theorem congr (h : Stage s log m)
    (hm : s'.sHookedMethodCallbacks m = none ↔ s.sHookedMethodCallbacks m = none)
    (hn : natives m log' = natives m log)
    (hc : ∀ c, s'.creator c = some m ↔ s.creator c = some m) : Stage s' log' m := by
  cases h with
  | untouched hm' hn' hc' =>
    exact .untouched (hm.mpr hm') (hn.trans hn') fun c h => hc' c ((hc c).mp h)
  | creating c hm' hn' hc' =>
    exact .creating c (fun h => hm' (hm.mp h)) (hn.trans hn') fun c' => (hc c').trans (hc' c')
  | installed hm' hn' hc' =>
    exact .installed (fun h => hm' (hm.mp h)) (hn.trans hn') fun c h => hc' c ((hc c).mp h)

/-- A call goes on that has as much to do with making the set as before. -/
theorem goes (h : Stage s log m) {c : ℕ} {phase : Option (Phase Member Cb)}
    (hphase : phase.bind Phase.creates = some m ↔ s.creator c = some m)
    (hn : natives m log' = natives m log) : Stage (s.goes c phase) log' m := by
  refine h.congr Iff.rfl hn fun c' => ?_
  rw [State.creator_goes]
  split
  · rename_i heq
    rw [hphase, heq]
  · exact Iff.rfl

/-- **The call that made the set installs it.** -/
theorem installs (h : Stage s log m) {c : ℕ} (hc : s.creator c = some m)
    (hn : natives m out = 1) : Stage (s.goes c none) (log ++ out) m := by
  cases h with
  | untouched hm hn' hc' => exact absurd hc (hc' c)
  | creating c₀ hm hn' hc' =>
    obtain rfl := (hc' c).mp hc
    refine .installed hm (by rw [natives_append, hn', hn]) fun c' h => ?_
    rw [State.creator_goes] at h
    split at h
    · cases h
    · rename_i hne
      exact hne ((hc' c').mp h)
  | installed hm hn' hc' => exact absurd hc (hc' c)

/-- The stage of another member, or of the member itself, when a set is made. -/
theorem created (h : Stage s log m) {c : ℕ} (hc : s.calls c = none) {m' : Member} (cb : Cb)
    (hm' : s.sHookedMethodCallbacks m' = none) :
    Stage ((s.create m').goes c (some (.add m' cb s.made true))) log m := by
  have hidle : s.creator c = none := by rw [State.creator, hc]; rfl
  by_cases heq : m = m'
  · subst heq
    cases h with
    | untouched hm hn hc' =>
      refine .creating c ?_ hn fun c' => ?_
      · intro hnone
        have hnone := (s.map_create m m).symm.trans hnone
        rw [if_pos rfl] at hnone
        cases hnone
      · rw [State.creator_goes]
        split
        · rename_i heq
          exact iff_of_true rfl heq
        · rename_i hne
          exact iff_of_false (hc' c') hne
    | creating c₀ hm hn hc' => exact absurd hm' hm
    | installed hm hn hc' => exact absurd hm' hm
  · have hcreated : Stage (s.create m') log m :=
      h.congr (Eq.congr_left ((s.map_create m' m).trans (if_neg heq))) rfl fun _ => Iff.rfl
    refine hcreated.goes (iff_of_false ?_ ?_) rfl
    · intro hcb
      exact heq (Option.some.inj hcb).symm
    · intro hcreator
      cases hidle.symm.trans hcreator

/-- The last step of the call that made a set. -/
theorem native (h : Stage s log m) {c : ℕ} {m' : Member} {cb : Cb}
    {info : AdditionalHookInfo Class} (hc : s.calls c = some (.install m' cb info.callbacks)) :
    Stage (s.goes c none) (log ++ [Output.hookMethodNative m' info, Output.returned m' cb]) m := by
  have hcreator : s.creator c = some m' := by
    rw [State.creator, hc]
    rfl
  by_cases heq : m' = m
  · subst heq
    exact h.installs hcreator (by simp [natives, Output.isNative])
  · refine h.goes (iff_of_false (by simp) ?_) ?_
    · rw [hcreator]
      exact fun hsome => heq (Option.some.inj hsome)
    · rw [natives_append]
      simp [natives, Output.isNative, heq]

variable [DecidableEq Ptr] [DecidableEq Cb] {S : ArraySort Cb} {e : Event Member Cb}

/-- **Every step keeps a member at one of its stages**, if the members that
pass the checks can be hooked. -/
theorem effect (hP : ∀ m, P.check m = .ok () → P.methodOf m ≠ none) (hinv : Inv P s log)
    (h : Stage s log m) (he : Effect S P s e s' out) : Stage s' (log ++ out) m := by
  have hmethod : ∀ c ph, s.calls c = some ph → P.methodOf ph.member ≠ none :=
    fun c ph hc => hP _ (hinv.checked _ _ (hinv.calls c ph hc))
  have hcreator : ∀ c ph, s.calls c = some ph → s.creator c = ph.creates := by
    intro c ph hc
    rw [State.creator, hc]
    rfl
  have hidle : ∀ c, s.calls c = none → s.creator c ≠ some m := by
    intro c hc
    rw [State.creator, hc]
    exact nofun
  -- what is seen of the other steps is no call of `hookMethodNative`
  have hquiet : ∀ out : List (Output Member Class Cb), natives m out = 0 →
      natives m (log ++ out) = natives m log := by
    intro out hout
    rw [natives_append, hout, Nat.add_zero]
  cases he with
  | idle e he => exact h.congr Iff.rfl (hquiet _ rfl) fun _ => Iff.rfl
  | refused c m' cb e hcheck => exact h.congr Iff.rfl (hquiet _ rfl) fun _ => Iff.rfl
  | created c m' cb hc hcheck hm =>
    rw [List.append_nil]
    exact h.created hc cb hm
  | found c m' cb r hc hcheck hm =>
    exact h.goes (iff_of_false (by simp [Phase.creates]) (hidle c hc)) (hquiet _ rfl)
  | addedNew c m' cb r hc =>
    have hadded : Stage (s.add S r cb) log m := h.congr Iff.rfl rfl fun _ => Iff.rfl
    refine hadded.goes ?_ (hquiet _ rfl)
    exact Eq.congr_left (hcreator c _ hc).symm
  | added c m' cb r hc =>
    have hadded : Stage (s.add S r cb) log m := h.congr Iff.rfl rfl fun _ => Iff.rfl
    refine hadded.goes ?_ (hquiet _ rfl)
    exact Eq.congr_left (hcreator c _ hc).symm
  | installed c m' cb p info hc hp hfree =>
    have hhooked : Stage (s.hook p m' info) log m := h.congr Iff.rfl rfl fun _ => Iff.rfl
    exact hhooked.native hc
  | already c m' cb p info hc hp hhooked => exact h.native hc
  | unreadable c m' cb r e hc hp => exact absurd hp (hmethod c _ hc)
  | missing c m' cb info e hc hp => exact absurd hp (hmethod c _ hc)
  | absent c m' cb hc hm => exact h.congr Iff.rfl (hquiet _ rfl) fun _ => Iff.rfl
  | removing c m' cb r hc hm =>
    exact h.goes (iff_of_false (by simp [Phase.creates]) (hidle c hc)) (hquiet _ rfl)
  | removed c m' cb r hc =>
    have hremoved : Stage (s.remove r cb) log m := h.congr Iff.rfl rfl fun _ => Iff.rfl
    refine hremoved.goes ?_ (hquiet _ rfl)
    exact Eq.congr_left (hcreator c _ hc).symm

end Stage

/-! ## The calls of a run -/

/-- Whether a call is to put `cb` into the set of `m` or to take it out. -/
def Event.op [DecidableEq Cb] (m : Member) (cb : Cb) : Event Member Cb → Option Bool
  | .hookMethod _ m' cb' => if m' = m ∧ cb' = cb then some true else none
  | .unhookMethod _ m' cb' => if m' = m ∧ cb' = cb then some false else none
  | .proceed _ => none

/-- The operation that a call in progress has still to do. -/
def Phase.op [DecidableEq Cb] (m : Member) (cb : Cb) : Phase Member Cb → Option Bool
  | .add m' cb' _ _ => if m' = m ∧ cb' = cb then some true else none
  | .install _ _ _ => none
  | .remove m' cb' _ => if m' = m ∧ cb' = cb then some false else none

section Accepted

variable [DecidableEq Ptr] [DecidableEq Cb] {S : ArraySort Cb}

/-- **The calls that a run begins**, in their order. -/
def accepted (S : ArraySort Cb) (P : Platform Member Class Ptr) :
    State Member Class Ptr Cb → List (Event Member Cb) → List (Event Member Cb)
  | _, [] => []
  | s, e :: es => (if e.begins P s then [e] else []) ++ accepted S P (step S P s e).1 es

theorem toNat_eq_ite (b : Bool) : b.toNat = if b = true then 1 else 0 := by
  cases b with
  | false => rfl
  | true => rfl

variable {e : Event Member Cb} {cb : Cb} {b : Bool} {n : ℕ}

/-- **One step**: a call that is begun owes its operation until it is seen. -/
theorem Effect.balance (he : Effect S P s e s' out)
    (h : Holding (fun ph => ph.op m cb == some b) s.calls n) :
    ∃ n', Holding (fun ph => ph.op m cb == some b) s'.calls n' ∧
      n + (e.begins P s && e.op m cb == some b).toNat =
        out.countP (fun o => o.op m cb == some b) + n' := by
  -- a thread that moves, from what it is in to `phase`
  have hmoves : ∀ c (phase : Option (Phase Member Cb)), ∃ n',
      Holding (fun ph => ph.op m cb == some b) (Function.update s.calls c phase) n' ∧
        n + (phase.any fun ph => ph.op m cb == some b).toNat =
          ((s.calls c).any fun ph => ph.op m cb == some b).toNat + n' :=
    fun c phase => h.update c phase
  cases he with
  | idle e hidle => exact ⟨n, h, by simp [hidle]⟩
  | refused c m' cb' e hcheck =>
    exact ⟨n, h, by simp [Event.begins, hcheck, Except.isOk, Except.toBool, Output.op]⟩
  | created c m' cb' hc hcheck hm =>
    obtain ⟨n', hn', heq⟩ := hmoves c (some (.add m' cb' s.made true))
    refine ⟨n', hn', ?_⟩
    simpa [Event.begins, hc, hcheck, Except.isOk, Except.toBool, Event.op, Phase.op] using heq
  | found c m' cb' r hc hcheck hm =>
    obtain ⟨n', hn', heq⟩ := hmoves c (some (.add m' cb' r false))
    refine ⟨n', hn', ?_⟩
    simpa [Event.begins, hc, hcheck, Except.isOk, Except.toBool, Event.op, Phase.op] using heq
  | addedNew c m' cb' r hc =>
    obtain ⟨n', hn', heq⟩ := hmoves c (some (.install m' cb' r))
    refine ⟨n', hn', ?_⟩
    simpa [Event.begins, hc, Phase.op, Output.op, List.countP_cons, toNat_eq_ite] using heq
  | added c m' cb' r hc =>
    obtain ⟨n', hn', heq⟩ := hmoves c none
    refine ⟨n', hn', ?_⟩
    simpa [Event.begins, hc, Phase.op, Output.op, List.countP_cons, toNat_eq_ite] using heq
  | installed c m' cb' p info hc hp hlast | already c m' cb' p info hc hp hlast
  | unreadable c m' cb' r e hc hp | missing c m' cb' info e hc hp =>
    -- the callback was put into its set before
    obtain ⟨n', hn', heq⟩ := hmoves c none
    exact ⟨n', hn', by simpa [Event.begins, hc, Phase.op, Output.op] using heq⟩
  | absent c m' cb' hc hm =>
    refine ⟨n, h, ?_⟩
    simp [Event.begins, hc, Event.op, Output.op, List.countP_cons, toNat_eq_ite,
      Nat.add_comm]
  | removing c m' cb' r hc hm =>
    obtain ⟨n', hn', heq⟩ := hmoves c (some (.remove m' cb' r))
    refine ⟨n', hn', ?_⟩
    simpa [Event.begins, hc, Event.op, Phase.op] using heq
  | removed c m' cb' r hc =>
    obtain ⟨n', hn', heq⟩ := hmoves c none
    refine ⟨n', hn', ?_⟩
    simpa [Event.begins, hc, Phase.op, Output.op, List.countP_cons, toNat_eq_ite] using heq

/-- **The run**: what was begun is done, or some threads are on the way to
it. -/
theorem balance_run (s : State Member Class Ptr Cb) (es : List (Event Member Cb))
    (h : Holding (fun ph => ph.op m cb == some b) s.calls n) :
    ∃ n', Holding (fun ph => ph.op m cb == some b) (Machine.run (step S P) s es).calls n' ∧
      n + (accepted S P s es).countP (fun e => e.op m cb == some b) =
        (Machine.outputs (step S P) s es).countP (fun o => o.op m cb == some b) + n' := by
  induction es generalizing s n with
  | nil => exact ⟨n, h, by simp [accepted]⟩
  | cons e es ih =>
    obtain ⟨n₁, hn₁, hstep⟩ := (step_effect s e).balance h
    obtain ⟨n₂, hn₂, hrun⟩ := ih (step S P s e).1 hn₁
    refine ⟨n₂, hn₂, ?_⟩
    have hhead : (if e.begins P s then [e] else []).countP (fun e => e.op m cb == some b) =
        (e.begins P s && e.op m cb == some b).toNat := by
      cases e.begins P s with
      | false => rfl
      | true => simp [List.countP_cons, toNat_eq_ite]
    rw [accepted, List.countP_append, hhead, Machine.outputs_cons, List.countP_append]
    omega

/-- **Every call does its operation, once**, and nothing else is done. -/
theorem perm_of_ended {es : List (Event Member Cb)}
    (hended : ∀ c, (Machine.run (step S P) {} es).calls c = none) (m : Member) (cb : Cb) :
    ((Machine.outputs (step S P) {} es).filterMap (Output.op m cb)).Perm
      ((accepted S P {} es).filterMap (Event.op m cb)) := by
  refine List.perm_iff_count.mpr fun b => ?_
  have hidle : Holding (fun ph => ph.op m cb == some b)
      ({} : State Member Class Ptr Cb).calls 0 := holding_idle fun _ => rfl
  obtain ⟨n, hn, heq⟩ := balance_run (S := S) (P := P) {} es hidle
  rw [hn.eq_zero hended, Nat.zero_add, Nat.add_zero] at heq
  rw [List.count_filterMap, List.count_filterMap]
  exact heq.symm

/-- A step of its thread brings a call to its end, or to the installation. -/
theorem calls_proceed (s : State Member Class Ptr Cb) (c : ℕ) :
    (step S P s (.proceed c)).1.calls c = none ∨
      (∃ m cb r, s.calls c = some (.add m cb r true)) ∧
        ∃ m cb r, (step S P s (.proceed c)).1.calls c = some (.install m cb r) := by
  have hself : ∀ (t : State Member Class Ptr Cb) phase, (t.goes c phase).calls c = phase := by
    intro t phase
    rw [State.calls_goes, if_pos rfl]
  cases hc : s.calls c with
  | none => exact .inl (by simp only [step, hc])
  | some ph =>
    cases ph with
    | add m cb r newMethod =>
      cases newMethod with
      | true =>
        refine .inr ⟨⟨m, cb, r, rfl⟩, m, cb, r, ?_⟩
        simp only [step, hc, if_true]
        exact hself _ _
      | false =>
        refine .inl ?_
        simp only [step, hc, Bool.false_eq_true, if_false]
        exact hself _ _
    | install m cb r =>
      refine .inl ?_
      simp only [step, hc]
      split
      · exact hself _ _
      · exact hself _ _
    | remove m cb r =>
      refine .inl ?_
      simp only [step, hc]
      exact hself _ _

/-- Two steps of its thread end a call. -/
theorem calls_proceed_proceed (s : State Member Class Ptr Cb) (c : ℕ) :
    (Machine.run (step S P) s [.proceed c, .proceed c]).calls c = none := by
  rw [Machine.run_cons, Machine.run_cons, Machine.run_nil]
  rcases calls_proceed (step S P s (.proceed c)).1 c with hnone | ⟨⟨m, cb, r, hadd⟩, -⟩
  · exact hnone
  · rcases calls_proceed s c with hnone | ⟨-, m', cb', r', hinstall⟩
    · cases hadd.symm.trans hnone
    · cases hadd.symm.trans hinstall

/-- Some call is to hook the member. -/
theorem mem_accepted_iff {es : List (Event Member Cb)} (m : Member) :
    (∃ c cb, .hookMethod c m cb ∈ accepted S P {} es) ↔
      ∃ cb, true ∈ (accepted S P {} es).filterMap (Event.op m cb) := by
  constructor
  · rintro ⟨c, cb, hmem⟩
    exact ⟨cb, List.mem_filterMap.mpr ⟨_, hmem, by simp [Event.op]⟩⟩
  · rintro ⟨cb, hmem⟩
    obtain ⟨e, he, hop⟩ := List.mem_filterMap.mp hmem
    cases e with
    | hookMethod c m' cb' =>
      obtain ⟨⟨rfl, rfl⟩, -⟩ : (m' = m ∧ cb' = cb) ∧ true = true := by simpa [Event.op] using hop
      exact ⟨c, cb', he⟩
    | unhookMethod c m' cb' => simp [Event.op] at hop
    | proceed c => simp [Event.op] at hop

end Accepted

section Run

variable [DecidableEq Ptr] [DecidableEq Cb] {S : ArraySort Cb}

theorem stage_run (hP : ∀ m, P.check m = .ok () → P.methodOf m ≠ none)
    (es : List (Event Member Cb)) (m : Member) :
    Stage (Machine.run (step S P) {} es) (Machine.outputs (step S P) {} es) m := by
  have hstep : ∀ (s : State Member Class Ptr Cb) e log, Inv P s log ∧ Stage s log m →
      Inv P (step S P s e).1 (log ++ (step S P s e).2) ∧
        Stage (step S P s e).1 (log ++ (step S P s e).2) m :=
    fun s e _ h => ⟨h.1.effect (step_effect s e), h.2.effect hP h.1 (step_effect s e)⟩
  have hinitial : Stage ({} : State Member Class Ptr Cb) [] m :=
    .untouched rfl rfl fun _ => nofun
  have hrun := Machine.run_outputs_invariant hstep ⟨Inv.initial, hinitial⟩ es
  rw [List.nil_append] at hrun
  exact hrun.2

theorem added_mem_iff (m : Member) (cb : Cb) (log : List (Output Member Class Cb)) :
    .added m cb ∈ log ↔ true ∈ log.filterMap (Output.op m cb) := by
  constructor
  · intro hmem
    exact List.mem_filterMap.mpr ⟨_, hmem, by simp [Output.op]⟩
  · intro hmem
    obtain ⟨o, ho, hop⟩ := List.mem_filterMap.mp hmem
    cases o with
    | added m' cb' =>
      obtain ⟨⟨rfl, rfl⟩, -⟩ : (m' = m ∧ cb' = cb) ∧ true = true := by simpa [Output.op] using hop
      exact ho
    | removed m' cb' => simp [Output.op] at hop
    | hookMethodNative m' info => simp [Output.op] at hop
    | returned m' cb' => simp [Output.op] at hop
    | threw m' cb' e => simp [Output.op] at hop

/-- **What a run of overlapping calls comes to.** `hookMethodNative` is called
at most once for a member and, when all calls have ended, for every member
that a call was to hook and no other; it is given the set in the map. By then
every call has done its operation on the set of its member, once, and no
other operation is done; and at any time the set holds a callback, once, if
the last operation for it was to put it there. No call lasts longer than two
steps of its thread. -/
structure HookedOnce (S : ArraySort Cb) (P : Platform Member Class Ptr)
    (es : List (Event Member Cb)) (s : State Member Class Ptr Cb)
    (log : List (Output Member Class Cb)) : Prop where
  atMostOnce : ∀ m, natives m log ≤ 1
  once : (∀ c, s.calls c = none) →
    ∀ m, natives m log = 1 ↔ ∃ c cb, .hookMethod c m cb ∈ accepted S P {} es
  ownSet : ∀ m info, .hookMethodNative m info ∈ log →
    s.sHookedMethodCallbacks m = some info.callbacks
  every : (∀ c, s.calls c = none) → ∀ m cb,
    (log.filterMap (Output.op m cb)).Perm ((accepted S P {} es).filterMap (Event.op m cb))
  mem_iff : ∀ m cb, (∃ r, s.sHookedMethodCallbacks m = some r ∧ cb ∈ s.sets r) ↔
    lastOp m cb log = some true
  nodup : ∀ m r, s.sHookedMethodCallbacks m = some r → (s.sets r).Nodup
  ends : ∀ c, (Machine.run (step S P) s [.proceed c, .proceed c]).calls c = none

/-- **Hooking is done once**, for any interleaving of any calls, if the members
that pass the checks can be hooked. -/
theorem hookedOnce_run (hP : ∀ m, P.check m = .ok () → P.methodOf m ≠ none)
    (es : List (Event Member Cb)) :
    HookedOnce S P es (Machine.run (step S P) {} es) (Machine.outputs (step S P) {} es) := by
  have hinv : Inv P (Machine.run (step S P) {} es) (Machine.outputs (step S P) {} es) := inv_run es
  have hstage : ∀ m, Stage (Machine.run (step S P) {} es) (Machine.outputs (step S P) {} es) m :=
    stage_run hP es
  refine ⟨fun m => ?_, fun hended m => ?_, hinv.native, fun hended m cb => perm_of_ended hended m cb,
    hinv.sets, fun m r _ => hinv.nodup r, calls_proceed_proceed _⟩
  · cases hstage m with
    | untouched hm hn hc => omega
    | creating c hm hn hc => omega
    | installed hm hn hc => omega
  · -- a call that was to hook the member has added its callback by now
    have hadded : (∃ c cb, .hookMethod c m cb ∈ accepted S P {} es) ↔
        ∃ cb, .added m cb ∈ Machine.outputs (step S P) {} es := by
      rw [mem_accepted_iff]
      refine exists_congr fun cb => ?_
      rw [added_mem_iff, (perm_of_ended hended m cb).mem_iff]
    have hcreator : ∀ c, (Machine.run (step S P) {} es).creator c = none := by
      intro c
      rw [State.creator, hended c]
      rfl
    rw [hadded]
    cases hstage m with
    | untouched hm hn hc =>
      refine iff_of_false (by omega) ?_
      rintro ⟨cb, hcb⟩
      exact hinv.added m cb hcb hm
    | creating c hm hn hc =>
      have hcreates := (hc c).mpr rfl
      rw [hcreator c] at hcreates
      cases hcreates
    | installed hm hn hc =>
      refine iff_of_true hn ?_
      obtain ⟨r, hr⟩ := Option.ne_none_iff_exists'.mp hm
      obtain hadded | ⟨c, cb, b, hph⟩ := hinv.entered m r hr
      · exact hadded
      · cases (hended c).symm.trans hph

end Run

/-- A class of methods that are known by their slots. -/
def plainMethods : Platform Int32 Unit Int32 where
  kind _ := .method [] ()
  declaringClass _ := ()
  isInterface _ := false
  isAbstract _ := false
  toString _ := "method"
  slot m := .ok m
  dvmSlotToMethod _ i := some i
  own m m' i i' p h h' hp hp' := by
    rw [Except.ok.inj h, Except.ok.inj h', Option.some.inj hp, Option.some.inj hp']

/-- Two threads hook one method and a third takes a callback out, before the
method is installed. All three calls are begun and end. -/
theorem hookedOnce_threads :
    let S : ArraySort ℕ := ⟨id, fun _ => .rfl⟩
    let es : List (Event Int32 ℕ) := [.hookMethod 0 5 1, .hookMethod 1 5 2, .proceed 1,
      .unhookMethod 2 5 2, .proceed 0, .proceed 2, .proceed 0]
    (∀ m, plainMethods.check m = .ok () → plainMethods.methodOf m ≠ none) ∧
      (∀ c, (Machine.run (step S plainMethods) {} es).calls c = none) ∧
      (accepted S plainMethods {} es).length = 3 ∧
      HookedOnce S plainMethods es (Machine.run (step S plainMethods) {} es)
        (Machine.outputs (step S plainMethods) {} es) := by
  intro S es
  have hP : ∀ m, plainMethods.check m = .ok () → plainMethods.methodOf m ≠ none :=
    fun m _ => Option.some_ne_none m
  refine ⟨hP, fun c => ?_, rfl, hookedOnce_run hP es⟩
  rcases c with _ | _ | _ | c
  · rfl
  · rfl
  · rfl
  · rfl

end Hooking

end Dynamicloader
