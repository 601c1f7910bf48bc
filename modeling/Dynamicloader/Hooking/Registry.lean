import Dynamicloader.Hooking.Model
import Mathlib.Data.List.Basic
/-!
# Overlapping calls of `hookMethod` and `unhookMethod`

`Effect` lists what a step of a thread can do. The map only grows and its
sets are never replaced, so a call that holds a set holds the one of its
member for as long as it runs; that is why the operations on the sets can be
read off the order of the steps alone, and why the one call that made the
set is the one that installs it.
-/

namespace Dynamicloader

namespace Hooking

open Bridge (ArraySort CopyOnWriteSortedSet)

variable {Member Class Ptr Cb : Type}

/-- The `Method*` of a member, if its slot can be read and names one. -/
def Platform.methodOf (P : Platform Member Class Ptr) (m : Member) : Option Ptr :=
  (P.slot m).toOption.bind (P.dvmSlotToMethod (P.declaringClass m))

/-- **A method belongs to one member.** -/
theorem Platform.methodOf_inj (P : Platform Member Class Ptr) {m m' : Member} {p : Ptr}
    (h : P.methodOf m = some p) (h' : P.methodOf m' = some p) : m = m' := by
  unfold methodOf at h h'
  cases hi : P.slot m with
  | error e => simp [hi, Except.toOption] at h
  | ok i =>
    cases hi' : P.slot m' with
    | error e => simp [hi', Except.toOption] at h'
    | ok i' =>
      rw [hi] at h
      rw [hi'] at h'
      exact P.own m m' i i' p hi hi' h h'

variable [DecidableEq Member] [DecidableEq Cb]

namespace State

variable (s : State Member Class Ptr Cb)

omit [DecidableEq Member] [DecidableEq Cb] in
theorem calls_goes (c : ℕ) (phase : Option (Phase Member Cb)) (c' : ℕ) :
    (s.goes c phase).calls c' = if c' = c then phase else s.calls c' := Function.update_apply ..

/-- The state with another array in a set. -/
def putSet (r : ℕ) (callbacks : CopyOnWriteSortedSet Cb) : State Member Class Ptr Cb :=
  { s with sets := Function.update s.sets r callbacks }

omit [DecidableEq Member] [DecidableEq Cb] in
theorem sets_putSet (r : ℕ) (callbacks : CopyOnWriteSortedSet Cb) (r' : ℕ) :
    (s.putSet r callbacks).sets r' = if r' = r then callbacks else s.sets r' :=
  Function.update_apply ..

/-- The state with a set for a new member. -/
def create (m : Member) : State Member Class Ptr Cb :=
  { s with
    made := s.made + 1
    sHookedMethodCallbacks := Function.update s.sHookedMethodCallbacks m (some s.made) }

omit [DecidableEq Cb] in
theorem map_create (m m' : Member) :
    (s.create m).sHookedMethodCallbacks m' =
      if m' = m then some s.made else s.sHookedMethodCallbacks m' := Function.update_apply ..

variable {s} {m m' : Member} {r : ℕ}

omit [DecidableEq Cb] in
/-- A set that is in the map now is the new one, or was there before. -/
theorem of_map_create (h : (s.create m).sHookedMethodCallbacks m' = some r) :
    (m' = m ∧ r = s.made) ∨ s.sHookedMethodCallbacks m' = some r := by
  rw [map_create] at h
  split at h
  case isTrue heq => exact .inl ⟨heq, (Option.some.inj h).symm⟩
  case isFalse => exact .inr h

omit [DecidableEq Cb] in
/-- The sets that were in the map stay. -/
theorem map_create_of_some (hm : s.sHookedMethodCallbacks m = none)
    (h : s.sHookedMethodCallbacks m' = some r) :
    (s.create m).sHookedMethodCallbacks m' = some r := by
  rw [map_create, if_neg]
  · exact h
  · rintro rfl
    rw [hm] at h
    cases h

end State

variable {P : Platform Member Class Ptr} {s s' : State Member Class Ptr Cb}
  {out log : List (Output Member Class Cb)}

/-! ## What holds of every run -/

def Phase.member : Phase Member Cb → Member
  | .add m _ _ _ => m
  | .install m _ _ => m
  | .remove m _ _ => m

def Phase.callbacks : Phase Member Cb → ℕ
  | .add _ _ r _ => r
  | .install _ _ r => r
  | .remove _ _ r => r

/-- An operation on the set of `m`: whether `cb` is put there or taken out. -/
def Output.op (m : Member) (cb : Cb) : Output Member Class Cb → Option Bool
  | .added m' cb' => if m' = m ∧ cb' = cb then some true else none
  | .removed m' cb' => if m' = m ∧ cb' = cb then some false else none
  | _ => none

/-- The last operation for `m` and `cb`. -/
def lastOp (m : Member) (cb : Cb) (log : List (Output Member Class Cb)) : Option Bool :=
  (log.filterMap (Output.op m cb)).getLast?

theorem lastOp_append (m : Member) (cb : Cb) (log out : List (Output Member Class Cb)) :
    lastOp m cb (log ++ out) = (lastOp m cb out).or (lastOp m cb log) := by
  rw [lastOp, List.filterMap_append, List.getLast?_append]
  rfl

/-- **The state and what was seen so far**: every call in progress holds the
set of its member, the sets hold what was put there last, and a hooked method
was given the set of its member. -/
structure Inv (P : Platform Member Class Ptr) (s : State Member Class Ptr Cb)
    (log : List (Output Member Class Cb)) : Prop where
  made : ∀ m r, s.sHookedMethodCallbacks m = some r → r < s.made
  inj : ∀ m m' r, s.sHookedMethodCallbacks m = some r → s.sHookedMethodCallbacks m' = some r →
    m = m'
  checked : ∀ m r, s.sHookedMethodCallbacks m = some r → P.check m = .ok ()
  new : ∀ r, s.made ≤ r → s.sets r = []
  nodup : ∀ r, (s.sets r).Nodup
  calls : ∀ c ph, s.calls c = some ph → s.sHookedMethodCallbacks ph.member = some ph.callbacks
  entered : ∀ m r, s.sHookedMethodCallbacks m = some r →
    (∃ cb, .added m cb ∈ log) ∨ ∃ c cb b, s.calls c = some (.add m cb r b)
  added : ∀ m cb, .added m cb ∈ log → s.sHookedMethodCallbacks m ≠ none
  native : ∀ m info, .hookMethodNative m info ∈ log →
    s.sHookedMethodCallbacks m = some info.callbacks
  sets : ∀ m cb, (∃ r, s.sHookedMethodCallbacks m = some r ∧ cb ∈ s.sets r) ↔
    lastOp m cb log = some true
  hooked : ∀ p m info, s.hookInfo p = some (m, info) →
    P.methodOf m = some p ∧ s.sHookedMethodCallbacks m = some info.callbacks

namespace Inv

theorem initial : Inv P ({} : State Member Class Ptr Cb) [] where
  made _ _ h := by cases h
  inj _ _ _ h := by cases h
  checked _ _ h := by cases h
  new _ _ := rfl
  nodup _ := List.nodup_nil
  calls _ _ h := by cases h
  entered _ _ h := by cases h
  added _ _ h := by cases h
  native _ _ h := by cases h
  sets _ _ := by simp [lastOp]
  hooked _ _ _ h := by cases h

/-- Something is seen that is no operation on a set. -/
theorem seen (h : Inv P s log) (hop : ∀ m cb, lastOp m cb out = none)
    (hadded : ∀ m cb, .added m cb ∉ out)
    (hnative : ∀ m info, .hookMethodNative m info ∈ out →
      s.sHookedMethodCallbacks m = some info.callbacks) : Inv P s (log ++ out) where
  __ := h
  entered m r hm := (h.entered m r hm).imp_left fun ⟨cb, hcb⟩ => ⟨cb, List.mem_append_left _ hcb⟩
  added m cb hcb := h.added m cb ((List.mem_append.mp hcb).resolve_right (hadded m cb))
  native m info hinfo := (List.mem_append.mp hinfo).elim (h.native m info) (hnative m info)
  sets m cb := by
    rw [lastOp_append, hop]
    exact h.sets m cb

/-- A call goes on, with the set of its member; a callback that it was about
to add has been added. -/
theorem goes (h : Inv P s log) {c : ℕ} {phase : Option (Phase Member Cb)}
    (hphase : ∀ ph, phase = some ph → s.sHookedMethodCallbacks ph.member = some ph.callbacks)
    (hadd : ∀ m cb r b, s.calls c = some (.add m cb r b) → .added m cb ∈ log) :
    Inv P (s.goes c phase) log where
  __ := h
  calls c' ph hph := by
    rw [State.calls_goes] at hph
    split at hph
    · exact hphase ph hph
    · exact h.calls c' ph hph
  entered m r hm := by
    rcases h.entered m r hm with hlog | ⟨c', cb, b, hph⟩
    · exact .inl hlog
    · by_cases hc : c' = c
      · subst hc
        exact .inl ⟨cb, hadd m cb r b hph⟩
      · exact .inr ⟨c', cb, b, by rw [State.calls_goes, if_neg hc, hph]⟩

/-- A call ends that has added its callback, if it was to add one. -/
theorem ends (h : Inv P s log) {c : ℕ}
    (hc : ∀ m cb r b, s.calls c = some (.add m cb r b) → .added m cb ∈ log) :
    Inv P (s.goes c none) log := h.goes (fun _ hph => by cases hph) hc

/-- A call begins, with the set of its member. -/
theorem begins (h : Inv P s log) {c : ℕ} (hc : s.calls c = none) {ph : Phase Member Cb}
    (hph : s.sHookedMethodCallbacks ph.member = some ph.callbacks) :
    Inv P (s.goes c (some ph)) log := by
  refine h.goes (fun ph' hph' => ?_) (fun m cb r b hadd => ?_)
  · obtain rfl := Option.some.inj hph'
    exact hph
  · rw [hc] at hadd
    cases hadd

/-- The call that installs the member ends. -/
theorem endsInstall (h : Inv P s log) {c r : ℕ} {m : Member} {cb : Cb}
    (hc : s.calls c = some (.install m cb r)) : Inv P (s.goes c none) log := by
  refine h.ends fun m' cb' r' b hadd => ?_
  rw [hc] at hadd
  cases hadd

/-- `hookMethodNative` was called, with the set of the member, and `hookMethod`
has ended. -/
theorem seenNative (h : Inv P s log) {m : Member} {info : AdditionalHookInfo Class}
    (hm : s.sHookedMethodCallbacks m = some info.callbacks) {o : Output Member Class Cb}
    (ho : (∃ m cb, o = .returned m cb) ∨ ∃ m cb e, o = .threw m cb e) :
    Inv P s (log ++ [.hookMethodNative m info, o]) := by
  refine h.seen (fun m' cb' => ?_) (fun m' cb' => ?_) (fun m' info' hinfo => ?_)
  · obtain ⟨_, _, rfl⟩ | ⟨_, _, _, rfl⟩ := ho <;> simp [lastOp, Output.op]
  · obtain ⟨_, _, rfl⟩ | ⟨_, _, _, rfl⟩ := ho <;> simp
  · rcases List.mem_cons.mp hinfo with heq | hlast
    · cases heq
      exact hm
    · obtain ⟨_, _, rfl⟩ | ⟨_, _, _, rfl⟩ := ho <;> cases List.mem_singleton.mp hlast

/-- **An operation on the set of a member** is one on no other member's. -/
theorem operate (h : Inv P s log) (cb : Cb) {m : Member} {r : ℕ} {o : Output Member Class Cb}
    {callbacks : CopyOnWriteSortedSet Cb} (hm : s.sHookedMethodCallbacks m = some r)
    (hnodup : callbacks.Nodup) (hother : ∀ cb', cb' ≠ cb → (cb' ∈ callbacks ↔ cb' ∈ s.sets r))
    (hop : ∀ m' cb', o.op m' cb' =
      if m = m' ∧ cb = cb' then some (decide (cb ∈ callbacks)) else none)
    (hadded : ∀ m' cb', o = .added m' cb' → m' = m)
    (hnative : ∀ m' info, o ≠ .hookMethodNative m' info) :
    Inv P (s.putSet r callbacks) (log ++ [o]) where
  __ := h
  new r' hr' := by
    have hne : r' ≠ r := Nat.ne_of_gt (Nat.lt_of_lt_of_le (h.made m r hm) hr')
    rw [State.sets_putSet, if_neg hne]
    exact h.new r' hr'
  nodup r' := by
    rw [State.sets_putSet]
    split
    · exact hnodup
    · exact h.nodup r'
  entered m' r' hm' :=
    (h.entered m' r' hm').imp_left fun ⟨cb', hcb'⟩ => ⟨cb', List.mem_append_left _ hcb'⟩
  added m' cb' hcb' := by
    rcases List.mem_append.mp hcb' with hlog | hlast
    · exact h.added m' cb' hlog
    · obtain rfl := hadded m' cb' (List.mem_singleton.mp hlast).symm
      exact fun hnone => by cases hm.symm.trans hnone
  native m' info hinfo := by
    rcases List.mem_append.mp hinfo with hlog | hlast
    · exact h.native m' info hlog
    · exact absurd (List.mem_singleton.mp hlast).symm (hnative m' info)
  sets m' cb' := by
    have hlast : lastOp m' cb' [o] = o.op m' cb' := by
      cases ho : o.op m' cb' with
      | none => simp [lastOp, ho]
      | some b => simp [lastOp, ho]
    rw [lastOp_append, hlast, hop]
    by_cases hmm : m = m'
    · subst hmm
      have hset : (∃ r', (s.putSet r callbacks).sHookedMethodCallbacks m = some r' ∧
          cb' ∈ (s.putSet r callbacks).sets r') ↔ cb' ∈ callbacks := by
        simp only [State.putSet, hm, Option.some.injEq, exists_eq_left', Function.update_self]
      rw [hset]
      by_cases hcb : cb = cb'
      · subst hcb
        rw [if_pos ⟨rfl, rfl⟩]
        simp
      · rw [if_neg fun hand => hcb hand.2, hother cb' (Ne.symm hcb), Option.none_or, ← h.sets m cb']
        simp only [hm, Option.some.injEq, exists_eq_left']
    · rw [if_neg fun hand => hmm hand.1, Option.none_or, ← h.sets m' cb']
      -- the set of another member is another object
      refine exists_congr fun r' => and_congr_right fun hm' => ?_
      have hne : r' ≠ r := by
        rintro rfl
        exact hmm (h.inj m m' r' hm hm')
      rw [State.sets_putSet, if_neg hne]

theorem add (S : ArraySort Cb) (h : Inv P s log) {m : Member} {r : ℕ}
    (hm : s.sHookedMethodCallbacks m = some r) (cb : Cb) :
    Inv P (s.add S r cb) (log ++ [Output.added m cb]) := by
  refine h.operate cb hm (CopyOnWriteSortedSet.nodup_add S (h.nodup r) cb) (fun cb' hne => ?_)
    (fun m' cb' => ?_) (fun m' cb' ho => by cases ho; rfl) (fun m' info ho => by cases ho)
  · rw [CopyOnWriteSortedSet.mem_add_iff]
    exact or_iff_right hne
  · have hmem : cb ∈ (CopyOnWriteSortedSet.add S (s.sets r) cb).2 :=
      (CopyOnWriteSortedSet.mem_add_iff S).mpr (.inl rfl)
    rw [decide_eq_true hmem]
    rfl

theorem remove (h : Inv P s log) {m : Member} {r : ℕ} (hm : s.sHookedMethodCallbacks m = some r)
    (cb : Cb) : Inv P (s.remove r cb) (log ++ [Output.removed m cb]) := by
  refine h.operate cb hm (CopyOnWriteSortedSet.nodup_remove (h.nodup r) cb) (fun cb' hne => ?_)
    (fun m' cb' => ?_) (fun m' cb' ho => by cases ho) (fun m' info ho => by cases ho)
  · rw [CopyOnWriteSortedSet.mem_remove_iff (h.nodup r)]
    exact and_iff_right hne
  · have hmem : cb ∉ (CopyOnWriteSortedSet.remove (s.sets r) cb).2 :=
      fun hmem => ((CopyOnWriteSortedSet.mem_remove_iff (h.nodup r)).mp hmem).1 rfl
    rw [decide_eq_false hmem]
    rfl

/-- A callback is taken from a member that has no set. -/
theorem absent (h : Inv P s log) {m : Member} (hm : s.sHookedMethodCallbacks m = none) (cb : Cb) :
    Inv P s (log ++ [Output.removed m cb]) where
  __ := h
  entered m' r hm' :=
    (h.entered m' r hm').imp_left fun ⟨cb', hcb'⟩ => ⟨cb', List.mem_append_left _ hcb'⟩
  added m' cb' hcb' := h.added m' cb' (by simpa using hcb')
  native m' info hinfo := h.native m' info (by simpa using hinfo)
  sets m' cb' := by
    by_cases hop : m = m' ∧ cb = cb'
    · obtain ⟨rfl, rfl⟩ := hop
      simp [lastOp, Output.op, hm]
    · have hnone : lastOp m' cb' [(.removed m cb : Output Member Class Cb)] = none := by
        simp [lastOp, Output.op, hop]
      rw [lastOp_append, hnone, Option.none_or]
      exact h.sets m' cb'

/-- **A set is made** for a member that had none: no other member has it, and
the call that made it is about to add to it. -/
theorem created (h : Inv P s log) {m : Member} (hm : s.sHookedMethodCallbacks m = none)
    (hcheck : P.check m = .ok ()) {c : ℕ} (hc : s.calls c = none) (cb : Cb) :
    Inv P ((s.create m).goes c (some (.add m cb s.made true))) log where
  made m' r hm' := by
    rcases State.of_map_create hm' with ⟨-, rfl⟩ | hold
    · exact Nat.lt_succ_self _
    · exact Nat.lt_succ_of_lt (h.made m' r hold)
  inj m₁ m₂ r h₁ h₂ := by
    rcases State.of_map_create h₁ with ⟨rfl, rfl⟩ | hold₁
    · rcases State.of_map_create h₂ with ⟨rfl, -⟩ | hold₂
      · rfl
      · exact absurd (h.made m₂ _ hold₂) (Nat.lt_irrefl _)
    · rcases State.of_map_create h₂ with ⟨-, rfl⟩ | hold₂
      · exact absurd (h.made m₁ _ hold₁) (Nat.lt_irrefl _)
      · exact h.inj m₁ m₂ r hold₁ hold₂
  checked m' r hm' := by
    rcases State.of_map_create hm' with ⟨rfl, -⟩ | hold
    · exact hcheck
    · exact h.checked m' r hold
  new r hr := h.new r (Nat.le_of_succ_le hr)
  nodup := h.nodup
  calls c' ph hph := by
    rw [State.calls_goes] at hph
    split at hph
    · obtain rfl := Option.some.inj hph
      exact (s.map_create m m).trans (if_pos rfl)
    · exact State.map_create_of_some hm (h.calls c' ph hph)
  entered m' r hm' := by
    rcases State.of_map_create hm' with ⟨rfl, rfl⟩ | hold
    · exact .inr ⟨c, cb, true, by rw [State.calls_goes, if_pos rfl]⟩
    · refine (h.entered m' r hold).imp_right fun ⟨c', cb', b, hph⟩ => ⟨c', cb', b, ?_⟩
      rw [State.calls_goes, if_neg]
      · exact hph
      · rintro rfl
        rw [hc] at hph
        cases hph
  added m' cb' hcb' := by
    obtain ⟨r, hold⟩ := Option.ne_none_iff_exists'.mp (h.added m' cb' hcb')
    exact Option.ne_none_iff_exists'.mpr ⟨r, State.map_create_of_some hm hold⟩
  native m' info hinfo := State.map_create_of_some hm (h.native m' info hinfo)
  sets m' cb' := by
    rw [← h.sets m' cb']
    constructor
    · rintro ⟨r, hr, hmem⟩
      rcases State.of_map_create hr with ⟨-, rfl⟩ | hold
      · -- the new set is empty
        have hnew : cb' ∈ s.sets s.made := hmem
        rw [h.new s.made (Nat.le_refl _)] at hnew
        cases hnew
      · exact ⟨r, hold, hmem⟩
    · rintro ⟨r, hold, hmem⟩
      exact ⟨r, State.map_create_of_some hm hold, hmem⟩
  hooked p m' info hp := by
    obtain ⟨hmethod, hold⟩ := h.hooked p m' info hp
    exact ⟨hmethod, State.map_create_of_some hm hold⟩

end Inv

/-! ## What a step can do -/

variable [DecidableEq Ptr]

/-- The state with a method hooked. -/
def State.hook (s : State Member Class Ptr Cb) (p : Ptr) (m : Member)
    (info : AdditionalHookInfo Class) : State Member Class Ptr Cb :=
  { s with hookInfo := Function.update s.hookInfo p (some (m, info)) }

/-- The event begins a call: its thread is in none, and the member passes the
checks. -/
def Event.begins (P : Platform Member Class Ptr) (s : State Member Class Ptr Cb) :
    Event Member Cb → Bool
  | .hookMethod c m _ => (s.calls c).isNone && (P.check m).isOk
  | .unhookMethod c _ _ => (s.calls c).isNone
  | .proceed _ => false

/-- **The effects of a step**, by the event. -/
inductive Effect (S : ArraySort Cb) (P : Platform Member Class Ptr)
    (s : State Member Class Ptr Cb) : Event Member Cb →
    State Member Class Ptr Cb → List (Output Member Class Cb) → Prop
  | idle (e : Event Member Cb) (he : e.begins P s = false) : Effect S P s e s []
  | refused (c : ℕ) (m : Member) (cb : Cb) (e : Throwable) (hcheck : P.check m = .error e) :
      Effect S P s (.hookMethod c m cb) s [.threw m cb e]
  | created (c : ℕ) (m : Member) (cb : Cb) (hc : s.calls c = none) (hcheck : P.check m = .ok ())
      (hm : s.sHookedMethodCallbacks m = none) :
      Effect S P s (.hookMethod c m cb) ((s.create m).goes c (some (.add m cb s.made true))) []
  | found (c : ℕ) (m : Member) (cb : Cb) (r : ℕ) (hc : s.calls c = none)
      (hcheck : P.check m = .ok ()) (hm : s.sHookedMethodCallbacks m = some r) :
      Effect S P s (.hookMethod c m cb) (s.goes c (some (.add m cb r false))) []
  | addedNew (c : ℕ) (m : Member) (cb : Cb) (r : ℕ) (hc : s.calls c = some (.add m cb r true)) :
      Effect S P s (.proceed c) ((s.add S r cb).goes c (some (.install m cb r))) [.added m cb]
  | added (c : ℕ) (m : Member) (cb : Cb) (r : ℕ) (hc : s.calls c = some (.add m cb r false)) :
      Effect S P s (.proceed c) ((s.add S r cb).goes c none) [.added m cb, .returned m cb]
  | installed (c : ℕ) (m : Member) (cb : Cb) (p : Ptr) (info : AdditionalHookInfo Class)
      (hc : s.calls c = some (.install m cb info.callbacks)) (hp : P.methodOf m = some p)
      (hfree : s.hookInfo p = none) :
      Effect S P s (.proceed c) ((s.hook p m info).goes c none)
        [.hookMethodNative m info, .returned m cb]
  | already (c : ℕ) (m : Member) (cb : Cb) (p : Ptr) (info : AdditionalHookInfo Class)
      (hc : s.calls c = some (.install m cb info.callbacks)) (hp : P.methodOf m = some p)
      (hhooked : s.hookInfo p ≠ none) :
      Effect S P s (.proceed c) (s.goes c none) [.hookMethodNative m info, .returned m cb]
  | unreadable (c : ℕ) (m : Member) (cb : Cb) (r : ℕ) (e : Throwable)
      (hc : s.calls c = some (.install m cb r)) (hp : P.methodOf m = none) :
      Effect S P s (.proceed c) (s.goes c none) [.threw m cb e]
  | missing (c : ℕ) (m : Member) (cb : Cb) (info : AdditionalHookInfo Class) (e : Throwable)
      (hc : s.calls c = some (.install m cb info.callbacks)) (hp : P.methodOf m = none) :
      Effect S P s (.proceed c) (s.goes c none) [.hookMethodNative m info, .threw m cb e]
  | absent (c : ℕ) (m : Member) (cb : Cb) (hc : s.calls c = none)
      (hm : s.sHookedMethodCallbacks m = none) :
      Effect S P s (.unhookMethod c m cb) s [.removed m cb]
  | removing (c : ℕ) (m : Member) (cb : Cb) (r : ℕ) (hc : s.calls c = none)
      (hm : s.sHookedMethodCallbacks m = some r) :
      Effect S P s (.unhookMethod c m cb) (s.goes c (some (.remove m cb r))) []
  | removed (c : ℕ) (m : Member) (cb : Cb) (r : ℕ) (hc : s.calls c = some (.remove m cb r)) :
      Effect S P s (.proceed c) ((s.remove r cb).goes c none) [.removed m cb]

variable {S : ArraySort Cb}

/-- The last step of a call that made the set. -/
theorem install_effect {c r : ℕ} {m : Member} {cb : Cb} (hc : s.calls c = some (.install m cb r)) :
    Effect S P s (.proceed c) (step S P s (.proceed c)).1 (step S P s (.proceed c)).2 := by
  cases hslot : P.slot m with
  | error e =>
    have hp : P.methodOf m = none := by simp [Platform.methodOf, hslot, Except.toOption]
    simp only [step, hc, install, hslot]
    exact .unreadable c m cb r e hc hp
  | ok slot =>
    have hp : P.methodOf m = P.dvmSlotToMethod (P.declaringClass m) slot := by
      simp [Platform.methodOf, hslot, Except.toOption]
    cases hmethod : P.dvmSlotToMethod (P.declaringClass m) slot with
    | none =>
      simp only [step, hc, install, hslot, hookMethodNative, hmethod]
      exact .missing c m cb ⟨r, _, _⟩ _ hc (hp.trans hmethod)
    | some p =>
      cases hhooked : s.hookInfo p with
      | none =>
        simp only [step, hc, install, hslot, hookMethodNative, hmethod, hhooked]
        exact .installed c m cb p ⟨r, _, _⟩ hc (hp.trans hmethod) hhooked
      | some info =>
        simp only [step, hc, install, hslot, hookMethodNative, hmethod, hhooked]
        exact .already c m cb p ⟨r, _, _⟩ hc (hp.trans hmethod) (by simp [hhooked])

/-- **There are no other effects.** -/
theorem step_effect (s : State Member Class Ptr Cb) (e : Event Member Cb) :
    Effect S P s e (step S P s e).1 (step S P s e).2 := by
  cases e with
  | hookMethod c m cb =>
    cases hc : s.calls c with
    | some ph =>
      simp only [step, hc]
      exact .idle _ (by simp [Event.begins, hc])
    | none =>
      cases hcheck : P.check m with
      | error e =>
        simp only [step, hc, hcheck]
        exact .refused c m cb e hcheck
      | ok u =>
        cases hm : s.sHookedMethodCallbacks m with
        | none =>
          simp only [step, hc, hcheck, State.getOrCreate, hm]
          exact .created c m cb hc hcheck hm
        | some r =>
          simp only [step, hc, hcheck, State.getOrCreate, hm]
          exact .found c m cb r hc hcheck hm
  | unhookMethod c m cb =>
    cases hc : s.calls c with
    | some ph =>
      simp only [step, hc]
      exact .idle _ (by simp [Event.begins, hc])
    | none =>
      cases hm : s.sHookedMethodCallbacks m with
      | none =>
        simp only [step, hc, hm]
        exact .absent c m cb hc hm
      | some r =>
        simp only [step, hc, hm]
        exact .removing c m cb r hc hm
  | proceed c =>
    cases hc : s.calls c with
    | none =>
      simp only [step, hc]
      exact .idle _ rfl
    | some ph =>
      cases ph with
      | add m cb r newMethod =>
        cases newMethod with
        | true =>
          simp only [step, hc]
          exact .addedNew c m cb r hc
        | false =>
          simp only [step, hc]
          exact .added c m cb r hc
      | install m cb r => exact install_effect hc
      | remove m cb r =>
        simp only [step, hc]
        exact .removed c m cb r hc

/-! ## The invariant -/

namespace Inv

theorem hook (h : Inv P s log) {p : Ptr} {m : Member} {info : AdditionalHookInfo Class}
    (hp : P.methodOf m = some p) (hm : s.sHookedMethodCallbacks m = some info.callbacks) :
    Inv P (s.hook p m info) log where
  __ := h
  hooked p' m' info' hp' := by
    have hp' := (Function.update_apply s.hookInfo p (some (m, info)) p').symm.trans hp'
    split at hp'
    · rename_i heq
      obtain ⟨rfl, rfl⟩ := Prod.mk.inj (Option.some.inj hp')
      exact ⟨heq ▸ hp, hm⟩
    · exact h.hooked p' m' info' hp'

/-- **Every step keeps it.** -/
theorem effect {e : Event Member Cb} (h : Inv P s log) (he : Effect S P s e s' out) :
    Inv P s' (log ++ out) := by
  cases he with
  | idle e he =>
    rw [List.append_nil]
    exact h
  | refused c m cb e hcheck => exact h.seen (by simp [lastOp, Output.op]) (by simp) (by simp)
  | created c m cb hc hcheck hm =>
    rw [List.append_nil]
    exact h.created hm hcheck hc cb
  | found c m cb r hc hcheck hm =>
    rw [List.append_nil]
    exact h.begins hc hm
  | addedNew c m cb r hc =>
    have hm := h.calls c _ hc
    refine (h.add S hm cb).goes (fun ph hph => ?_) (fun m' cb' r' b hc' => ?_)
    · obtain rfl := Option.some.inj hph
      exact hm
    · cases hc.symm.trans hc'
      exact List.mem_append_right _ List.mem_cons_self
  | added c m cb r hc =>
    have hadded := h.add S (h.calls c _ hc) cb
    rw [← List.singleton_append, ← List.append_assoc]
    refine (hadded.ends (c := c) fun m' cb' r' b hc' => ?_).seen (by simp [lastOp, Output.op])
      (by simp) (by simp)
    cases hc.symm.trans hc'
    exact List.mem_append_right _ List.mem_cons_self
  | installed c m cb p info hc hp hfree =>
    have hm := h.calls c _ hc
    exact ((h.hook hp hm).endsInstall hc).seenNative hm (.inl ⟨m, cb, rfl⟩)
  | already c m cb p info hc hp hhooked =>
    exact (h.endsInstall hc).seenNative (h.calls c _ hc) (.inl ⟨m, cb, rfl⟩)
  | unreadable c m cb r e hc hp =>
    exact (h.endsInstall hc).seen (by simp [lastOp, Output.op]) (by simp) (by simp)
  | missing c m cb info e hc hp =>
    exact (h.endsInstall hc).seenNative (h.calls c _ hc) (.inr ⟨m, cb, e, rfl⟩)
  | absent c m cb hc hm => exact h.absent hm cb
  | removing c m cb r hc hm =>
    rw [List.append_nil]
    exact h.begins hc hm
  | removed c m cb r hc =>
    refine (h.remove (h.calls c _ hc) cb).ends fun m' cb' r' b hc' => ?_
    cases hc.symm.trans hc'

end Inv

/-- **What holds of every run.** -/
theorem inv_run (es : List (Event Member Cb)) :
    Inv P (Machine.run (step S P) {} es) (Machine.outputs (step S P) {} es) := by
  have hstep : ∀ (s : State Member Class Ptr Cb) e log, Inv P s log →
      Inv P (step S P s e).1 (log ++ (step S P s e).2) := fun s e _ h => h.effect (step_effect s e)
  have hrun := Machine.run_outputs_invariant hstep Inv.initial es
  rwa [List.nil_append] at hrun

end Hooking

end Dynamicloader
