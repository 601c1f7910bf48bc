import Dynamicloader.Resources.Cache
/-!
# A reload between the two sections of `setReplacement`

`setReplacement` sets the bit under the lock of the bitmap and puts the entry
under the lock of `sReplacements`, and holds neither lock in between.
`isFirstLoad` clears both under the lock of `sReplacements`. Here the
sections of any number of threads are taken in any order.

A reload that finds no call of its directory between the sections keeps what
the bitmaps owe the entries, and so do all other sections (`Settled`). One
that does find such a call takes the bit, and the entry that is put then is
not found.
-/

namespace Dynamicloader

namespace Resources

variable {R X : Type}

/-- A call of `setReplacement` that has set its bit. -/
structure Call (R X : Type) where
  id : JInt
  replacement : Option (Value R X)
  resDir : Option String

/-- The tables, and for each thread the call it has begun. -/
structure Threads (R X : Type) where
  state : State R X := {}
  pending : ℕ → Option (Call R X) := fun _ => none

/-- What runs without another thread in between; `i` is an object, `null` for
a replacement for all, and `k` a thread. -/
inductive Section (R X : Type) where
  | create (i : ℕ)
  | initObject (i : ℕ) (resDir packageName : Option String)
  | isFirstLoad (i : ℕ) (lastModification : Int64)
  | mark (k : ℕ) (i : Option ℕ) (id : JInt) (replacement : Option (Value R X))
  | put (k : ℕ)

namespace Threads

/-- The first half of `setReplacement`: its checks and the bit. -/
def mark (c : Threads R X) (k : ℕ) (res : Option Res) (id : JInt)
    (replacement : Option (Value R X)) : Except Throwable (Threads R X) := do
  let resDir := res.bind (·.mResDir)
  checkReplacement id replacement resDir
  let s ← markReplacement id res c.state
  return { state := s, pending := Function.update c.pending k (some ⟨id, replacement, resDir⟩) }

/-- The second half: the entry. -/
def put (c : Threads R X) (k : ℕ) (call : Call R X) : Threads R X :=
  { state := putReplacement call.id call.replacement call.resDir c.state
    pending := Function.update c.pending k none }

/-- A section. A thread that is in a call begins no other, and there is no
call on an object that is not there. -/
def step : Machine (Threads R X) (Section R X) Empty
  | c, .create i => ({ c with state := (Resources.step c.state (.create i)).1 }, [])
  | c, .initObject i resDir packageName =>
    ({ c with state := (Resources.step c.state (.initObject i resDir packageName)).1 }, [])
  | c, .isFirstLoad i lastModification =>
    ({ c with state := (Resources.step c.state (.isFirstLoad i lastModification)).1 }, [])
  | c, .mark k i id replacement =>
    (match c.pending k, i with
      | some _, _ => c
      | none, none => (c.mark k none id replacement).toOption.getD c
      | none, some i =>
        match c.state.objects i with
        | none => c
        | some res => (c.mark k (some res) id replacement).toOption.getD c, [])
  | c, .put k =>
    (match c.pending k with
      | none => c
      | some call => c.put k call, [])

/-- The two halves, one after the other, are the call. -/
theorem mark_put (c : Threads R X) (k : ℕ) (res : Option Res) (id : JInt)
    (v : Option (Value R X)) :
    ((c.mark k res id v).map fun c' =>
        (c'.put k ⟨id, v, res.bind (·.mResDir)⟩).state) =
      setReplacement id v res c.state := by
  unfold mark setReplacement
  dsimp only
  cases checkReplacement id v (res.bind (·.mResDir)) with
  | error e => rfl
  | ok _ =>
    cases markReplacement id res c.state with
    | error e => rfl
    | ok s => rfl

theorem mark_ok {c c' : Threads R X} {k : ℕ} {res : Option Res} {id : JInt}
    {v : Option (Value R X)} (h : c.mark k res id v = .ok c') :
    markReplacement id res c.state = .ok c'.state ∧
      c'.pending = Function.update c.pending k (some ⟨id, v, res.bind (·.mResDir)⟩) := by
  unfold mark at h
  dsimp only at h
  obtain ⟨_, -, h⟩ := ok_of_bind h
  obtain ⟨s, hmark, h⟩ := ok_of_bind h
  cases h
  exact ⟨hmark, rfl⟩

/-! ## The invariant -/

/-- What has an entry has its bit, and so has what is about to have one. -/
structure Settled (c : Threads R X) : Prop where
  sound : Sound c.state
  flagged : ∀ k call, c.pending k = some call → c.state.Flagged call.id call.resDir

/-- **A reload waits for the calls of its directory**: it may find others
between their sections, and those for ids of the framework, whose bitmap it
leaves alone. -/
def Quiet (c : Threads R X) : Section R X → Prop
  | .isFirstLoad i lastModification => ∀ res dir, c.state.objects i = some res →
      reloads lastModification res c.state = some dir →
      ∀ k call, c.pending k = some call → call.resDir = some dir → isSystemId call.id = true
  | _ => True

theorem settled_initial : Settled ({} : Threads R X) :=
  ⟨sound_initial, fun _ _ h => nomatch h⟩

end Threads

/-- Bits of the framework stay. -/
theorem State.flagged_of_system {s s' : State R X} {id : JInt} {dir dir' : Option String}
    (hid : isSystemId id = true) (hs : s'.sSystemReplacementsCache = s.sSystemReplacementsCache)
    (hf : s.Flagged id dir) : s'.Flagged id dir' := by
  unfold State.Flagged at hf ⊢
  rw [if_pos hid] at hf ⊢
  rwa [hs]

/-- A reload leaves the bits of other directories and of the framework. -/
theorem isFirstLoad_flagged {s : State R X} (hs : Wired s) {res : Res} (hres : res.WiredTo s)
    {t : Int64} {id : JInt} {dir' : Option String} (hf : s.Flagged id dir')
    (hother : ∀ dir, reloads t res s = some dir → dir' = some dir → isSystemId id = true) :
    (isFirstLoad t res s).2.Flagged id dir' := by
  obtain ⟨-, times, heq⟩ | ⟨dir, ref, hload, hmap, heq⟩ := isFirstLoad_cases hres t
  · rw [heq]
    exact hf
  · rw [heq]
    by_cases hsame : dir' = some dir
    · exact State.flagged_of_system (s := s) (hother dir hload hsame) rfl hf
    · exact reload_flagged hs hmap hsame hf

/-- It takes all bits of its own. -/
theorem not_flagged_reload {s : State R X} {t : Int64} {dir : String} {ref : ℕ}
    (hmap : s.sReplacementsCacheMap dir = some ref) {id : JInt} (hid : isSystemId id = false) :
    ¬ (reload t dir ref s).Flagged id (some dir) := by
  unfold State.Flagged
  rw [hid]
  rintro ⟨d, cache, hd, hcache, hmarked⟩
  cases hd
  have hzero := cacheOf_modify s ref (fun _ => Vector.replicate 128 0) dir
  rw [if_pos hmap] at hzero
  obtain ⟨_, -, rfl⟩ := Option.map_eq_some_iff.mp (hzero.symm.trans hcache)
  rw [marked_eq, Vector.getElem_replicate] at hmarked
  simp at hmarked

namespace Threads

/-! ## Sections -/

theorem Settled.mark {c : Threads R X} (hc : Settled c) {res : Option Res}
    (hres : ∀ r, res = some r → r.WiredTo c.state) (k : ℕ) (id : JInt) (v : Option (Value R X)) :
    Settled ((c.mark k res id v).toOption.getD c) := by
  cases h : c.mark k res id v with
  | error e => exact hc
  | ok c' =>
    obtain ⟨hmark, hpending⟩ := mark_ok h
    refine ⟨hc.sound.mark hmark, fun k' call hcall => ?_⟩
    rw [Except.toOption, Option.getD_some] at hcall ⊢
    rw [hpending] at hcall
    by_cases hk : k' = k
    · rw [hk, Function.update_self] at hcall
      cases hcall
      exact mark_flags hc.sound.wired hres hmark
    · rw [Function.update_of_ne hk] at hcall
      exact mark_flagged hmark (hc.flagged k' call hcall)

theorem Settled.put {c : Threads R X} (hc : Settled c) {k : ℕ} {call : Call R X}
    (hcall : c.pending k = some call) : Settled (c.put k call) := by
  refine ⟨hc.sound.put (hc.flagged k call hcall) _, fun k' call' hcall' => ?_⟩
  have hother : c.pending k' = some call' := by
    by_cases hk : k' = k
    · simp [Threads.put, hk] at hcall'
    · simp only [Threads.put, Function.update_of_ne hk] at hcall'
      exact hcall'
  exact put_flagged.mpr (hc.flagged k' call' hother)

/-- **Every section keeps the bits that are owed**, a reload if it waits. -/
theorem Settled.step {c : Threads R X} (e : Section R X) (he : c.Quiet e) (hc : Settled c) :
    Settled (Threads.step c e).1 := by
  have hwired := hc.sound.wired
  cases e with
  | create i =>
    have h := step_create hwired i
    exact ⟨h.sound hc.sound, fun k call hcall => h.flagged (hc.flagged k call hcall)⟩
  | initObject i resDir packageName =>
    have h := step_initObject hwired i resDir packageName
    exact ⟨h.sound hc.sound, fun k call hcall => h.flagged (hc.flagged k call hcall)⟩
  | isFirstLoad i t =>
    refine ⟨hc.sound.step (.isFirstLoad i t), fun k call hcall => ?_⟩
    have hf := hc.flagged k call hcall
    cases hi : c.state.objects i with
    | none =>
      simp only [Threads.step, Resources.step, hi]
      exact hf
    | some res =>
      simp only [Threads.step, Resources.step, hi]
      refine isFirstLoad_flagged hwired (hwired.objects i res hi) hf ?_
      intro dir hload hsame
      exact he res dir hi hload k call hcall hsame
  | mark k i id v =>
    unfold Threads.step
    dsimp only
    split
    · exact hc
    · exact hc.mark (by simp) k id v
    · rename_i i _
      cases hi : c.state.objects i with
      | none => exact hc
      | some res =>
        refine hc.mark ?_ k id v
        rintro _ ⟨⟩
        exact hwired.objects i res hi
  | put k =>
    unfold Threads.step
    dsimp only
    cases hcall : c.pending k with
    | none => exact hc
    | some call => exact hc.put hcall

/-! ## Runs -/

/-- **No replacement is lost**: what has an entry for a directory has its bit
in the bitmap of it, and every object of the directory gets what the tables
say. -/
def NoneLost (s : State R X) : Prop :=
  ∀ id dir, isSystemId id = false → s.Present id (some dir) →
    s.Flagged id (some dir) ∧ ∀ i res, s.objects i = some res → res.mResDir = some dir →
      getReplacement id res s = .ok (s.entry id (some dir) <|> s.entry id none)

/-- **No replacement is lost to a reload that waits** for the calls of its
directory, whatever the order of the sections. -/
theorem none_lost_of_quiet (es : List (Section R X)) (hes : Machine.Along step Quiet {} es) :
    NoneLost (Machine.run step {} es).state := by
  have hstep : ∀ (c : Threads R X) e, c.Quiet e → Settled c → Settled (step c e).1 :=
    fun c e he hc => hc.step e he
  have hs := (Machine.run_along hstep hes settled_initial).sound
  intro id dir hid hpresent
  refine ⟨hs.covered id _ hpresent, fun i res hi hdir => ?_⟩
  rw [hs.getReplacement_eq (hs.wired.objects i res hi) (sle_zero_eq_false (app_positive hid)),
    lookup_eq, hdir]

/-- Two objects of the directory, the file changing once: a call on the one
object is over before the other reloads, and a call of the framework and one
of another directory are under way. -/
theorem none_lost_of_quiet_run :
    let es : List (Section Unit Unit) :=
      [.create 0, .initObject 0 (some "base.apk") (some "app"), .isFirstLoad 0 1,
        .create 1, .initObject 1 (some "base.apk") (some "app"),
        .create 2, .initObject 2 (some "other.apk") (some "other"),
        .mark 0 (some 0) 0x7f020001 (some (.other ())), .put 0,
        .mark 1 (some 2) 0x7f020001 (some (.other ())), .mark 0 none 0x01010001 none,
        .isFirstLoad 1 2, .put 1, .put 0]
    Machine.Along step Quiet {} es ∧ NoneLost (Machine.run step {} es).state := by
  intro es
  have hes : Machine.Along step Quiet ({} : Threads Unit Unit) es := by
    refine ⟨trivial, trivial, ?_, trivial, trivial, trivial, trivial, trivial, trivial, trivial,
      trivial, ?_, trivial, trivial, trivial⟩
    · rintro res dir ⟨⟩ ⟨⟩
    · rintro res dir ⟨⟩ ⟨⟩ (_ | _ | k) call hcall hdir
      · cases hcall
        rfl
      · cases hcall
        exact absurd hdir (by simp)
      · cases hcall
  exact ⟨hes, none_lost_of_quiet es hes⟩

/-- **A reload between the sections loses the replacement**: the entry is put
and the bit is gone. -/
theorem reload_loses {c : Threads R X} (hc : Settled c) {i : ℕ} {res : Res}
    (hi : c.state.objects i = some res) {t : Int64} {dir : String}
    (hload : reloads t res c.state = some dir) {k : ℕ} {call : Call R X}
    (hcall : c.pending k = some call) (hcalldir : call.resDir = some dir)
    (hid : isSystemId call.id = false) :
    let c' := Machine.run step c [.isFirstLoad i t, .put k]
    c'.state.Present call.id (some dir) ∧ ¬ c'.state.Flagged call.id (some dir) := by
  obtain ⟨hnone, -⟩ | ⟨dir', ref, hload', hmap, hreload⟩ :=
    isFirstLoad_cases (hc.sound.wired.objects i res hi) t
  · rw [hnone] at hload
    cases hload
  obtain rfl : dir' = dir := Option.some.inj (hload'.symm.trans hload)
  have hrun : (Machine.run step c [.isFirstLoad i t, .put k]).state =
      putReplacement call.id call.replacement (some dir') (reload t dir' ref c.state) := by
    simp only [Machine.run, Threads.step, Resources.step, hi, hreload, hcall, Threads.put, hcalldir]
  intro c'
  simp only [c', hrun]
  constructor
  · rw [State.Present, putReplacement, Nested.get_put, if_pos ⟨rfl, rfl⟩]
    exact Option.some_ne_none _
  · rw [put_flagged]
    exact not_flagged_reload hmap hid

/-- A reload between the two sections of the only call. -/
theorem replacement_lost :
    let es : List (Section Unit Unit) :=
      [.create 0, .initObject 0 (some "base.apk") (some "app"), .isFirstLoad 0 1,
        .mark 0 (some 0) 0x7f020001 (some (.other ())), .isFirstLoad 0 2, .put 0]
    let c := Machine.run step {} es
    (∀ k, c.pending k = none) ∧ ¬ NoneLost c.state ∧
      ∃ res, c.state.objects 0 = some res ∧
        c.state.entry 0x7f020001 res.mResDir = some (.other ()) ∧
        getReplacement 0x7f020001 res c.state = .ok none := by
  intro es c
  let res : Res := ⟨some "base.apk", some 0, true⟩
  have hget : getReplacement 0x7f020001 res c.state = .ok none := rfl
  refine ⟨?_, fun hfound => ?_, res, rfl, rfl, hget⟩
  · rintro (_ | k)
    · rfl
    · rfl
  · have hfinds := (hfound 0x7f020001 "base.apk" rfl (Option.some_ne_none _)).2 0 res rfl rfl
    rw [hget] at hfinds
    cases hfinds

end Threads

end Resources

end Dynamicloader
