import Dynamicloader.Resources.Cache
/-!
# BridgeResources — ids for resources that are added

`addResource` hands out an id made of the hash of the name of a resource, and
has it replaced by a forwarder to the resource, unless the id is known in
`sReplacements`. Known is not the same as found: the test is whether there is
a table for the id, whichever directories have an entry in it.

What a run leaves in the tables of these ids follows from its log of
additions and reloads (`holder`): the first to be added with an id holds it
for good, under the directory it was added for, and is found there until that
is reloaded.

A `Resources` object is of a type `R`, and what it says a resource is called
is `getResourceName`. A Java string is a list of UTF-16 units.
-/

namespace Dynamicloader

namespace Resources

/-- A Java `String`. -/
abbrev JString := List (BitVec 16)

/-- `String.hashCode`, which wraps around. -/
def hashCode (s : JString) : JInt := s.foldl (fun h c => 31 * h + c.setWidth 32) 0

/-- **`getFakeResId`.** -/
def getFakeResId (resName : JString) : JInt := 0x7e000000 ||| (hashCode resName &&& 0x00ffffff)

variable {R X : Type} (getResourceName : R → JInt → Except Throwable JString)

/-- **`addResource`.** -/
def addResource (res : R) (id : JInt) (origRes : Res) (s : State R X) :
    Except Throwable (JInt × State R X) := do
  let fakeId := getFakeResId (← getResourceName res id)
  if (s.sReplacements fakeId).isNone then
    return (fakeId, ← setReplacement fakeId (some (.forwarder res id)) (some origRes) s)
  else
    return (fakeId, s)

/-! ## Runs -/

inductive AddEvent (R : Type) where
  | create (i : ℕ)
  | initObject (i : ℕ) (resDir packageName : Option String)
  | isFirstLoad (i : ℕ) (lastModification : Int64)
  | addResource (i : ℕ) (res : R) (id : JInt)

/-- What a run is remembered by: the ids handed out, with the directory of
the object and the resource they are for, and the directories reloaded. -/
inductive Log (R : Type) where
  | added (resDir : Option String) (res : R) (id fakeId : JInt)
  | reloaded (resDir : String)

def addStep : Machine (State R X) (AddEvent R) (Log R)
  | s, .create i => ((step s (.create i)).1, [])
  | s, .initObject i resDir packageName => ((step s (.initObject i resDir packageName)).1, [])
  | s, .isFirstLoad i lastModification =>
    ((step s (.isFirstLoad i lastModification)).1,
      ((s.objects i).bind fun res => reloads lastModification res s).toList.map .reloaded)
  | s, .addResource i res id =>
    match s.objects i with
    | none => (s, [])
    | some origRes =>
      match addResource getResourceName res id origRes s with
      | .error _ => (s, [])
      | .ok (fakeId, s') => (s', [.added origRes.mResDir res id fakeId])

/-! ## Fake ids -/

theorem getFakeResId_toNat (n : JString) :
    (getFakeResId n).toNat = 0x7e000000 + (hashCode n).toNat % 2 ^ 24 := by
  have hmask : (0x00ffffff : JInt).toNat = 2 ^ 24 - 1 := rfl
  have hbase : (0x7e000000 : JInt).toNat = 2 ^ 24 * 0x7e := rfl
  have hlt : (hashCode n).toNat % 2 ^ 24 < 2 ^ 24 := Nat.mod_lt _ (by decide)
  rw [getFakeResId, BitVec.toNat_or, BitVec.toNat_and, hmask, Nat.and_two_pow_sub_one_eq_mod, hbase,
    ← Nat.two_pow_add_eq_or_of_lt hlt]

/-- Two names get the same id when their hashes agree in the lower 24 bits. -/
theorem getFakeResId_eq_iff (m n : JString) :
    getFakeResId m = getFakeResId n ↔
      (hashCode m).toNat % 2 ^ 24 = (hashCode n).toNat % 2 ^ 24 := by
  rw [← BitVec.toNat_inj, getFakeResId_toNat, getFakeResId_toNat]
  omega

theorem getFakeResId_toInt (n : JString) :
    (getFakeResId n).toInt = 0x7e000000 + (hashCode n).toNat % 2 ^ 24 := by
  have := getFakeResId_toNat n
  rw [BitVec.toInt_eq_toNat_of_lt (by omega)]
  omega

/-- A fake id is in the range of the framework. -/
theorem getFakeResId_system (n : JString) : isSystemId (getFakeResId n) = true := by
  have h : (0x7f000000 : JInt).toInt = 0x7f000000 := rfl
  have := getFakeResId_toInt n
  rw [isSystemId, BitVec.slt_eq_decide, decide_eq_true_iff, h]
  omega

theorem getFakeResId_positive (n : JString) : 0 < (getFakeResId n).toInt := by
  have := getFakeResId_toInt n
  omega

/-! ## Who holds an id -/

/-- The resource an id was first handed out for; `live` while its entry is
there. -/
structure Holder (R : Type) where
  resDir : Option String
  res : R
  id : JInt
  live : Bool

/-- The first to be added with the id gets it, and a reload of its directory
takes the entry. -/
def Holder.next (f : JInt) : Option (Holder R) → Log R → Option (Holder R)
  | none, .added resDir res id fakeId => if fakeId = f then some ⟨resDir, res, id, true⟩ else none
  | none, .reloaded _ => none
  | some h, .added .. => some h
  | some h, .reloaded dir => some { h with live := h.live && h.resDir != some dir }

/-- **Who holds the id** after a run. -/
def holder (f : JInt) (log : List (Log R)) : Option (Holder R) := log.foldl (Holder.next f) none

/-- The tables of an id are as its holder says. -/
def Describes (s : State R X) (f : JInt) : Option (Holder R) → Prop
  | none => s.sReplacements f = none
  | some h => s.sReplacements f ≠ none ∧ ∀ dir, s.entry f dir =
      if h.live = true ∧ dir = h.resDir then some (.forwarder h.res h.id) else none

theorem Describes.of_eq {s s' : State R X} {f : JInt} {o : Option (Holder R)}
    (h : s'.sReplacements f = s.sReplacements f) (hd : Describes s f o) : Describes s' f o := by
  cases o with
  | none => exact h.trans hd
  | some a =>
    refine ⟨fun hnone => hd.1 (h.symm.trans hnone), fun dir => ?_⟩
    rw [State.entry, Nested.get, h]
    exact hd.2 dir

theorem Describes.reload {s : State R X} {f : JInt} {o : Option (Holder R)} (hd : Describes s f o)
    (t : Int64) (dir : String) (ref : ℕ) :
    Describes (Resources.reload t dir ref s) f (Holder.next f o (.reloaded dir)) := by
  have hkey := Nested.drop_eq_none_iff s.sReplacements (some dir) f
  cases o with
  | none => exact hkey.mpr hd
  | some h =>
    refine ⟨fun hnone => hd.1 (hkey.mp hnone), fun dir' => ?_⟩
    rw [entry_reload, hd.2 dir']
    simp only [Bool.and_eq_true, bne_iff_ne, ne_eq]
    by_cases hdir : dir' = some dir
    · rw [if_pos hdir, if_neg]
      rintro ⟨⟨-, hne⟩, heq⟩
      exact hne (heq.symm.trans hdir)
    · rw [if_neg hdir]
      congr 1
      rw [eq_iff_iff]
      constructor
      · rintro ⟨hlive, rfl⟩
        exact ⟨⟨hlive, hdir⟩, rfl⟩
      · rintro ⟨⟨hlive, -⟩, heq⟩
        exact ⟨hlive, heq⟩

/-! ## What a call does -/

/-- A replacement of a framework id is set without fail. -/
theorem setReplacement_forwarder {f : JInt} (hf : isSystemId f = true) (h0 : f ≠ 0) (res : R)
    (id : JInt) (origRes : Res) (s : State R X) :
    ∃ s₁, s₁.sReplacements = s.sReplacements ∧
      setReplacement f (some (.forwarder res id)) (some origRes) s =
        .ok (putReplacement f (some (.forwarder res id)) origRes.mResDir s₁) := by
  refine ⟨{ s with
    sSystemReplacementsCache := s.sSystemReplacementsCache.mark (systemCacheKey f).toNat
      (systemCacheKey_lt f) (bit f) }, rfl, ?_⟩
  simp only [setReplacement, checkReplacement, markReplacement, hf, h0, if_true, if_false,
    Bool.true_eq_false, and_false]
  rfl

theorem getFakeResId_ne_zero (n : JString) : getFakeResId n ≠ 0 := by
  intro h
  have := getFakeResId_positive n
  rw [h] at this
  exact absurd this (by decide)

variable {getResourceName}

/-- **What `addResource` does** for a resource that has a name. -/
theorem addResource_cases {res : R} {id : JInt} {n : JString}
    (hn : getResourceName res id = .ok n) (origRes : Res) (s : State R X) :
    (s.sReplacements (getFakeResId n) ≠ none ∧
        addResource getResourceName res id origRes s = .ok (getFakeResId n, s)) ∨
      (s.sReplacements (getFakeResId n) = none ∧ ∃ s₁ s', s₁.sReplacements = s.sReplacements ∧
        s' = putReplacement (getFakeResId n) (some (.forwarder res id)) origRes.mResDir s₁ ∧
        setReplacement (getFakeResId n) (some (.forwarder res id)) (some origRes) s = .ok s' ∧
        addResource getResourceName res id origRes s = .ok (getFakeResId n, s')) := by
  cases hkey : s.sReplacements (getFakeResId n) with
  | some inner =>
    refine .inl ⟨by simp, ?_⟩
    simp only [addResource, hn, bind, Except.bind, hkey, Option.isNone_some, Bool.false_eq_true,
      if_false]
    rfl
  | none =>
    obtain ⟨s₁, hs₁, hset⟩ := setReplacement_forwarder (getFakeResId_system n)
      (getFakeResId_ne_zero n) res id origRes s
    refine .inr ⟨rfl, s₁, _, hs₁, rfl, hset, ?_⟩
    simp only [addResource, hn, bind, Except.bind, hkey, Option.isNone_none, if_true, hset]
    rfl


theorem addResource_error {res : R} {id : JInt} {e : Throwable}
    (hn : getResourceName res id = .error e) (origRes : Res) (s : State R X) :
    addResource getResourceName res id origRes s = .error e := by
  unfold addResource
  rw [hn]
  rfl

/-! ## The log tells the tables -/

/-- The tables are sound and as the log says. -/
structure Logged (s : State R X) (log : List (Log R)) : Prop where
  sound : Sound s
  describes : ∀ f, Describes s f (holder f log)

theorem logged_initial : Logged ({} : State R X) [] :=
  ⟨sound_initial, fun _ => rfl⟩

theorem holder_append (f : JInt) (log out : List (Log R)) :
    holder f (log ++ out) = out.foldl (Holder.next f) (holder f log) :=
  List.foldl_append

/-- A call that leaves the tables and is not logged. -/
theorem Logged.of_eq {s s' : State R X} {log : List (Log R)} (hs : Logged s log) (hs' : Sound s')
    (h : s'.sReplacements = s.sReplacements) : Logged s' (log ++ []) := by
  rw [List.append_nil]
  exact ⟨hs', fun f => (hs.describes f).of_eq (congrFun h f)⟩

theorem Logged.isFirstLoad {s : State R X} {log : List (Log R)} (hs : Logged s log) (i : ℕ)
    (t : Int64) :
    Logged (addStep getResourceName s (.isFirstLoad i t)).1
      (log ++ (addStep getResourceName s (.isFirstLoad i t)).2) := by
  have hsound := hs.sound.step (.isFirstLoad i t)
  cases hi : s.objects i with
  | none =>
    simp only [addStep, hi, Option.bind_none, Option.toList_none, List.map_nil]
    refine hs.of_eq hsound ?_
    simp only [step, hi]
  | some res =>
    simp only [step, hi] at hsound
    obtain ⟨hnone, times, heq⟩ | ⟨dir, ref, hdir, -, heq⟩ :=
      isFirstLoad_cases (hs.sound.wired.objects i res hi) t
    · simp only [addStep, step, hi, Option.bind_some, hnone, Option.toList_none, List.map_nil]
      refine hs.of_eq hsound ?_
      rw [heq]
    · simp only [addStep, step, hi, Option.bind_some, hdir, Option.toList_some, List.map_singleton]
      refine ⟨hsound, fun f => ?_⟩
      rw [holder_append, heq]
      exact (hs.describes f).reload t dir ref

/-- An id that is handed out again stays with its holder, and no other id
changes hands. -/
theorem Describes.added {s : State R X} {f : JInt} {o : Option (Holder R)} (hd : Describes s f o)
    {fakeId : JInt} (hf : f = fakeId → s.sReplacements f ≠ none) (resDir : Option String) (res : R)
    (id : JInt) : Describes s f (Holder.next f o (.added resDir res id fakeId)) := by
  cases o with
  | some h => exact hd
  | none =>
    have hne : fakeId ≠ f := fun h => hf h.symm hd
    rw [Holder.next, if_neg hne]
    exact hd

theorem Describes.eq_none {s : State R X} {f : JInt} {o : Option (Holder R)} (hd : Describes s f o)
    (hkey : s.sReplacements f = none) : o = none := by
  cases o with
  | none => rfl
  | some h => exact absurd hkey hd.1

/-- The first to be added with an id holds it. -/
theorem Describes.put {s : State R X} {f : JInt} (hkey : s.sReplacements f = none)
    (resDir : Option String) (res : R) (id : JInt) :
    Describes (putReplacement f (some (.forwarder res id)) resDir s) f
      (some ⟨resDir, res, id, true⟩) := by
  have hnone : ∀ dir, s.entry f dir = none := fun dir => by
    rw [State.entry, Nested.get_of_eq_none hkey, Option.join_none]
  refine ⟨(Nested.put_ne_none_iff ..).mpr (.inl rfl), fun dir => ?_⟩
  rw [entry_put, hnone]
  simp only [true_and]

/-- **The log tells the tables after an addition.** -/
theorem Logged.added {s : State R X} {log : List (Log R)} (hs : Logged s log) {origRes : Res}
    (hres : origRes.WiredTo s) {res : R} {id : JInt} {n : JString}
    (hn : getResourceName res id = .ok n) {s' : State R X}
    (hadd : addResource getResourceName res id origRes s = .ok (getFakeResId n, s')) :
    Logged s' (log ++ [Log.added origRes.mResDir res id (getFakeResId n)]) := by
  have hmatch : ∀ f, holder f (log ++ [Log.added origRes.mResDir res id (getFakeResId n)]) =
      Holder.next f (holder f log) (.added origRes.mResDir res id (getFakeResId n)) :=
    fun f => holder_append f log _
  obtain ⟨hkey, heq⟩ | ⟨hkey, s₁, s₂, hs₁, hput, hset, heq⟩ := addResource_cases hn origRes s
  · rw [heq] at hadd
    cases hadd
    refine ⟨hs.sound, fun f => ?_⟩
    rw [hmatch]
    refine (hs.describes f).added ?_ _ _ _
    rintro rfl
    exact hkey
  · rw [heq] at hadd
    cases hadd
    refine ⟨?_, fun f => ?_⟩
    · have hobject : ∀ r, some origRes = some r → r.WiredTo s := by
        rintro _ ⟨⟩
        exact hres
      have hsound := hs.sound.setReplacement hobject (getFakeResId n) (some (.forwarder res id))
      rwa [hset] at hsound
    · rw [hmatch]
      by_cases hf : f = getFakeResId n
      · -- the first to be added with the id
        subst hf
        rw [(hs.describes _).eq_none hkey, Holder.next, if_pos rfl, hput]
        exact Describes.put (by rw [hs₁, hkey]) _ _ _
      · refine Describes.added ((hs.describes f).of_eq ?_) (fun h => absurd h hf) _ _ _
        rw [hput]
        exact (Nested.put_of_ne _ hf _ _).trans (congrFun hs₁ f)

theorem Logged.addResource {s : State R X} {log : List (Log R)} (hs : Logged s log) (i : ℕ)
    (res : R) (id : JInt) :
    Logged (addStep getResourceName s (.addResource i res id)).1
      (log ++ (addStep getResourceName s (.addResource i res id)).2) := by
  cases hi : s.objects i with
  | none =>
    simp only [addStep, hi]
    exact hs.of_eq hs.sound rfl
  | some origRes =>
    cases hn : getResourceName res id with
    | error e =>
      simp only [addStep, hi, addResource_error hn]
      exact hs.of_eq hs.sound rfl
    | ok n =>
      have hwired := hs.sound.wired.objects i origRes hi
      obtain ⟨-, hadd⟩ | ⟨-, s₁, s', -, -, -, hadd⟩ := addResource_cases hn origRes s
      · simp only [addStep, hi, hadd]
        exact hs.added hwired hn hadd
      · simp only [addStep, hi, hadd]
        exact hs.added hwired hn hadd

theorem Logged.step {s : State R X} {log : List (Log R)} (hs : Logged s log) (e : AddEvent R) :
    Logged (addStep getResourceName s e).1 (log ++ (addStep getResourceName s e).2) := by
  cases e with
  | create i =>
    have h := step_create hs.sound.wired i
    exact hs.of_eq (h.sound hs.sound) h.sReplacements
  | initObject i resDir packageName =>
    have h := step_initObject hs.sound.wired i resDir packageName
    exact hs.of_eq (h.sound hs.sound) h.sReplacements
  | isFirstLoad i t => exact hs.isFirstLoad i t
  | addResource i res id => exact hs.addResource i res id

/-- **The log of a run tells the tables it leaves.** -/
theorem logged_run (es : List (AddEvent R)) :
    Logged (Machine.run (addStep getResourceName) ({} : State R X) es)
      (Machine.outputs (addStep getResourceName) ({} : State R X) es) := by
  have hstep : ∀ (s : State R X) e log, Logged s log →
      Logged (addStep getResourceName s e).1 (log ++ (addStep getResourceName s e).2) :=
    fun s e log hs => hs.step e
  exact Machine.run_outputs_invariant hstep logged_initial es

/-! ## Resolving an id -/

/-- `getReplacement` of the object gives a forwarder to the resource, or to
one of the same name that is registered for the object. -/
def Resolves (getResourceName : R → JInt → Except Throwable JString) (origRes : Res) (res : R)
    (id f : JInt) (s : State R X) : Prop :=
  getReplacement f origRes s = .ok (some (.forwarder res id)) ∨
    ∃ res' id', getReplacement f origRes s = .ok (some (.forwarder res' id')) ∧
      s.entry f origRes.mResDir = some (.forwarder res' id') ∧
      getResourceName res' id' = getResourceName res id

/-- The id is free, or its holder has the name and is found in the directory
of the object; or it is the very resource, and found in all directories. -/
def Available (getResourceName : R → JInt → Except Throwable JString) (origRes : Res) (res : R)
    (id : JInt) : Option (Holder R) → Prop
  | none => True
  | some h => h.live = true ∧
      ((h.resDir = origRes.mResDir ∧ getResourceName h.res h.id = getResourceName res id) ∨
        (h.resDir = none ∧ h.res = res ∧ h.id = id))

/-- The names of the resources in the log. -/
def addedNames (getResourceName : R → JInt → Except Throwable JString) (log : List (Log R)) :
    List JString :=
  log.filterMap fun
    | .added _ res id _ => (getResourceName res id).toOption
    | .reloaded _ => none

/-- **What an object gets for an id with a holder.** -/
theorem getReplacement_holder {s : State R X} (hs : Sound s) {origRes : Res}
    (hres : origRes.WiredTo s) {f : JInt} (hf : 0 < f.toInt) {h : Holder R}
    (hd : Describes s f (some h)) :
    getReplacement f origRes s = .ok (if h.live = true ∧ (h.resDir = origRes.mResDir ∨ h.resDir = none)
      then some (.forwarder h.res h.id) else none) := by
  rw [hs.getReplacement_eq hres (sle_zero_eq_false hf), lookup_eq, hd.2, hd.2]
  congr 1
  by_cases hdir : h.live = true ∧ origRes.mResDir = h.resDir
  · have hfound : h.live = true ∧ (h.resDir = origRes.mResDir ∨ h.resDir = none) :=
      ⟨hdir.1, .inl hdir.2.symm⟩
    rw [if_pos hdir, if_pos hfound]
    rfl
  · rw [if_neg hdir]
    by_cases hall : h.live = true ∧ none = h.resDir
    · rw [if_pos hall, if_pos ⟨hall.1, .inr hall.2.symm⟩]
      rfl
    · rw [if_neg hall, if_neg]
      · rfl
      · rintro ⟨hlive, hsame | hnone⟩
        · exact hdir ⟨hlive, hsame.symm⟩
        · exact hall ⟨hlive, hnone.symm⟩

theorem resolves_iff {s : State R X} (hs : Sound s) {origRes : Res} (hres : origRes.WiredTo s)
    {f : JInt} (hf : 0 < f.toInt) {h : Holder R} (hd : Describes s f (some h)) (res : R)
    (id : JInt) : Resolves getResourceName origRes res id f s ↔
      Available getResourceName origRes res id (some h) := by
  unfold Resolves
  rw [getReplacement_holder hs hres hf hd, hd.2]
  constructor
  · rintro (hget | ⟨res', id', -, hentry, hname⟩)
    · split at hget
      · rename_i hfound
        cases hget
        obtain ⟨hlive, hsame | hnone⟩ := hfound
        · exact ⟨hlive, .inl ⟨hsame, rfl⟩⟩
        · exact ⟨hlive, .inr ⟨hnone, rfl, rfl⟩⟩
      · cases hget
    · split at hentry
      · rename_i hfound
        cases hentry
        exact ⟨hfound.1, .inl ⟨hfound.2.symm, hname⟩⟩
      · cases hentry
  · rintro ⟨hlive, ⟨hsame, hname⟩ | ⟨hnone, rfl, rfl⟩⟩
    · refine .inr ⟨h.res, h.id, ?_, ?_, hname⟩
      · rw [if_pos ⟨hlive, .inl hsame⟩]
      · rw [if_pos ⟨hlive, hsame.symm⟩]
    · left
      rw [if_pos ⟨hlive, .inr hnone⟩]

/-- **When an id that is handed out resolves**: after every run of additions
and reloads, `addResource` returns the fake id of the name, and the object
resolves it and no other name was given it before, just when the id was free
or is held by the same and available to the object, and the hashes of the
other names differ in their lower 24 bits. -/
theorem addResource_resolves_iff (es : List (AddEvent R)) {i : ℕ} {origRes : Res}
    (hi : (Machine.run (addStep getResourceName) ({} : State R X) es).objects i = some origRes)
    {res : R} {id : JInt} {n : JString} (hn : getResourceName res id = .ok n) :
    let s := Machine.run (addStep getResourceName) ({} : State R X) es
    let log := Machine.outputs (addStep getResourceName) ({} : State R X) es
    ∃ s', addResource getResourceName res id origRes s = .ok (getFakeResId n, s') ∧
      ((Resolves getResourceName origRes res id (getFakeResId n) s' ∧
          ∀ m ∈ addedNames getResourceName log, m ≠ n → getFakeResId n ≠ getFakeResId m) ↔
        (Available getResourceName origRes res id (holder (getFakeResId n) log) ∧
          ∀ m ∈ addedNames getResourceName log, m ≠ n →
            (hashCode m).toNat % 2 ^ 24 ≠ (hashCode n).toNat % 2 ^ 24)) := by
  intro s log
  have hlogged : Logged s log := logged_run es
  have hwired := hlogged.sound.wired.objects i origRes hi
  have hids : (∀ m ∈ addedNames getResourceName log, m ≠ n → getFakeResId n ≠ getFakeResId m) ↔
      ∀ m ∈ addedNames getResourceName log, m ≠ n →
        (hashCode m).toNat % 2 ^ 24 ≠ (hashCode n).toNat % 2 ^ 24 := by
    simp only [ne_eq, getFakeResId_eq_iff, eq_comm]
  obtain ⟨hkey, hadd⟩ | ⟨hkey, s₁, s', -, -, hset, hadd⟩ := addResource_cases hn origRes s
  · -- the id has a holder, and the tables stay
    refine ⟨s, hadd, and_congr ?_ hids⟩
    have hd := hlogged.describes (getFakeResId n)
    cases hholder : holder (getFakeResId n) log with
    | none =>
      rw [hholder] at hd
      exact absurd hd hkey
    | some h =>
      rw [hholder] at hd
      exact resolves_iff hlogged.sound hwired (getFakeResId_positive n) hd res id
  · -- the id is free, and the new entry is for the object
    refine ⟨s', hadd, and_congr ?_ hids⟩
    have hlogged' := hlogged.added hwired hn hadd
    have hobjects := setReplacement_objects hset
    have hwired' := hlogged'.sound.wired.objects i origRes (by rw [hobjects]; exact hi)
    have hfree := (hlogged.describes (getFakeResId n)).eq_none hkey
    have hd := hlogged'.describes (getFakeResId n)
    rw [holder_append, hfree, List.foldl_cons, List.foldl_nil, Holder.next, if_pos rfl] at hd
    rw [hfree]
    have hresolves : Resolves getResourceName origRes res id (getFakeResId n) s' :=
      (resolves_iff hlogged'.sound hwired' (getFakeResId_positive n) hd res id).mpr
        ⟨rfl, .inl ⟨rfl, rfl⟩⟩
    exact iff_of_true hresolves trivial

/-- A second resource, and a reload of another directory before it. -/
theorem addResource_resolves_second :
    let getResourceName : Unit → JInt → Except Throwable JString := fun _ id => .ok [id.setWidth 16]
    let s := Machine.run (addStep getResourceName) ({} : State Unit Unit)
      [.create 0, .initObject 0 (some "base.apk") (some "app"),
        .create 1, .initObject 1 (some "other.apk") (some "other"), .isFirstLoad 1 1,
        .addResource 0 () 1, .isFirstLoad 1 2]
    ∃ origRes s', s.objects 0 = some origRes ∧
      addResource getResourceName () 2 origRes s = .ok (getFakeResId [2], s') ∧
      Resolves getResourceName origRes () 2 (getFakeResId [2]) s' := by
  intro getResourceName s
  let origRes : Res := ⟨some "base.apk", some 0, true⟩
  have hi : s.objects 0 = some origRes := rfl
  have hn : getResourceName () 2 = .ok [2] := rfl
  have hlog : Machine.outputs (addStep getResourceName) ({} : State Unit Unit)
      [.create 0, .initObject 0 (some "base.apk") (some "app"),
        .create 1, .initObject 1 (some "other.apk") (some "other"), .isFirstLoad 1 1,
        .addResource 0 () 1, .isFirstLoad 1 2] =
      [.added (some "base.apk") () 1 0x7e000001, .reloaded "other.apk"] := rfl
  obtain ⟨s', hadd, hiff⟩ := addResource_resolves_iff _ hi hn
  rw [hlog] at hiff
  refine ⟨origRes, s', hi, hadd, (hiff.mpr ⟨trivial, ?_⟩).1⟩
  intro m hm _
  obtain rfl : m = [1] := List.mem_singleton.mp hm
  decide

/-- The same resource, added through an object of one directory and then
through one of another: the second gets an id that it cannot resolve. -/
theorem addResource_unresolved :
    let getResourceName : Unit → JInt → Except Throwable JString := fun _ id => .ok [id.setWidth 16]
    let s := Machine.run (addStep getResourceName) ({} : State Unit Unit)
      [.create 0, .initObject 0 (some "base.apk") (some "app"),
        .create 1, .initObject 1 (some "other.apk") (some "other"), .addResource 0 () 1]
    ∃ origRes s', s.objects 1 = some origRes ∧
      addResource getResourceName () 1 origRes s = .ok (getFakeResId [1], s') ∧
      getReplacement (getFakeResId [1]) origRes s' = .ok none ∧
      ¬ Resolves getResourceName origRes () 1 (getFakeResId [1]) s' := by
  intro getResourceName s
  let origRes : Res := ⟨some "other.apk", some 1, true⟩
  have hi : s.objects 1 = some origRes := rfl
  have hn : getResourceName () 1 = .ok [1] := rfl
  have hsound : Sound s := (logged_run _).sound
  have hlookup : lookup (getFakeResId [1]) origRes s = none := rfl
  have hget : getReplacement (getFakeResId [1]) origRes s = .ok none := by
    rw [hsound.getReplacement_eq (hsound.wired.objects 1 origRes hi)
      (sle_zero_eq_false (getFakeResId_positive [1])), hlookup]
  obtain ⟨-, hadd⟩ | ⟨hkey, -⟩ := addResource_cases hn origRes s
  · refine ⟨origRes, s, hi, hadd, hget, ?_⟩
    rintro (h | ⟨res', id', h, -⟩)
    · rw [hget] at h
      cases h
    · rw [hget] at h
      cases h
  · cases hkey

end Resources

end Dynamicloader
