import Dynamicloader.Resources.Model
import Mathlib.Algebra.Ring.Int.Defs
import Mathlib.Algebra.Ring.Nat
/-!
# The bitmaps hide nothing

In every state of every run, what has an entry in `sReplacements` has its bit
set: in the bitmap of the framework, or in that of its resource directory
(`Covered`). That all objects of a directory have the one bitmap of it, and
no two directories the same, is `Wired`.

Both sections of `setReplacement` and the reload of `isFirstLoad` are looked
at one by one, since they are also what interleaves: which entries and which
bits a section leaves is what the invariants need of it.
-/

namespace Dynamicloader

namespace Resources

variable {R X : Type} {n : ℕ}

/-! ## Bits -/

theorem bit_index_lt (id : JInt) : (id &&& 7).toNat < 8 := by
  have h : (id &&& 7).toNat ≤ (7 : JInt).toNat := by
    rw [BitVec.toNat_and]
    exact Nat.and_le_right
  have : (7 : JInt).toNat = 7 := rfl
  omega

theorem bit_eq (id : JInt) : bit id = BitVec.twoPow 32 (id &&& 7).toNat := rfl

theorem marked_eq (v : Bitmap n) (key : ℕ) (h : key < n) (id : JInt) :
    v.marked key h (bit id) = v[key].getLsbD (id &&& 7).toNat := by
  have hlt := bit_index_lt id
  have h32 : (id &&& 7).toNat < 32 := by omega
  unfold Bitmap.marked
  rw [bit_eq, BitVec.and_twoPow, BitVec.getLsbD_signExtend]
  simp only [h32, hlt, decide_true, Bool.true_and, if_true]
  cases v[key].getLsbD (id &&& 7).toNat with
  | true =>
    simp only [if_true, bne_iff_ne, ne_eq]
    intro h0
    have := congrArg (BitVec.getLsbD · (id &&& 7).toNat) h0
    simp only [BitVec.getLsbD_twoPow, h32] at this
    simp at this
  | false => simp

/-- A mark adds its bit to the byte; the sign extension does not reach the
eight bits that are stored. -/
theorem getLsbD_mark (v : Bitmap n) (key : ℕ) (h : key < n) (id : JInt) {j : ℕ} (hj : j < 8) :
    (v.mark key h (bit id))[key].getLsbD j = (v[key].getLsbD j || (id &&& 7).toNat == j) := by
  have hlt := bit_index_lt id
  have h32 : j < 32 := by omega
  have h32' : (id &&& 7).toNat < 32 := by omega
  unfold Bitmap.mark
  rw [Vector.getElem_set_self, BitVec.getLsbD_setWidth, BitVec.getLsbD_or, BitVec.getLsbD_signExtend,
    bit_eq, BitVec.getLsbD_twoPow]
  simp only [hj, h32, h32', decide_true, Bool.true_and, if_true]
  rfl

theorem marked_mark_self (v : Bitmap n) (key : ℕ) (h : key < n) (id : JInt) :
    (v.mark key h (bit id)).marked key h (bit id) = true := by
  rw [marked_eq, getLsbD_mark _ _ _ _ (bit_index_lt id)]
  simp

/-- A mark erases none. -/
theorem marked_mark {v : Bitmap n} {key : ℕ} {h : key < n} {id : JInt} {key' : ℕ} {h' : key' < n}
    {id' : JInt} (hmarked : v.marked key' h' (bit id') = true) :
    (v.mark key h (bit id)).marked key' h' (bit id') = true := by
  rw [marked_eq] at hmarked ⊢
  by_cases hkey : key = key'
  · subst hkey
    rw [getLsbD_mark _ _ _ _ (bit_index_lt id'), hmarked, Bool.true_or]
  · unfold Bitmap.mark
    rwa [Vector.getElem_set_ne _ _ hkey]

/-! ## Entries and their bits -/

namespace State

/-- The bitmap of a directory. -/
def cacheOf (s : State R X) (dir : String) : Option (Bitmap 128) :=
  (s.sReplacementsCacheMap dir).bind (s.arrays[·]?)

/-- There is an entry for the id, `null` or not. -/
def Present (s : State R X) (id : JInt) (dir : Option String) : Prop :=
  s.sReplacements.get id dir ≠ none

/-- The entry for the id, or `null`. -/
def entry (s : State R X) (id : JInt) (dir : Option String) : Option (Value R X) :=
  (s.sReplacements.get id dir).join

/-- The bit of the id is set, for an app id in the bitmap of the directory. -/
def Flagged (s : State R X) (id : JInt) (dir : Option String) : Prop :=
  if isSystemId id then
    s.sSystemReplacementsCache.marked (systemCacheKey id).toNat (systemCacheKey_lt id) (bit id) = true
  else ∃ d cache, dir = some d ∧ s.cacheOf d = some cache ∧
    cache.marked (cacheKey id).toNat (cacheKey_lt id) (bit id) = true

/-- **What has an entry has its bit.** -/
def Covered (s : State R X) : Prop := ∀ id dir, s.Present id dir → s.Flagged id dir

end State

/-- **The bitmap of an object is the one of its directory**, or it has
neither. -/
def Res.WiredTo (res : Res) (s : State R X) : Prop :=
  (res.mResDir = none ∧ res.mReplacementsCache = none) ∨
    ∃ dir ref, res.mResDir = some dir ∧ res.mReplacementsCache = some ref ∧
      s.sReplacementsCacheMap dir = some ref

/-- The objects and the bitmaps belong together: no two directories share a
bitmap. -/
structure Wired (s : State R X) : Prop where
  objects : ∀ i res, s.objects i = some res → res.WiredTo s
  uninited : ∀ i res, s.objects i = some res → res.mIsObjectInited = false →
    res.mReplacementsCache = none
  allocated : ∀ dir ref, s.sReplacementsCacheMap dir = some ref → ref < s.arrays.length
  apart : ∀ dir dir' ref, s.sReplacementsCacheMap dir = some ref →
    s.sReplacementsCacheMap dir' = some ref → dir = dir'

theorem State.entry_eq_none {s : State R X} {id : JInt} {dir : Option String}
    (h : ¬ s.Present id dir) : s.entry id dir = none := by
  rw [State.entry, not_not.mp h, Option.join_none]

/-- The lookup is the entry for the directory, or else the one for all. -/
theorem lookup_eq (id : JInt) (res : Res) (s : State R X) :
    lookup id res s = (s.entry id res.mResDir <|> s.entry id none) := by
  unfold lookup State.entry Nested.get
  cases s.sReplacements id with
  | none => rfl
  | some inner =>
    simp only [Option.bind_some]
    cases hv : (inner res.mResDir).join with
    | some v => rfl
    | none =>
      dsimp only
      split
      · rename_i hdir
        rw [hdir] at hv
        simp [hv]
      · rfl

/-- A bit stays set where the bitmap it is in keeps it: the one of the
framework, or that of the directory. -/
theorem State.Flagged.imp {s s' : State R X} {id : JInt} {dir : Option String}
    (hf : s.Flagged id dir)
    (hsys : s.sSystemReplacementsCache.marked (systemCacheKey id).toNat (systemCacheKey_lt id)
        (bit id) = true →
      s'.sSystemReplacementsCache.marked (systemCacheKey id).toNat (systemCacheKey_lt id)
        (bit id) = true)
    (happ : ∀ d cache, dir = some d → s.cacheOf d = some cache →
      cache.marked (cacheKey id).toNat (cacheKey_lt id) (bit id) = true →
      ∃ cache', s'.cacheOf d = some cache' ∧
        cache'.marked (cacheKey id).toNat (cacheKey_lt id) (bit id) = true) :
    s'.Flagged id dir := by
  unfold State.Flagged at hf ⊢
  split
  · rename_i hid
    rw [if_pos hid] at hf
    exact hsys hf
  · rename_i hid
    rw [if_neg hid] at hf
    obtain ⟨d, cache, hd, hcache, hmarked⟩ := hf
    obtain ⟨cache', hcache', hmarked'⟩ := happ d cache hd hcache hmarked
    exact ⟨d, cache', hd, hcache', hmarked'⟩

/-! ## The section that marks -/

theorem cacheOf_modify (s : State R X) (ref : ℕ) (f : Bitmap 128 → Bitmap 128) (dir : String) :
    ({ s with arrays := s.arrays.modify ref f } : State R X).cacheOf dir =
      if s.sReplacementsCacheMap dir = some ref then (s.cacheOf dir).map f else s.cacheOf dir := by
  unfold State.cacheOf
  cases hmap : s.sReplacementsCacheMap dir with
  | none => simp
  | some r =>
    simp only [Option.bind_some, List.getElem?_modify, Option.some.injEq]
    by_cases heq : ref = r
    · simp [heq]
    · rw [if_neg (Ne.symm heq)]
      simp [heq]

/-- Only bitmaps change in the section. -/
theorem mark_frame {s s' : State R X} {id : JInt} {res : Option Res}
    (h : markReplacement id res s = .ok s') :
    s'.objects = s.objects ∧ s'.sReplacements = s.sReplacements ∧
      s'.sReplacementsCacheMap = s.sReplacementsCacheMap ∧
      s'.sResDirLastModified = s.sResDirLastModified ∧ s'.arrays.length = s.arrays.length := by
  unfold markReplacement at h
  split at h
  · cases h
    exact ⟨rfl, rfl, rfl, rfl, rfl⟩
  · split at h
    · cases h
    · cases h
      exact ⟨rfl, rfl, rfl, rfl, List.length_modify _ _ _⟩

/-- The section erases no bit. -/
theorem mark_flagged {s s' : State R X} {id : JInt} {res : Option Res}
    (h : markReplacement id res s = .ok s') {id' : JInt} {dir : Option String}
    (hf : s.Flagged id' dir) : s'.Flagged id' dir := by
  unfold markReplacement at h
  split at h
  · cases h
    exact hf.imp marked_mark fun d cache _ hcache hmarked => ⟨cache, hcache, hmarked⟩
  · split at h
    · cases h
    · rename_i ref _
      cases h
      refine hf.imp (fun hmarked => hmarked) fun d cache _ hcache hmarked => ?_
      rw [cacheOf_modify]
      split
      · exact ⟨_, by rw [hcache, Option.map_some], marked_mark hmarked⟩
      · exact ⟨cache, hcache, hmarked⟩

/-- **The section sets the bit of its id.** -/
theorem mark_flags {s s' : State R X} (hs : Wired s) {id : JInt} {res : Option Res}
    (hres : ∀ r, res = some r → r.WiredTo s) (h : markReplacement id res s = .ok s') :
    s'.Flagged id (res.bind (·.mResDir)) := by
  unfold markReplacement at h
  unfold State.Flagged
  split at h
  · rename_i hsys
    cases h
    rw [if_pos hsys]
    exact marked_mark_self _ _ _ _
  · rename_i happ
    split at h
    · cases h
    · rename_i ref href
      cases h
      rw [if_neg happ]
      obtain ⟨r, rfl, hr⟩ := Option.bind_eq_some_iff.mp href
      obtain ⟨-, hnone⟩ | ⟨dir, ref', hdir, hcache, hmap⟩ := hres r rfl
      · rw [hnone] at hr
        cases hr
      · obtain rfl : ref' = ref := Option.some.inj (hcache.symm.trans hr)
        have hlt := hs.allocated dir ref' hmap
        refine ⟨dir, (s.arrays[ref']).mark (cacheKey id).toNat (cacheKey_lt id) (bit id), hdir, ?_,
          marked_mark_self _ _ _ _⟩
        rw [cacheOf_modify, if_pos hmap, State.cacheOf, hmap, Option.bind_some,
          List.getElem?_eq_getElem hlt]
        rfl

/-! ## The section that puts -/

theorem put_present {s : State R X} {id : JInt} {v : Option (Value R X)} {dir : Option String}
    {id' : JInt} {dir' : Option String} (h : (putReplacement id v dir s).Present id' dir') :
    s.Present id' dir' ∨ (id' = id ∧ dir' = dir) := by
  by_cases hsame : id' = id ∧ dir' = dir
  · exact .inr hsame
  · rw [State.Present, putReplacement, Nested.get_put, if_neg hsame] at h
    exact .inl h

theorem entry_put (s : State R X) (id : JInt) (v : Option (Value R X)) (dir : Option String)
    (id' : JInt) (dir' : Option String) :
    (putReplacement id v dir s).entry id' dir' =
      if id' = id ∧ dir' = dir then v else s.entry id' dir' := by
  rw [State.entry, putReplacement, Nested.get_put]
  split
  · rfl
  · rfl

@[simp] theorem put_flagged {s : State R X} {id : JInt} {v : Option (Value R X)}
    {dir : Option String} {id' : JInt} {dir' : Option String} :
    (putReplacement id v dir s).Flagged id' dir' ↔ s.Flagged id' dir' := Iff.rfl

/-! ## The section of `isFirstLoad` -/

/-- A reload: the entries and the bits of the directory are gone. -/
def reload (lastModification : Int64) (dir : String) (ref : ℕ) (s : State R X) : State R X :=
  { s with
    sResDirLastModified := Function.update s.sResDirLastModified dir (some lastModification)
    sReplacements := s.sReplacements.drop (some dir)
    arrays := s.arrays.modify ref fun _ => Vector.replicate 128 0 }

/-- The directory that `isFirstLoad` reloads, its file having changed. -/
def reloads (lastModification : Int64) (res : Res) (s : State R X) : Option String :=
  match res.mResDir with
  | none => none
  | some dir =>
    match s.sResDirLastModified dir with
    | none => none
    | some old => if old = lastModification then none else some dir

/-- **What `isFirstLoad` does**: nothing but noting the time, or a reload of
a directory. -/
theorem isFirstLoad_cases {s : State R X} {res : Res} (hres : res.WiredTo s) (t : Int64) :
    (reloads t res s = none ∧
        ∃ times, (isFirstLoad t res s).2 = { s with sResDirLastModified := times }) ∨
      ∃ dir ref, reloads t res s = some dir ∧ s.sReplacementsCacheMap dir = some ref ∧
        (isFirstLoad t res s).2 = reload t dir ref s := by
  unfold isFirstLoad reloads
  obtain ⟨hdir, -⟩ | ⟨dir, ref, hdir, hcache, hmap⟩ := hres
  · rw [hdir]
    exact .inl ⟨rfl, s.sResDirLastModified, rfl⟩
  · rw [hdir, hcache]
    dsimp only
    cases hold : s.sResDirLastModified dir with
    | none => exact .inl ⟨rfl, _, rfl⟩
    | some old =>
      dsimp only
      by_cases hsame : old = t
      · rw [if_pos hsame, if_pos (congrArg some hsame)]
        exact .inl ⟨rfl, s.sResDirLastModified, rfl⟩
      · rw [if_neg hsame, if_neg fun h => hsame (Option.some.inj h)]
        exact .inr ⟨dir, ref, rfl, hmap, rfl⟩

theorem reload_present {s : State R X} {t : Int64} {dir : String} {ref : ℕ} {id : JInt}
    {dir' : Option String} (h : (reload t dir ref s).Present id dir') :
    s.Present id dir' ∧ dir' ≠ some dir := by
  rw [State.Present, reload, Nested.get_drop] at h
  by_cases hdir : dir' = some dir
  · exact absurd (if_pos hdir) h
  · rw [if_neg hdir] at h
    exact ⟨h, hdir⟩

theorem entry_reload (s : State R X) (t : Int64) (dir : String) (ref : ℕ) (id : JInt)
    (dir' : Option String) :
    (reload t dir ref s).entry id dir' = if dir' = some dir then none else s.entry id dir' := by
  rw [State.entry, reload, Nested.get_drop]
  split
  · rfl
  · rfl

/-- The bits of the other directories stay. -/
theorem reload_flagged {s : State R X} (hs : Wired s) {t : Int64} {dir : String} {ref : ℕ}
    (hmap : s.sReplacementsCacheMap dir = some ref) {id : JInt} {dir' : Option String}
    (hdir : dir' ≠ some dir) (hf : s.Flagged id dir') : (reload t dir ref s).Flagged id dir' := by
  refine hf.imp (fun hmarked => hmarked) fun d cache hd hcache hmarked => ⟨cache, ?_, hmarked⟩
  have hne : s.sReplacementsCacheMap d ≠ some ref := fun h =>
    hdir (hd.trans (congrArg some (hs.apart d dir ref h hmap)))
  have := cacheOf_modify s ref (fun _ => Vector.replicate 128 0) d
  rw [if_neg hne, hcache] at this
  exact this

/-! ## Whole runs -/

/-- What the bitmaps of every reachable state satisfy. -/
structure Sound (s : State R X) : Prop where
  wired : Wired s
  covered : s.Covered

theorem sound_initial : Sound ({} : State R X) where
  wired := ⟨by simp, by simp, by simp, by simp⟩
  covered := by
    intro id dir hpresent
    exact absurd rfl hpresent

/-- The parts of a sequence that returns have returned. -/
theorem ok_of_bind {ε α β : Type} {x : Except ε α} {f : α → Except ε β} {b : β}
    (h : x >>= f = .ok b) : ∃ a, x = .ok a ∧ f a = .ok b := by
  cases x with
  | error e => cases h
  | ok a => exact ⟨a, rfl, h⟩

/-- A replacement that is set: checked, marked and put. -/
theorem setReplacement_ok {id : JInt} {v : Option (Value R X)} {res : Option Res}
    {s s' : State R X} (h : setReplacement id v res s = .ok s') :
    ∃ s₁, markReplacement id res s = .ok s₁ ∧
      s' = putReplacement id v (res.bind (·.mResDir)) s₁ := by
  unfold setReplacement at h
  dsimp only at h
  obtain ⟨_, -, h⟩ := ok_of_bind h
  obtain ⟨s₁, hmark, h⟩ := ok_of_bind h
  cases h
  exact ⟨s₁, hmark, rfl⟩

theorem setReplacement_objects {id : JInt} {v : Option (Value R X)} {res : Option Res}
    {s s' : State R X} (h : setReplacement id v res s = .ok s') : s'.objects = s.objects := by
  obtain ⟨s₁, hmark, rfl⟩ := setReplacement_ok h
  exact (mark_frame hmark).1

theorem Wired.of_eq {s s' : State R X} (hs : Wired s) (hobjects : s'.objects = s.objects)
    (hmap : s'.sReplacementsCacheMap = s.sReplacementsCacheMap)
    (harrays : s'.arrays.length = s.arrays.length) : Wired s' := by
  refine ⟨fun i res hi => ?_, fun i res hi => ?_, fun dir ref h => ?_, fun dir dir' ref h h' => ?_⟩
  · have := hs.objects i res (hobjects ▸ hi)
    unfold Res.WiredTo at this ⊢
    rwa [hmap]
  · exact hs.uninited i res (hobjects ▸ hi)
  · rw [harrays]
    exact hs.allocated dir ref (hmap ▸ h)
  · exact hs.apart dir dir' ref (hmap ▸ h) (hmap ▸ h')

/-- The section that marks keeps the bitmaps sound, for it erases no bit. -/
theorem Sound.mark {s s' : State R X} (hs : Sound s) {id : JInt} {res : Option Res}
    (h : markReplacement id res s = .ok s') : Sound s' := by
  obtain ⟨hobjects, hrepl, hmap, -, harrays⟩ := mark_frame h
  refine ⟨hs.wired.of_eq hobjects hmap harrays, fun id' dir' hpresent => ?_⟩
  rw [State.Present, hrepl] at hpresent
  exact mark_flagged h (hs.covered id' dir' hpresent)

/-- The section that puts keeps them sound where the bit is set. -/
theorem Sound.put {s : State R X} (hs : Sound s) {id : JInt} {dir : Option String}
    (hf : s.Flagged id dir) (v : Option (Value R X)) : Sound (putReplacement id v dir s) := by
  refine ⟨hs.wired.of_eq rfl rfl rfl, fun id' dir' hpresent => ?_⟩
  rw [put_flagged]
  obtain hold | ⟨rfl, rfl⟩ := put_present hpresent
  · exact hs.covered id' dir' hold
  · exact hf

/-- **Setting a replacement keeps the bitmaps sound.** -/
theorem Sound.setReplacement {s : State R X} (hs : Sound s) {res : Option Res}
    (hres : ∀ r, res = some r → r.WiredTo s) (id : JInt) (v : Option (Value R X)) :
    Sound ((Resources.setReplacement id v res s).toOption.getD s) := by
  cases h : Resources.setReplacement id v res s with
  | error e => exact hs
  | ok s' =>
    obtain ⟨s₁, hmark, rfl⟩ := setReplacement_ok h
    exact (hs.mark hmark).put (mark_flags hs.wired hres hmark) v

/-- A reload keeps them sound: it takes the entries of a directory together
with its bits. -/
theorem Sound.isFirstLoad {s : State R X} (hs : Sound s) {res : Res} (hres : res.WiredTo s)
    (t : Int64) : Sound (Resources.isFirstLoad t res s).2 := by
  obtain ⟨-, times, heq⟩ | ⟨dir, ref, -, hmap, heq⟩ := isFirstLoad_cases hres t
  · rw [heq]
    exact ⟨hs.wired.of_eq rfl rfl rfl, hs.covered⟩
  · rw [heq]
    refine ⟨hs.wired.of_eq rfl rfl (List.length_modify _ _ _), fun id dir' hpresent => ?_⟩
    obtain ⟨hold, hdir⟩ := reload_present hpresent
    exact reload_flagged hs.wired hmap hdir (hs.covered id dir' hold)

/-- The tables with a bitmap for one more directory. -/
def State.alloc (s : State R X) (dir : String) : State R X :=
  { s with
    arrays := s.arrays ++ [Vector.replicate 128 0]
    sReplacementsCacheMap :=
      Function.update s.sReplacementsCacheMap dir (some s.arrays.length) }

/-- A new bitmap hides none of the others. -/
theorem flagged_alloc {s : State R X} {dir : String} (hdir : s.sReplacementsCacheMap dir = none)
    {id : JInt} {dir' : Option String} (hf : s.Flagged id dir') :
    (s.alloc dir).Flagged id dir' := by
  refine hf.imp (fun hmarked => hmarked) fun d cache hd hcache hmarked => ⟨cache, ?_, hmarked⟩
  obtain ⟨ref, href, hget⟩ := Option.bind_eq_some_iff.mp hcache
  have hne : d ≠ dir := by
    rintro rfl
    rw [hdir] at href
    cases href
  have hlt : ref < s.arrays.length := (List.getElem?_eq_some_iff.mp hget).1
  simp only [State.alloc, State.cacheOf, Function.update_of_ne hne, href, Option.bind_some,
    List.getElem?_append_left hlt, hget]

/-- What `initObject` makes of a new object. -/
theorem initObject_cases {s : State R X} {resDir packageName : Option String} {res : Res}
    (hres : res.mIsObjectInited = false) (hnull : res.mReplacementsCache = none)
    {res' : Res} {s' : State R X}
    (h : initObject resDir packageName res s = (.ok (), res', s')) :
    (resDir = none ∧ s' = s ∧ res'.mResDir = none ∧ res'.mReplacementsCache = none ∧
        res'.mIsObjectInited = true) ∨
      ∃ dir ref, resDir = some dir ∧ res'.mResDir = some dir ∧
        res'.mReplacementsCache = some ref ∧ res'.mIsObjectInited = true ∧
        ((s.sReplacementsCacheMap dir = some ref ∧ s' = s) ∨
          (s.sReplacementsCacheMap dir = none ∧ ref = s.arrays.length ∧ s' = s.alloc dir)) := by
  unfold initObject at h
  rw [hres] at h
  simp only [Bool.false_eq_true, if_false] at h
  cases resDir with
  | none =>
    cases h
    exact .inl ⟨rfl, rfl, rfl, hnull, rfl⟩
  | some dir =>
    dsimp only at h
    split at h
    · cases h
    · split at h
      · rename_i ref href
        cases h
        exact .inr ⟨dir, ref, rfl, rfl, rfl, rfl, .inl ⟨href, rfl⟩⟩
      · rename_i hnone
        cases h
        exact .inr ⟨dir, _, rfl, rfl, rfl, rfl, .inr ⟨hnone, rfl, rfl⟩⟩

/-- A failed `initObject` has not come to the tables. -/
theorem initObject_error {s : State R X} {resDir packageName : Option String} {res : Res}
    {e : Throwable} {res' : Res} {s' : State R X}
    (h : initObject resDir packageName res s = (.error e, res', s')) : s' = s := by
  unfold initObject at h
  split at h
  · cases h
    rfl
  · dsimp only at h
    split at h
    · cases h
    · split at h
      · cases h
        rfl
      · split at h
        · cases h
        · cases h

/-- An object that is changed, taken out or put in. -/
theorem Wired.update {s : State R X} (hs : Wired s) (i : ℕ) {o : Option Res}
    (ho : ∀ res, o = some res → res.WiredTo s ∧
      (res.mIsObjectInited = false → res.mReplacementsCache = none)) :
    Wired { s with objects := Function.update s.objects i o } := by
  have hupdate : ∀ j res, Function.update s.objects i o j = some res →
      o = some res ∨ s.objects j = some res := by
    intro j res hj
    by_cases hji : j = i
    · subst hji
      rw [Function.update_self] at hj
      exact .inl hj
    · rw [Function.update_of_ne hji] at hj
      exact .inr hj
  refine ⟨fun j res hj => ?_, fun j res hj => ?_, hs.allocated, hs.apart⟩
  · obtain hnew | hold := hupdate j res hj
    · exact (ho res hnew).1
    · exact hs.objects j res hold
  · obtain hnew | hold := hupdate j res hj
    · exact (ho res hnew).2
    · exact hs.uninited j res hold

theorem Wired.alloc {s : State R X} (hs : Wired s) {dir : String}
    (hdir : s.sReplacementsCacheMap dir = none) :
    Wired (s.alloc dir) := by
  have hold : ∀ d ref, s.sReplacementsCacheMap d = some ref →
      Function.update s.sReplacementsCacheMap dir (some s.arrays.length) d = some ref := by
    intro d ref h
    have hne : d ≠ dir := by
      rintro rfl
      rw [hdir] at h
      cases h
    rw [Function.update_of_ne hne, h]
  have hnew : ∀ d ref, Function.update s.sReplacementsCacheMap dir (some s.arrays.length) d =
      some ref → (d = dir ∧ ref = s.arrays.length) ∨
        (s.sReplacementsCacheMap d = some ref ∧ ref < s.arrays.length) := by
    intro d ref h
    by_cases hd : d = dir
    · subst hd
      rw [Function.update_self] at h
      exact .inl ⟨rfl, (Option.some.inj h).symm⟩
    · rw [Function.update_of_ne hd] at h
      exact .inr ⟨h, hs.allocated d ref h⟩
  refine ⟨fun i res hi => ?_, hs.uninited, fun d ref h => ?_, fun d d' ref h h' => ?_⟩
  · obtain hnone | ⟨d, ref, hd, hcache, hmap⟩ := hs.objects i res hi
    · exact .inl hnone
    · exact .inr ⟨d, ref, hd, hcache, hold d ref hmap⟩
  · rw [State.alloc, List.length_append, List.length_singleton]
    obtain ⟨-, rfl⟩ | ⟨-, hlt⟩ := hnew d ref h
    · omega
    · omega
  · obtain ⟨rfl, rfl⟩ | ⟨hmap, hlt⟩ := hnew d ref h
    · obtain ⟨rfl, -⟩ | ⟨-, hlt⟩ := hnew d' _ h'
      · rfl
      · omega
    · obtain ⟨-, rfl⟩ | ⟨hmap', -⟩ := hnew d' ref h'
      · omega
      · exact hs.apart d d' ref hmap hmap'

/-- **What a call that makes or inits an object leaves**: another object or
none at `i`, and maybe a bitmap for one more directory. -/
def ObjectStep (s s' : State R X) : Prop :=
  ∃ i o s₁, (s₁ = s ∨ ∃ dir, s.sReplacementsCacheMap dir = none ∧ s₁ = s.alloc dir) ∧
    s' = { s₁ with objects := Function.update s.objects i o } ∧
    ∀ r, o = some r → r.WiredTo s₁ ∧ (r.mIsObjectInited = false → r.mReplacementsCache = none)

theorem ObjectStep.refl {s : State R X} (hs : Wired s) : ObjectStep s s := by
  refine ⟨0, s.objects 0, s, .inl rfl, by rw [Function.update_eq_self], fun r hr => ?_⟩
  exact ⟨hs.objects 0 r hr, hs.uninited 0 r hr⟩

theorem step_create {s : State R X} (hs : Wired s) (i : ℕ) :
    ObjectStep s (step s (.create i)).1 := by
  cases hi : s.objects i with
  | some _ =>
    simp only [step, hi]
    exact .refl hs
  | none =>
    simp only [step, hi]
    refine ⟨i, some {}, s, .inl rfl, rfl, ?_⟩
    rintro _ ⟨⟩
    exact ⟨.inl ⟨rfl, rfl⟩, fun _ => rfl⟩

theorem step_initObject {s : State R X} (hs : Wired s) (i : ℕ)
    (resDir packageName : Option String) :
    ObjectStep s (step s (.initObject i resDir packageName)).1 := by
  cases hi : s.objects i with
  | none =>
    simp only [step, hi]
    exact .refl hs
  | some res =>
    simp only [step, hi]
    cases hinited : res.mIsObjectInited with
    | true =>
      -- it throws before it changes anything
      have hthrow : initObject resDir packageName res s =
          (.error (.illegalState "Object has already been initialized"), res, s) := by
        rw [initObject, hinited, if_pos rfl]
      simp only [hthrow, Bool.or_true, if_true]
      refine ⟨i, some res, s, .inl rfl, rfl, ?_⟩
      rintro _ ⟨⟩
      exact ⟨hs.objects i res hi, hs.uninited i res hi⟩
    | false =>
      rcases hinit : initObject resDir packageName res s with ⟨_ | ⟨⟨⟩⟩, res', s'⟩
      · -- the object is dropped, and the tables are as before
        obtain rfl : s' = s := initObject_error hinit
        exact ⟨i, none, s', .inl rfl, rfl, fun _ h => nomatch h⟩
      · have hkeep : res'.mIsObjectInited = true → res'.mIsObjectInited = false →
            res'.mReplacementsCache = none := fun h h' => by simp [h] at h'
        obtain ⟨-, rfl, hdir, hcache, hinited'⟩ |
          ⟨dir, ref, -, hdir, hcache, hinited', ⟨hmap, rfl⟩ | ⟨hnone, rfl, rfl⟩⟩ :=
          initObject_cases hinited (hs.uninited i res hi hinited) hinit
        · refine ⟨i, some res', s', .inl rfl, rfl, ?_⟩
          rintro _ ⟨⟩
          exact ⟨.inl ⟨hdir, hcache⟩, hkeep hinited'⟩
        · refine ⟨i, some res', s', .inl rfl, rfl, ?_⟩
          rintro _ ⟨⟩
          exact ⟨.inr ⟨dir, ref, hdir, hcache, hmap⟩, hkeep hinited'⟩
        · refine ⟨i, some res', s.alloc dir, .inr ⟨dir, hnone, rfl⟩, rfl, ?_⟩
          rintro _ ⟨⟩
          exact ⟨.inr ⟨dir, _, hdir, hcache, Function.update_self ..⟩, hkeep hinited'⟩

/-- Such a call leaves the entries. -/
theorem ObjectStep.sReplacements {s s' : State R X} (h : ObjectStep s s') :
    s'.sReplacements = s.sReplacements := by
  obtain ⟨i, o, s₁, rfl | ⟨dir, -, rfl⟩, rfl, -⟩ := h
  · rfl
  · rfl

/-- It erases no bit. -/
theorem ObjectStep.flagged {s s' : State R X} (h : ObjectStep s s') {id : JInt}
    {dir : Option String} (hf : s.Flagged id dir) : s'.Flagged id dir := by
  obtain ⟨i, o, s₁, rfl | ⟨dir', hdir, rfl⟩, rfl, -⟩ := h
  · exact hf
  · exact flagged_alloc hdir hf

theorem ObjectStep.wired {s s' : State R X} (h : ObjectStep s s') (hs : Wired s) : Wired s' := by
  obtain ⟨i, o, s₁, rfl | ⟨dir, hdir, rfl⟩, rfl, ho⟩ := h
  · exact hs.update i ho
  · exact (hs.alloc hdir).update i ho

/-- So it keeps the bitmaps sound. -/
theorem ObjectStep.sound {s s' : State R X} (h : ObjectStep s s') (hs : Sound s) : Sound s' := by
  refine ⟨h.wired hs.wired, fun id dir hpresent => h.flagged (hs.covered id dir ?_)⟩
  rwa [State.Present, h.sReplacements] at hpresent

/-- **Every call keeps the bitmaps sound.** -/
theorem Sound.step {s : State R X} (hs : Sound s) (e : Event R X) : Sound (Resources.step s e).1 := by
  cases e with
  | create i => exact (step_create hs.wired i).sound hs
  | initObject i resDir packageName =>
    exact (step_initObject hs.wired i resDir packageName).sound hs
  | setReplacement i id v =>
    cases hi : s.objects i with
    | none =>
      simp only [Resources.step, hi]
      exact hs
    | some res =>
      simp only [Resources.step, hi]
      refine hs.setReplacement ?_ id v
      rintro _ ⟨⟩
      exact hs.wired.objects i res hi
  | setSystemWideReplacement id v =>
    have hnull : ∀ r : Res, none = some r → r.WiredTo s := by simp
    exact hs.setReplacement hnull id v
  | isFirstLoad i t =>
    cases hi : s.objects i with
    | none =>
      simp only [Resources.step, hi]
      exact hs
    | some res =>
      simp only [Resources.step, hi]
      exact hs.isFirstLoad (hs.wired.objects i res hi) t

/-- **The bitmaps of every reachable state are sound.** -/
theorem sound_run (es : List (Event R X)) : Sound (Machine.run step ({} : State R X) es) := by
  have hstep : ∀ (s : State R X) e, True → Sound s → Sound (step s e).1 := fun s e _ hs => hs.step e
  exact Machine.run_invariant hstep (fun _ _ => trivial) sound_initial

/-! ## The lookup through the bitmaps -/

/-- Without its bit an id has no entry, neither for the directory nor for all. -/
theorem Sound.lookup_eq_none {s : State R X} (hs : Sound s) {id : JInt} {res : Res}
    (hf : ¬ s.Flagged id res.mResDir) : lookup id res s = none := by
  have hnone : ¬ s.Flagged id none := by
    intro h
    unfold State.Flagged at h hf
    split at h
    · rename_i hsys
      exact hf (by rwa [if_pos hsys])
    · obtain ⟨_, _, hd, -⟩ := h
      cases hd
  rw [lookup_eq, State.entry_eq_none fun h => hf (hs.covered id _ h),
    State.entry_eq_none fun h => hnone (hs.covered id _ h)]
  rfl

/-- **The bitmaps hide nothing** from an object. -/
theorem Sound.getReplacement_eq {s : State R X} (hs : Sound s) {res : Res} (hres : res.WiredTo s)
    {id : JInt} (hid : id.sle 0 = false) : getReplacement id res s = .ok (lookup id res s) := by
  unfold getReplacement
  rw [hid]
  simp only [Bool.false_eq_true, if_false]
  split
  · rename_i hsys
    split
    · rfl
    · rename_i hbit
      have hf : ¬ s.Flagged id res.mResDir := by
        unfold State.Flagged
        rwa [if_pos hsys]
      rw [hs.lookup_eq_none hf]
      rfl
  · rename_i happ
    split
    · rename_i hdir
      obtain ⟨hnone, -⟩ | ⟨dir, ref, hdir', hcache, hmap⟩ := hres
      · exact absurd hnone hdir
      · have hlt := hs.wired.allocated dir ref hmap
        rw [hcache, Option.bind_some, List.getElem?_eq_getElem hlt]
        dsimp only
        split
        · rfl
        · rename_i hbit
          have hf : ¬ s.Flagged id res.mResDir := by
            unfold State.Flagged
            rw [if_neg happ, hdir']
            rintro ⟨d, cache, hd, hcacheOf, hmarked⟩
            cases hd
            rw [State.cacheOf, hmap, Option.bind_some, List.getElem?_eq_getElem hlt] at hcacheOf
            cases hcacheOf
            exact hbit hmarked
          rw [hs.lookup_eq_none hf]
          rfl
    · rfl

theorem sle_zero_eq_false {id : JInt} (hid : 0 < id.toInt) : id.sle 0 = false := by
  have h0 : (0 : JInt).toInt = 0 := rfl
  rw [BitVec.sle_eq_decide, decide_eq_false_iff_not, h0]
  omega

theorem app_positive {id : JInt} (hid : isSystemId id = false) : 0 < id.toInt := by
  have h : (0x7f000000 : JInt).toInt = 0x7f000000 := rfl
  rw [isSystemId, BitVec.slt_eq_decide, decide_eq_false_iff_not, h] at hid
  omega

theorem toInt_bounds {k : JInt} {n : ℕ} (hk : k.toNat < n) (hn : n ≤ 2 ^ 31) :
    0 ≤ k.toInt ∧ k.toInt < n := by
  rw [BitVec.toInt_eq_toNat_of_lt (by omega)]
  omega

/-- **`getReplacement` is the lookup without bitmaps**, for every object of
every reachable state and every positive id, and no index leaves its array. -/
theorem getReplacement_uncached :
    (∀ (es : List (Event R X)) (i : ℕ) (res : Res),
        (Machine.run step ({} : State R X) es).objects i = some res → ∀ id : JInt, 0 < id.toInt →
          getReplacement id res (Machine.run step {} es) =
            .ok ((Machine.run step {} es).entry id res.mResDir <|>
              (Machine.run step {} es).entry id none)) ∧
      ∀ id : JInt, (0 ≤ (systemCacheKey id).toInt ∧ (systemCacheKey id).toInt < 256) ∧
        (0 ≤ (cacheKey id).toInt ∧ (cacheKey id).toInt < 128) := by
  constructor
  · intro es i res hi id hid
    have hs := sound_run es
    rw [hs.getReplacement_eq (hs.wired.objects i res hi) (sle_zero_eq_false hid), lookup_eq]
  · intro id
    exact ⟨toInt_bounds (systemCacheKey_lt id) (by decide),
      toInt_bounds (cacheKey_lt id) (by decide)⟩

theorem getReplacement_uncached_reload :
    let es : List (Event Unit Unit) := [.create 0, .initObject 0 (some "base.apk") (some "app"),
      .isFirstLoad 0 1, .setReplacement 0 0x7f02000f (some (.other ())), .isFirstLoad 0 2,
      .setReplacement 0 0x7f030001 (some (.other ()))]
    let s := Machine.run step {} es
    ∃ res, s.objects 0 = some res ∧ s.entry 0x7f030001 res.mResDir = some (.other ()) ∧
      getReplacement 0x7f030001 res s =
        .ok (s.entry 0x7f030001 res.mResDir <|> s.entry 0x7f030001 none) :=
  ⟨{ mResDir := some "base.apk", mReplacementsCache := some 0, mIsObjectInited := true }, rfl, rfl,
    getReplacement_uncached.1 _ 0 _ rfl _ (by decide)⟩

end Resources

end Dynamicloader
