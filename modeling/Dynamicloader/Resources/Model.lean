import Dynamicloader.Common.Machine
import Dynamicloader.Common.Nested
/-!
# BridgeResources — replacements

A `BridgeResources` object looks a resource id up in `sReplacements`, one
table for all objects, whose entries are for a resource directory or, under
`null`, for all of them. Two kinds of bitmaps say whether it is worth
looking: one for the ids of the framework, and for each resource directory
one for the ids of an app, shared by all objects of that directory.

A Java `int` is a `BitVec 32`, compared as a signed number; a byte of a
bitmap is a `BitVec 8`, sign-extended where it is used. Arrays live in
`arrays` and are referred to by number. Replacements are values of the
classes the code tells apart; the entry of a table may be `null`.

`initObject` sets `mResDir` before it can fail. The hook that creates the
objects then drops the new object, so a failed `initObject` takes it out of
`objects`.
-/

namespace Dynamicloader

namespace Resources

/-- A Java `int`. -/
abbrev JInt := BitVec 32

inductive Throwable where
  | illegalArgument (message : String)
  | illegalState (message : String)
  | nullPointer
  deriving DecidableEq

/-- A replacement, for foreign resources `R` and other objects `X`. -/
inductive Value (R X : Type) where
  | drawable (x : X)
  | forwarder (res : R) (id : JInt)
  | other (x : X)

/-! ## Bitmaps -/

abbrev Bitmap (n : ℕ) := Vector (BitVec 8) n

/-- `1 << (id & 7)` -/
def bit (id : JInt) : JInt := (1 : JInt) <<< (id &&& 7)

/-- `cache[key] |= bit` -/
def Bitmap.mark {n : ℕ} (v : Bitmap n) (key : ℕ) (h : key < n) (bit : JInt) : Bitmap n :=
  v.set key ((v[key].signExtend 32 ||| bit).setWidth 8) h

/-- `(cache[key] & bit) != 0` -/
def Bitmap.marked {n : ℕ} (v : Bitmap n) (key : ℕ) (h : key < n) (bit : JInt) : Bool :=
  v[key].signExtend 32 &&& bit != 0

/-- The index of a framework id, `>>` being arithmetic. -/
def systemCacheKey (id : JInt) : JInt :=
  (id &&& 0x00070000).sshiftRight 11 ||| (id &&& 0xf8).sshiftRight 3

/-- The index of an app id. -/
def cacheKey (id : JInt) : JInt :=
  (id &&& 0x00070000).sshiftRight 12 ||| (id &&& 0x78).sshiftRight 3

theorem sshiftRight_and_toNat (id m : JInt) (hm : m.msb = false) (k : ℕ) :
    ((id &&& m).sshiftRight k).toNat = (id.toNat &&& m.toNat) >>> k := by
  have hmsb : (id &&& m).msb = false := by rw [BitVec.msb_and, hm, Bool.and_false]
  rw [BitVec.sshiftRight_eq_of_msb_false hmsb, BitVec.toNat_ushiftRight, BitVec.toNat_and]

theorem systemCacheKey_lt (id : JInt) : (systemCacheKey id).toNat < 256 := by
  rw [systemCacheKey, BitVec.toNat_or, sshiftRight_and_toNat _ _ (by decide),
    sshiftRight_and_toNat _ _ (by decide)]
  refine Nat.or_lt_two_pow (n := 8) ?_ ?_
  · have : id.toNat &&& (0x00070000 : JInt).toNat ≤ 0x00070000 := Nat.and_le_right
    rw [Nat.shiftRight_eq_div_pow]
    omega
  · have : id.toNat &&& (0xf8 : JInt).toNat ≤ 0xf8 := Nat.and_le_right
    rw [Nat.shiftRight_eq_div_pow]
    omega

theorem cacheKey_lt (id : JInt) : (cacheKey id).toNat < 128 := by
  rw [cacheKey, BitVec.toNat_or, sshiftRight_and_toNat _ _ (by decide),
    sshiftRight_and_toNat _ _ (by decide)]
  refine Nat.or_lt_two_pow (n := 7) ?_ ?_
  · have : id.toNat &&& (0x00070000 : JInt).toNat ≤ 0x00070000 := Nat.and_le_right
    rw [Nat.shiftRight_eq_div_pow]
    omega
  · have : id.toNat &&& (0x78 : JInt).toNat ≤ 0x78 := Nat.and_le_right
    rw [Nat.shiftRight_eq_div_pow]
    omega

/-! ## The objects and the tables -/

/-- The fields of an object; `mReplacementsCache` is a number in `arrays`. -/
structure Res where
  mResDir : Option String := none
  mReplacementsCache : Option ℕ := none
  mIsObjectInited : Bool := false

/-- The static fields and the objects. An entry of `sReplacements` may be
`null`. -/
structure State (R X : Type) where
  sReplacements : Nested JInt (Option String) (Option (Value R X)) := fun _ => none
  sSystemReplacementsCache : Bitmap 256 := Vector.replicate 256 0
  sReplacementsCacheMap : String → Option ℕ := fun _ => none
  sResDirLastModified : String → Option Int64 := fun _ => none
  arrays : List (Bitmap 128) := []
  objects : ℕ → Option Res := fun _ => none

variable {R X : Type}

/-- `id < 0x7f000000`: an id of the framework. -/
def isSystemId (id : JInt) : Bool := id.slt 0x7f000000

/-! ## Setting a replacement -/

/-- The checks at the beginning of `setReplacement`. -/
def checkReplacement (id : JInt) (replacement : Option (Value R X)) (resDir : Option String) :
    Except Throwable Unit :=
  if id = 0 then
    throw (.illegalArgument "id 0 is not an allowed resource identifier")
  else if resDir = none ∧ isSystemId id = false then
    throw (.illegalArgument
      "ids >= 0x7f000000 are app specific and cannot be set for the framework")
  else match replacement with
    | some (.drawable _) => throw (.illegalArgument
        "Drawable replacements are deprecated since Bridge 2.1. Use DrawableLoader instead.")
    | _ => pure ()

/-- The section under the lock of a bitmap. -/
def markReplacement (id : JInt) (res : Option Res) (s : State R X) :
    Except Throwable (State R X) :=
  if isSystemId id then
    let cache := s.sSystemReplacementsCache
    .ok { s with
      sSystemReplacementsCache :=
        cache.mark (systemCacheKey id).toNat (systemCacheKey_lt id) (bit id) }
  else match res.bind (·.mReplacementsCache) with
    | none => .error .nullPointer
    | some ref => .ok { s with
        arrays := s.arrays.modify ref fun cache =>
          cache.mark (cacheKey id).toNat (cacheKey_lt id) (bit id) }

/-- The section under the lock of `sReplacements`. -/
def putReplacement (id : JInt) (replacement : Option (Value R X)) (resDir : Option String)
    (s : State R X) : State R X :=
  { s with sReplacements := s.sReplacements.put id resDir replacement }

/-- **`setReplacement`**, for an object or, with `none`, for all of them. -/
def setReplacement (id : JInt) (replacement : Option (Value R X)) (res : Option Res)
    (s : State R X) : Except Throwable (State R X) := do
  let resDir := res.bind (·.mResDir)
  checkReplacement id replacement resDir
  let s ← markReplacement id res s
  return putReplacement id replacement resDir s

/-! ## Looking a replacement up -/

/-- The lookup in the tables. -/
def lookup (id : JInt) (res : Res) (s : State R X) : Option (Value R X) :=
  match s.sReplacements id with
  | none => none
  | some inner =>
    match (inner res.mResDir).join with
    | some result => some result
    | none => if res.mResDir = none then none else (inner none).join

/-- **`getReplacement`.** -/
def getReplacement (id : JInt) (res : Res) (s : State R X) :
    Except Throwable (Option (Value R X)) :=
  if id.sle 0 then return none
  else if isSystemId id then
    if s.sSystemReplacementsCache.marked (systemCacheKey id).toNat (systemCacheKey_lt id) (bit id)
    then return lookup id res s
    else return none
  else if res.mResDir ≠ none then
    match res.mReplacementsCache.bind (s.arrays[·]?) with
    | none => throw .nullPointer
    | some cache =>
      if cache.marked (cacheKey id).toNat (cacheKey_lt id) (bit id) then return lookup id res s
      else return none
  else return lookup id res s

/-! ## Objects -/

/-- `initObject`; `packageName` is the name that is on file or that the
parser finds. -/
def initObject (resDir packageName : Option String) (res : Res) (s : State R X) :
    Except Throwable Unit × Res × State R X :=
  if res.mIsObjectInited then
    (.error (.illegalState "Object has already been initialized"), res, s)
  else
    let res := { res with mResDir := resDir }
    match resDir with
    | none => (.ok (), { res with mIsObjectInited := true }, s)
    | some dir =>
      if packageName = none then
        (.error (.illegalState ("Could not determine package name for " ++ dir)), res, s)
      else match s.sReplacementsCacheMap dir with
        | some ref =>
          (.ok (), { res with mReplacementsCache := some ref, mIsObjectInited := true }, s)
        | none =>
          let ref := s.arrays.length
          (.ok (), { res with mReplacementsCache := some ref, mIsObjectInited := true },
            { s with
              arrays := s.arrays ++ [Vector.replicate 128 0]
              sReplacementsCacheMap := Function.update s.sReplacementsCacheMap dir (some ref) })

/-- **`isFirstLoad`**, with the file's modification time. -/
def isFirstLoad (lastModification : Int64) (res : Res) (s : State R X) :
    Except Throwable Bool × State R X :=
  match res.mResDir with
  | none => (.ok false, s)
  | some dir =>
    let oldModified := s.sResDirLastModified dir
    if oldModified = some lastModification then (.ok false, s)
    else
      let s := { s with
        sResDirLastModified := Function.update s.sResDirLastModified dir (some lastModification) }
      match oldModified with
      | none => (.ok true, s)
      | some _ =>
        let s := { s with sReplacements := s.sReplacements.drop (some dir) }
        match res.mReplacementsCache with
        | none => (.error .nullPointer, s)
        | some ref =>
          (.ok true, { s with arrays := s.arrays.modify ref fun _ => Vector.replicate 128 0 })

/-! ## Runs -/

/-- The calls on the objects `i`. -/
inductive Event (R X : Type) where
  | create (i : ℕ)
  | initObject (i : ℕ) (resDir packageName : Option String)
  | setReplacement (i : ℕ) (id : JInt) (replacement : Option (Value R X))
  | setSystemWideReplacement (id : JInt) (replacement : Option (Value R X))
  | isFirstLoad (i : ℕ) (lastModification : Int64)

/-- A call. One that throws leaves what it has done. -/
def step : Machine (State R X) (Event R X) Empty
  | s, .create i =>
    (match s.objects i with
      | none => { s with objects := Function.update s.objects i (some {}) }
      | some _ => s, [])
  | s, .initObject i resDir packageName =>
    (match s.objects i with
      | none => s
      | some res =>
        let (result, res', s) := Resources.initObject resDir packageName res s
        let keep := result.toBool || res.mIsObjectInited
        { s with objects := Function.update s.objects i (if keep then some res' else none) }, [])
  | s, .setReplacement i id replacement =>
    (match s.objects i with
      | none => s
      | some res => (Resources.setReplacement id replacement (some res) s).toOption.getD s, [])
  | s, .setSystemWideReplacement id replacement =>
    ((Resources.setReplacement id replacement none s).toOption.getD s, [])
  | s, .isFirstLoad i lastModification =>
    (match s.objects i with
      | none => s
      | some res => (Resources.isFirstLoad lastModification res s).2, [])

end Resources

end Dynamicloader
