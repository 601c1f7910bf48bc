import Dynamicloader.Client.Entry
import Dynamicloader.Client.Dex
/-!
# Client — paths in buffers of one size

The fields of `XloaderInfo` and the buffers the client builds paths in all
have `STR_LEN_LIMIT` bytes. A field may be full up to its NUL, and the client
puts a directory before it and, for the dex file, a name behind it. No length
is checked. `fits_iff` says which blocks are safe, in every run on a device of
a given version.
-/

namespace Dynamicloader

namespace Client

open Memory Prog
open Loader (strLenLimit strstr)
open Xloaderd (ascii)

/-- The three fields are strings that end within them. -/
structure XloaderInfo.Terminated (info : XloaderInfo) : Prop where
  packageName : 0 ∉ info.packageName ∧ info.packageName.length < strLenLimit
  bridgePath : 0 ∉ info.bridgePath ∧ info.bridgePath.length < strLenLimit
  modulePath : 0 ∉ info.modulePath ∧ info.modulePath.length < strLenLimit

/-- The version of the device is `sdk`; everything else is open. -/
def OnVersion (sdk : List UInt8) : (op : Op) → op.Ans → Prop
  | .propertyGet _, value => value = sdk
  | _, _ => True

/-- **No path leaves its buffer**, whatever the process answers. -/
def Fits (sdk : List UInt8) (info : XloaderInfo) : Prop :=
  ∀ already xs r, (doXload already (some info)).Makes xs r →
    (∀ x ∈ xs, OnVersion sdk x.1 x.2) → r ≠ none

/-- A path without the slash it begins with. -/
def stripped (apkPath : List UInt8) : List UInt8 :=
  if startsWith apkPath (ascii "/".toList) then apkPath.tail else apkPath

/-! ## The two buffers -/

/-- The leading slash does not matter. -/
theorem dexPath_stripped (sdk apkPath : List UInt8) :
    dexPath sdk apkPath = dexPath sdk (47 :: stripped apkPath) := by
  have hslash : startsWith (47 :: stripped apkPath) (ascii "/".toList) = true := rfl
  unfold dexPath
  simp only [hslash, if_true, List.tail_cons]
  rfl

theorem zero_notMem_stripped {apkPath : List UInt8} (h0 : 0 ∉ apkPath) : 0 ∉ stripped apkPath := by
  unfold stripped
  split
  · exact fun h => h0 (List.mem_of_mem_tail h)
  · exact h0

/-- **The name of the dex file fits** with its directory and its end. -/
theorem dexPath_ne_none_iff {sdk apkPath : List UInt8} (h0 : 0 ∉ apkPath) :
    dexPath sdk apkPath ≠ none ↔
      (dalvikCachePrefix sdk).length + (stripped apkPath).length + dalvikCachePostfix.length <
        strLenLimit := by
  rw [dexPath_stripped, ← length_probed]
  constructor
  · intro h
    by_contra hlong
    exact h (dexPath_of_not_fits (zero_notMem_stripped h0) (Nat.le_of_not_lt hlong))
  · intro hfits
    obtain ⟨v, hv, -⟩ := dexPath_of_fits (zero_notMem_stripped h0) hfits
    rw [hv]
    exact Option.some_ne_none v

/-- The directory of an app. -/
def dataDir : List UInt8 := ascii "/data/data/".toList

theorem bridgeDexPath_of_app {packageName : List UInt8}
    (happ : packageName ≠ ascii "android".toList) :
    bridgeDexPath packageName =
      (strcpy (Vector.replicate strLenLimit 0 : Memory strLenLimit) 0 dataDir).bind fun buf =>
        (strcat buf packageName).bind fun buf => some (cstr buf 0) := by
  rw [bridgeDexPath, if_neg happ]
  rfl

/-- **The directory of the app fits**; that of the system does anyway. -/
theorem bridgeDexPath_ne_none_iff (packageName : List UInt8) :
    bridgeDexPath packageName ≠ none ↔
      packageName = ascii "android".toList ∨ dataDir.length + packageName.length < strLenLimit := by
  have hdir : 0 + dataDir.length < strLenLimit := by decide
  have hheld : HoldsAt (store (Vector.replicate strLenLimit 0) 0 (dataDir ++ [0])) 0
      (dataDir ++ [0]) := holdsAt_store _ 0 _ (by decide)
  by_cases hsystem : packageName = ascii "android".toList
  · refine iff_of_true ?_ (.inl hsystem)
    rw [bridgeDexPath, if_pos hsystem, strcpy_of_fits (by decide)]
    exact Option.some_ne_none _
  · rw [bridgeDexPath_of_app hsystem, strcpy_of_fits hdir, Option.bind_some, or_iff_right hsystem]
    constructor
    · intro h
      by_contra hlong
      rw [strcat_of_not_fits hheld (by decide) (Nat.le_of_not_lt hlong)] at h
      exact h rfl
    · intro hfits
      obtain ⟨v, hv, -⟩ := strcat_of_fits hheld (by decide) hfits
      rw [hv]
      exact Option.some_ne_none _

/-! ## Every run -/

/-- **The block is short enough**: no path is built for its module or bridge, or
both fit. -/
def Short (sdk : List UInt8) (info : XloaderInfo) : Prop :=
  strstr info.modulePath (ascii ".so".toList) ∨
  startsWith info.bridgePath (ascii "/system/framework/".toList) ∨
  (dalvikCachePrefix sdk).length + (stripped info.bridgePath).length + dalvikCachePostfix.length <
      strLenLimit ∧
    (info.packageName = ascii "android".toList ∨
      dataDir.length + info.packageName.length < strLenLimit)

variable {sdk : List UInt8} {info : XloaderInfo}

/-- What is asked about the dex file of a bridge under `/system/framework/`, or of
one whose name fits. -/
theorem spec_askDexOutputCache_fits {apkPath : List UInt8}
    (h : ¬ startsWith apkPath (ascii "/system/framework/".toList) → dexPath sdk apkPath ≠ none) :
    Spec (OnVersion sdk) (fun _ => True)
      (fun r => r ≠ none ∧
        (startsWith apkPath (ascii "/system/framework/".toList) → r = some true))
      (askDexOutputCache apkPath) := by
  unfold askDexOutputCache
  split
  · exact spec_pure ⟨Option.some_ne_none _, fun _ => rfl⟩
  · rename_i hout
    have hversion : Spec (OnVersion sdk) (fun _ => True) (· = sdk)
        (ask (.propertyGet (ascii "ro.build.version.sdk".toList))) :=
      ⟨trivial, fun value hvalue => hvalue⟩
    refine spec_bind hversion fun value hvalue => ?_
    obtain rfl : value = sdk := hvalue
    cases hpath : dexPath value apkPath with
    | none => exact absurd hpath (h hout)
    | some path =>
      refine spec_bind (spec_true _) fun found _ => spec_pure ⟨Option.some_ne_none _, fun hin => ?_⟩
      exact absurd hin hout

theorem spec_doXload_fits (h0 : 0 ∉ info.bridgePath) (h : Short sdk info) (already : Int32) :
    Spec (OnVersion sdk) (fun _ => True) (· ≠ none) (doXload already (some info)) := by
  have hreturn : ∀ (r : Int32 × Int32), Spec (OnVersion sdk) (fun _ => True) (· ≠ none)
      (pure (some r) : Io (Option (Int32 × Int32))) := fun r => spec_pure (Option.some_ne_none r)
  have hload : ∀ c : Io Int32, ∀ next : Int32, Spec (OnVersion sdk) (fun _ => True) (· ≠ none)
      (do return some (← c, next)) := fun c next => spec_bind (spec_true c) fun r _ => hreturn _
  unfold doXload
  refine spec_bind (spec_true _) fun there _ => ?_
  split
  · exact hreturn _
  split
  · exact hload _ _
  rename_i hjar
  refine spec_bind (spec_true _) fun there' _ => ?_
  split
  · exact hreturn _
  refine spec_bind (spec_true _) fun env _ => ?_
  split
  · exact hreturn _
  -- a library has been loaded above, so the paths are built, and they fit
  have hshort := h.resolve_left hjar
  refine spec_bind (spec_askDexOutputCache_fits fun hout => ?_) fun r hr => ?_
  · exact (dexPath_ne_none_iff h0).mpr (hshort.resolve_left hout).1
  · cases r with
    | none => exact absurd rfl hr.1
    | some cached =>
      cases cached with
      | true => exact hload _ _
      | false =>
        have hout : ¬ startsWith info.bridgePath (ascii "/system/framework/".toList) := by
          intro hin
          cases hr.2 hin
        have hdir := (bridgeDexPath_ne_none_iff _).mpr (hshort.resolve_left hout).2
        dsimp only
        cases hpath : bridgeDexPath info.packageName with
        | none => exact absurd hpath hdir
        | some path => exact hload _ _

/-! ## A run in which they are built -/

/-- A process with the module and the bridge, in which the files asked for
later are not there. -/
def probing (sdk : List UInt8) : ℕ → (op : Op) → op.Ans × ℕ
  | asked, .stat _ => (decide (asked < 2), asked + 1)
  | asked, .propertyGet _ => (sdk, asked)
  | asked, op => (works op, asked)

theorem probing_onVersion (asked : ℕ) (op : Op) : OnVersion sdk op (probing sdk asked op).1 := by
  cases op <;> first | rfl | trivial

/-- Behind the module and the bridge no file is found. -/
theorem run_askDexOutputCache_probing {apkPath : List UInt8}
    (hout : ¬ startsWith apkPath (ascii "/system/framework/".toList)) :
    (askDexOutputCache apkPath).run (probing sdk) 2 =
      (dexPath sdk apkPath).elim (none, 2) fun _ => (some false, 3) := by
  have hsdk : (ask (.propertyGet (ascii "ro.build.version.sdk".toList))).run (probing sdk) 2 =
      (sdk, 2) := rfl
  rw [askDexOutputCache, if_neg hout, run_bind, hsdk]
  cases dexPath sdk apkPath with
  | none => rfl
  | some path => rfl

/-- **A block that is not short enough** is written over the end of a buffer. -/
theorem run_probing (h0 : 0 ∉ info.bridgePath) (h : ¬ Short sdk info) :
    ((doXload 0 (some info)).run (probing sdk) 0).1 = none := by
  unfold Short at h
  rw [not_or, not_or, not_and_or] at h
  obtain ⟨hjar, hout, hlong⟩ := h
  have hmodule : (ask (.stat info.modulePath)).run (probing sdk) 0 = (true, 1) := rfl
  have hbridge : (ask (.stat info.bridgePath)).run (probing sdk) 1 = (true, 2) := rfl
  have henv : getEnv.run (probing sdk) 2 = (1, 2) := rfl
  unfold doXload
  rw [run_bind, hmodule, if_neg (by exact Bool.false_ne_true), if_neg hjar, run_bind, hbridge,
    if_neg (by exact Bool.false_ne_true), run_bind, henv, if_neg (by decide), run_bind,
    run_askDexOutputCache_probing hout]
  cases hpath : dexPath sdk info.bridgePath with
  | none => rfl
  | some path =>
    have hdex := (dexPath_ne_none_iff h0).mp (hpath ▸ Option.some_ne_none path)
    have hdir : bridgeDexPath info.packageName = none := by
      by_contra hdir
      exact hlong.elim (absurd hdex) (absurd ((bridgeDexPath_ne_none_iff _).mp hdir))
    rw [Option.elim_some, hdir]
    rfl

theorem not_fits_of_not_short (h0 : 0 ∉ info.bridgePath) (h : ¬ Short sdk info) :
    ¬ Fits sdk info := by
  intro hfits
  have hmakes : (doXload 0 (some info)).Makes ((doXload 0 (some info)).record (probing sdk) 0).1
      ((doXload 0 (some info)).record (probing sdk) 0).2 := record_makes _ 0
  refine hfits 0 _ _ hmakes (fun x hx => ?_) ?_
  · obtain ⟨t, ht⟩ := record_answer hx
    rw [ht]
    exact probing_onVersion t x.1
  · rw [record_snd]
    exact run_probing h0 h

/-- **Paths stay in their buffers if and only if** the block is short enough for
the version. -/
theorem fits_iff (sdk : List UInt8) {info : XloaderInfo} (hinfo : info.Terminated) :
    Fits sdk info ↔ Short sdk info := by
  constructor
  · intro hfits
    by_contra hlong
    exact not_fits_of_not_short hinfo.bridgePath.1 hlong hfits
  · intro hshort already xs r hmakes hversion
    exact ((spec_doXload_fits hinfo.bridgePath.1 hshort already).makes hmakes hversion).2

/-- The block for a jar, with the bridge's own path. -/
def blockFor (packageName : List UInt8) : XloaderInfo where
  packageName := packageName
  bridgePath := Loader.Config.bridgePathCurrent ⟨false, false⟩
  modulePath := ascii "/m.jar".toList

theorem blockFor_terminated {n : ℕ} (hn : n < strLenLimit) :
    (blockFor (List.replicate n 97)).Terminated where
  packageName := ⟨by simp [blockFor, List.mem_replicate], by simpa [blockFor] using hn⟩
  bridgePath := by
    show 0 ∉ Loader.Config.bridgePathCurrent ⟨false, false⟩ ∧
      (Loader.Config.bridgePathCurrent ⟨false, false⟩).length < strLenLimit
    decide
  modulePath := by
    show 0 ∉ ascii "/m.jar".toList ∧ (ascii "/m.jar".toList).length < strLenLimit
    decide

/-- Only the package name of such a block can be too long. -/
theorem short_blockFor (packageName : List UInt8) :
    Short (ascii "19".toList) (blockFor packageName) ↔
      packageName = ascii "android".toList ∨ 11 + packageName.length < strLenLimit := by
  have hjar : ¬ strstr (ascii "/m.jar".toList) (ascii ".so".toList) := by decide +kernel
  have hout : ¬ startsWith (Loader.Config.bridgePathCurrent ⟨false, false⟩)
      (ascii "/system/framework/".toList) := by decide
  have hfits : (dalvikCachePrefix (ascii "19".toList)).length +
      (stripped (Loader.Config.bridgePathCurrent ⟨false, false⟩)).length +
        dalvikCachePostfix.length < strLenLimit := by decide
  exact (or_iff_right hjar).trans ((or_iff_right hout).trans (and_iff_right hfits))

/-- A package name of 245 bytes ends in its field, and the directory of the app
does not end in the buffer. -/
theorem package_directory_overflows :
    (blockFor (List.replicate 245 97)).Terminated ∧
      ¬ Fits (ascii "19".toList) (blockFor (List.replicate 245 97)) := by
  refine ⟨blockFor_terminated (by decide), not_fits_of_not_short (by decide) ?_⟩
  rw [short_blockFor, List.length_replicate]
  rintro (h | h)
  · exact absurd (congrArg List.length h) (by rw [List.length_replicate]; decide)
  · exact absurd h (by decide)

/-- One of 244 bytes fits. -/
theorem package_directory_fits :
    (blockFor (List.replicate 244 97)).Terminated ∧
      Fits (ascii "19".toList) (blockFor (List.replicate 244 97)) := by
  have hblock : (blockFor (List.replicate 244 97)).Terminated := blockFor_terminated (by decide)
  refine ⟨hblock, (fits_iff _ hblock).mpr ((short_blockFor _).mpr (.inr ?_))⟩
  rw [List.length_replicate]
  decide

end Client

end Dynamicloader
