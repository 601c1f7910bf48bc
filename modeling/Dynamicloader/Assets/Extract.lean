import Dynamicloader.Common.Stream
/-!
# Assets — extraction to a file

`extraceToLocal` of the service and `extractAssetsToLocal` of its proxy copy
an asset to a file, 1024 bytes at a time. Both catch what the copying throws
and set their result where the file is closed, which the `finally` clause
does after a failed copy as after a whole one. So the result says whether
the file could be closed and not whether it is whole, and `tells_iff` gives
the failures for which the two agree.
-/

namespace Dynamicloader

namespace Assets

/-! ## The model -/

/-- The file at `outPath`, and whether others may read it. -/
structure LocalFile where
  content : List UInt8
  readable : Bool
  deriving DecidableEq

/-- **What the system does in one extraction.** A failure of `is.close()` is left
out: it is caught last of all, and only printed. -/
structure Attempt where
  /-- what is read from the asset, if it can be opened -/
  asset : Option (Reads UInt8)
  /-- `new FileOutputStream(outPath)` succeeds -/
  creates : Bool
  /-- how many bytes of its buffer the write with this index writes before it throws,
  if it throws -/
  writes : ℕ → Option ℕ
  flushes : Bool
  closes : Bool
  /-- `setReadable` is permitted -/
  permits : Bool

/-- The loop of reads and writes, from the write with index `i` on: how it ends, and
what has been written. -/
def copyAll (writes : ℕ → Option ℕ) (i : ℕ) (written : List UInt8) :
    Reads UInt8 → Except IOException Unit × List UInt8
  | .done => (.ok (), written)
  | .fails => (.error .failed, written)
  | .piece buffer rest =>
    match writes i with
    | none => copyAll writes (i + 1) (written ++ buffer) rest
    | some n => (.error .failed, written ++ buffer.take n)

/-- The `try` block with its catch clauses: is `os` not null behind them, and the
file. An output stream empties a file that is there. -/
def tryCopy (a : Attempt) (file : Option LocalFile) : Bool × Option LocalFile :=
  match a.asset with
  | none => (false, file)
  | some is =>
    if a.creates then
      -- how the loop has ended is printed, and forgotten
      let (_, written) := copyAll a.writes 0 [] is
      (true, some ⟨written, file.elim false LocalFile.readable⟩)
    else (false, file)

/-- `setReadable(true, false)` for a file that exists -/
def setReadable (permits : Bool) (file : Option LocalFile) : Option LocalFile :=
  file.map fun f => { f with readable := f.readable || permits }

/-- **`AssetsHelper.extraceToLocal`**: its result, and the file. -/
def extraceToLocal (a : Attempt) (file : Option LocalFile) : Bool × Option LocalFile :=
  let (os, file) := tryCopy a file
  (os && a.flushes && a.closes, file)

/-- **`DynXloaderServiceProxy.extractAssetsToLocal`** -/
def extractAssetsToLocal (a : Attempt) (file : Option LocalFile) : Bool × Option LocalFile :=
  let (os, file) := tryCopy a file
  if os && a.flushes && a.closes then (true, setReadable a.permits file) else (false, file)

/-! ### The service -/

/-- The files of the service, and its preference for a first boot. -/
structure Installation where
  bridge : Option LocalFile
  xandroid : Option LocalFile
  firstBoot : Bool
  deriving DecidableEq

/-- What `extractBridge` and `extractXandroid` do with their file. -/
def extractDex (a : Attempt) (file : Option LocalFile) : Bool × Option LocalFile :=
  let (ret, file) := extraceToLocal a file
  (ret, setReadable a.permits file)

def extractBridge (a : Attempt) (s : Installation) : Bool × Installation :=
  let (ret, file) := extractDex a s.bridge
  (ret, { s with bridge := file })

def extractXandroid (a : Attempt) (s : Installation) : Bool × Installation :=
  let (ret, file) := extractDex a s.xandroid
  (ret, { s with xandroid := file })

/-- `onCreate`, with the attempts for the two files. -/
def onCreate (bridge xandroid : Attempt) (s : Installation) : Installation :=
  let (ret, s) := extractBridge bridge s
  if ret then
    let (ret, s) := extractXandroid xandroid s
    if ret then { s with firstBoot := false } else s
  else s

/-! ## What is written -/

/-- **The whole asset gets written**: of the `left` bytes that are not in the file
before the write with index `i`, none is missing where the copying ends. -/
def Whole (writes : ℕ → Option ℕ) : ℕ → Reads UInt8 → ℕ → Prop
  | _, .done, left => left = 0
  | _, .fails, left => left = 0
  | i, .piece buffer rest, left =>
    match writes i with
    | none => Whole writes (i + 1) rest (left - buffer.length)
    | some n => left ≤ n ∧ left ≤ buffer.length

theorem copyAll_eq_iff (writes : ℕ → Option ℕ) {size : ℕ} {r : Reads UInt8}
    {content : List UInt8} (hof : r.Of size content) (i : ℕ) (written : List UInt8) :
    (copyAll writes i written r).2 = written ++ content ↔ Whole writes i r content.length := by
  induction r generalizing i written content with
  | done =>
    obtain rfl : content = [] := hof
    simp [copyAll, Whole]
  | fails => simp [copyAll, Whole]
  | piece buffer rest ih =>
    obtain ⟨-, -, left, rfl, hleft⟩ := hof
    rw [copyAll, Whole]
    cases hw : writes i with
    | none =>
      have hlength : (buffer ++ left).length - buffer.length = left.length := by
        rw [List.length_append, Nat.add_sub_cancel_left]
      simp only [hlength]
      rw [← ih hleft, List.append_assoc]
    | some n =>
      -- the write that throws is the last: nothing may be left behind its buffer
      simp only [List.append_cancel_left_eq, List.length_append]
      constructor
      · intro heq
        have hlength := congrArg List.length heq
        rw [List.length_take, List.length_append] at hlength
        omega
      · rintro ⟨hn, hall⟩
        have hnil : left = [] := List.eq_nil_of_length_eq_zero (by omega)
        rw [hnil, List.append_nil, List.take_of_length_le (by omega)]

/-! ## What the result tells -/

/-- The result is true exactly for a file with the whole asset. -/
def Tells (content : List UInt8) (result : Bool × Option LocalFile) : Prop :=
  result.1 = true ↔ result.2.map LocalFile.content = some content

/-- **The failures that the result tells**: if a file is opened for the asset, the
whole asset is written to it exactly where it can be flushed and closed;
otherwise the file is not whole from before. -/
def Told (content : List UInt8) (a : Attempt) (file : Option LocalFile) : Prop :=
  match a.asset, a.creates with
  | some is, true =>
    Whole a.writes 0 is content.length ↔ a.flushes = true ∧ a.closes = true
  | _, _ => file.map LocalFile.content ≠ some content

theorem setReadable_content (permits : Bool) (file : Option LocalFile) :
    (setReadable permits file).map LocalFile.content = file.map LocalFile.content := by
  cases file with
  | none => rfl
  | some f => rfl

/-- The proxy's extraction differs in who may read the file. -/
theorem extractAssetsToLocal_eq (a : Attempt) (file : Option LocalFile) :
    (extractAssetsToLocal a file).1 = (extraceToLocal a file).1 ∧
      (extractAssetsToLocal a file).2.map LocalFile.content =
        (extraceToLocal a file).2.map LocalFile.content := by
  unfold extractAssetsToLocal extraceToLocal
  obtain ⟨os, after⟩ := tryCopy a file
  dsimp only
  split
  next h => exact ⟨h.symm, setReadable_content a.permits after⟩
  next h => exact ⟨(Bool.eq_false_iff.mpr h).symm, rfl⟩

theorem tells_extraceToLocal {content : List UInt8} {a : Attempt}
    (hof : ∀ is, a.asset = some is → is.Of 1024 content) (file : Option LocalFile) :
    Tells content (extraceToLocal a file) ↔ Told content a file := by
  unfold Tells Told extraceToLocal tryCopy
  cases hasset : a.asset with
  | none => simp
  | some is =>
    cases hcreates : a.creates with
    | false => simp
    | true =>
      have hwhole := copyAll_eq_iff a.writes (hof is hasset) 0 []
      rw [List.nil_append] at hwhole
      simp [hwhole, iff_comm]

/-- **The result of either extraction is right if and only if** its failures are told. -/
theorem tells_iff {content : List UInt8} {a : Attempt}
    (hof : ∀ is, a.asset = some is → is.Of 1024 content) (file : Option LocalFile) :
    (Tells content (extraceToLocal a file) ↔ Told content a file) ∧
      (Tells content (extractAssetsToLocal a file) ↔ Told content a file) := by
  have hservice := tells_extraceToLocal hof file
  obtain ⟨hresult, hcontent⟩ := extractAssetsToLocal_eq a file
  refine ⟨hservice, ?_⟩
  rw [← hservice]
  unfold Tells
  rw [hresult, hcontent]

/-- Two bytes, and the second read throws. -/
def interrupted : Attempt where
  asset := some (.piece [1] .fails)
  creates := true
  writes := fun _ => none
  flushes := true
  closes := true
  permits := true

/-- **Half an asset is reported as extracted.** -/
theorem half_reported :
    (∀ is, interrupted.asset = some is → is.Of 1024 [1, 2]) ∧
      extraceToLocal interrupted none = (true, some ⟨[1], false⟩) ∧
      extractAssetsToLocal interrupted none = (true, some ⟨[1], true⟩) ∧
      ¬ Tells [1, 2] (extraceToLocal interrupted none) ∧
      ¬ Tells [1, 2] (extractAssetsToLocal interrupted none) := by
  refine ⟨?_, rfl, rfl, ?_, ?_⟩
  · rintro is ⟨⟩
    exact ⟨by decide, by decide, [2], rfl, trivial⟩
  · intro h
    exact absurd (h.mp rfl) (by decide)
  · intro h
    exact absurd (h.mp rfl) (by decide)

/-- The same asset, read to its end. -/
def completed : Attempt :=
  { interrupted with asset := some (.piece [1] (.piece [2] .done)) }

theorem completed_reported :
    Tells [1, 2] (extraceToLocal completed none) ∧
      Tells [1, 2] (extractAssetsToLocal completed none) := by
  have hof : ∀ is, completed.asset = some is → is.Of 1024 [1, 2] := by
    rintro is ⟨⟩
    exact ⟨by decide, by decide, [2], rfl, by decide, by decide, [], rfl, rfl⟩
  have htold : Told [1, 2] completed none :=
    ⟨fun _ => ⟨rfl, rfl⟩, fun _ => rfl⟩
  obtain ⟨hservice, hproxy⟩ := tells_iff hof none
  exact ⟨hservice.mpr htold, hproxy.mpr htold⟩

/-! ## The first boot -/

/-- **The service has both files whole** when its first boot is over, if the failures
of both extractions are told. -/
theorem onCreate_firstBoot {bridge xandroid : Attempt} {dex system : List UInt8}
    {s : Installation} (hbridge : Tells dex (extraceToLocal bridge s.bridge))
    (hxandroid : Tells system (extraceToLocal xandroid s.xandroid)) (hfirst : s.firstBoot = true)
    (hover : (onCreate bridge xandroid s).firstBoot = false) :
    (onCreate bridge xandroid s).bridge.map LocalFile.content = some dex ∧
      (onCreate bridge xandroid s).xandroid.map LocalFile.content = some system := by
  rcases hb : extraceToLocal bridge s.bridge with ⟨r, f⟩
  rcases hx : extraceToLocal xandroid s.xandroid with ⟨r', f'⟩
  rw [hb] at hbridge
  rw [hx] at hxandroid
  simp only [onCreate, extractBridge, extractXandroid, extractDex, hb, hx] at hover ⊢
  cases r with
  | false => exact absurd (hfirst.symm.trans hover) (by decide)
  | true =>
    cases r' with
    | false => exact absurd (hfirst.symm.trans hover) (by decide)
    | true =>
      have hdex := hbridge.mp rfl
      have hsystem := hxandroid.mp rfl
      simp only [if_true, setReadable_content]
      exact ⟨hdex, hsystem⟩

end Assets

end Dynamicloader
