import Dynamicloader.Resources.Cache
/-!
# BridgeResources — the getters

The getters of `BridgeResources` and those of `BridgeTypedArray`, which looks
up the resource that an attribute refers to. Each asks for the replacement of
the id, goes by what it is an instance of, and falls back on the getter of the
superclass. A replacement that forwards to other resources has all getters of
those.

`Taken` says where the value is from. The getters with one name agree, but for
those of dimensions: a `DimensionReplacement` counts for the resource and not
for an attribute that refers to it.
-/

namespace Dynamicloader

namespace Resources

/-! ## Replacements -/

/-- `DimensionReplacement` -/
structure DimensionReplacement where
  mValue : Float32
  mUnit : JInt

namespace DimensionReplacement

/-- `getDimension`, by `TypedValue.applyDimension` with the metrics. -/
def getDimension (d : DimensionReplacement) (applyDimension : JInt → Float32 → Float32) : Float32 :=
  applyDimension d.mUnit d.mValue

def getDimensionPixelOffset (d : DimensionReplacement)
    (applyDimension : JInt → Float32 → Float32) : JInt :=
  (applyDimension d.mUnit d.mValue).toInt32.toBitVec

def getDimensionPixelSize (d : DimensionReplacement)
    (applyDimension : JInt → Float32 → Float32) : JInt :=
  let res := (applyDimension d.mUnit d.mValue + 0.5).toInt32
  if res ≠ 0 then res.toBitVec
  else if d.mValue == 0 then 0
  else if d.mValue > 0 then 1
  else -1

end DimensionReplacement

/-- The objects the getters tell apart, with lists of colors `C`, texts `T`,
drawables `D` and exceptions `E`. -/
inductive Replacement (C T D E : Type) where
  | boolean (b : Bool)
  | integer (i : JInt)
  | colorStateList (c : C)
  | charSequence (t : T)
  | charSequences (ts : List T)
  | dimension (d : DimensionReplacement)
  /-- `DrawableLoader`, by its `newDrawable`, which may return `null`. -/
  | drawableLoader (newDrawable : Res → JInt → Except E (Option D))
  /-- Any other object. -/
  | unknown

/-- The getters of a `Resources`. -/
structure Getters (C T D E : Type) where
  getBoolean : JInt → Except E Bool
  getColor : JInt → Except E JInt
  getColorStateList : JInt → Except E C
  getDimension : JInt → Except E Float32
  getDimensionPixelOffset : JInt → Except E JInt
  getDimensionPixelSize : JInt → Except E JInt
  getDrawable : JInt → Except E D
  getFraction : JInt → JInt → JInt → Except E Float32
  getInteger : JInt → Except E JInt
  getText : JInt → Except E T
  getTextArray : JInt → Except E (List T)

/-- What the getters use of the platform: the metrics, `ColorStateList.valueOf`
and `new ColorDrawable`. -/
structure Display (C D : Type) where
  applyDimension : JInt → Float32 → Float32
  valueOf : JInt → C
  colorDrawable : JInt → D

/-- Where a getter takes its value from: the replacement, or the original
resource. -/
inductive Taken (E α : Type) where
  | replacement (value : Except E α)
  | original

variable {C T D E α : Type}

/-- The tables, with these replacements. -/
abbrev Table (C T D E : Type) := State (Getters C T D E) (Replacement C T D E)

/-- What getters have in common: `take` is what becomes of an object, if it is
one that they know, and `forward` the getter of other resources. -/
def choose (take : Replacement C T D E → Option (Except E α))
    (forward : Getters C T D E → JInt → Except E α) :
    Option (Value (Getters C T D E) (Replacement C T D E)) → Taken E α
  | some (.other x) =>
    match take x with
    | some value => .replacement value
    | none => .original
  | some (.forwarder repRes repId) => .replacement (forward repRes repId)
  | _ => .original

/-- The case of a `DimensionReplacement`. -/
def takeDimension (f : DimensionReplacement → α) : Replacement C T D E → Option (Except E α)
  | .dimension d => some (.ok (f d))
  | _ => none

/-! ## `BridgeResources` -/

namespace BridgeResources

variable (this : Res) (id : JInt) (s : Table C T D E)

def getBoolean : Except Throwable (Taken E Bool) :=
  (getReplacement id this s).map <| choose
    (fun
      | .boolean b => some (.ok b)
      | _ => none)
    (·.getBoolean)

def getColor : Except Throwable (Taken E JInt) :=
  (getReplacement id this s).map <| choose
    (fun
      | .integer i => some (.ok i)
      | _ => none)
    (·.getColor)

/-- `getColorStateList`, with `sColorStateListCache` before and after. -/
def getColorStateList (P : Display C D) (cache : JInt → Option C) :
    Except Throwable (Taken E (C × (JInt → Option C))) :=
  (getReplacement id this s).map <| choose
    (fun
      | .colorStateList c => some (.ok (c, cache))
      | .integer color =>
        let result := (cache color).getD (P.valueOf color)
        some (.ok (result, Function.update cache color (some result)))
      | _ => none)
    (fun repRes repId => (repRes.getColorStateList repId).map (·, cache))

def getDimension (P : Display C D) : Except Throwable (Taken E Float32) :=
  (getReplacement id this s).map <| choose
    (takeDimension (·.getDimension P.applyDimension)) (·.getDimension)

def getDimensionPixelOffset (P : Display C D) : Except Throwable (Taken E JInt) :=
  (getReplacement id this s).map <| choose
    (takeDimension (·.getDimensionPixelOffset P.applyDimension)) (·.getDimensionPixelOffset)

def getDimensionPixelSize (P : Display C D) : Except Throwable (Taken E JInt) :=
  (getReplacement id this s).map <| choose
    (takeDimension (·.getDimensionPixelSize P.applyDimension)) (·.getDimensionPixelSize)

/-- `getDrawable`; a loader that throws or returns `null` is passed over. -/
def getDrawable (P : Display C D) : Except Throwable (Taken E D) :=
  (getReplacement id this s).map <| choose
    (fun
      | .drawableLoader newDrawable =>
        match newDrawable this id with
        | .ok (some result) => some (.ok result)
        | _ => none
      | .integer color => some (.ok (P.colorDrawable color))
      | _ => none)
    (·.getDrawable)

def getFraction (base pbase : JInt) : Except Throwable (Taken E Float32) :=
  (getReplacement id this s).map <| choose (fun _ => none)
    (fun repRes repId => repRes.getFraction repId base pbase)

def getInteger : Except Throwable (Taken E JInt) :=
  (getReplacement id this s).map <| choose
    (fun
      | .integer i => some (.ok i)
      | _ => none)
    (·.getInteger)

def getText : Except Throwable (Taken E T) :=
  (getReplacement id this s).map <| choose
    (fun
      | .charSequence t => some (.ok t)
      | _ => none)
    (·.getText)

def getTextArray : Except Throwable (Taken E (List T)) :=
  (getReplacement id this s).map <| choose
    (fun
      | .charSequences ts => some (.ok ts)
      | _ => none)
    (·.getTextArray)

end BridgeResources

/-! ## `BridgeTypedArray` -/

/-- A typed array: the resources, and the id that the attribute at an index
refers to, or `0`. -/
structure BridgeTypedArray where
  mRes : Res
  getResourceId : JInt → JInt

namespace BridgeTypedArray

variable (this : BridgeTypedArray) (index : JInt) (s : Table C T D E)

def getBoolean : Except Throwable (Taken E Bool) :=
  (getReplacement (this.getResourceId index) this.mRes s).map <| choose
    (fun
      | .boolean b => some (.ok b)
      | _ => none)
    (·.getBoolean)

def getColor : Except Throwable (Taken E JInt) :=
  (getReplacement (this.getResourceId index) this.mRes s).map <| choose
    (fun
      | .integer i => some (.ok i)
      | _ => none)
    (·.getColor)

def getColorStateList (P : Display C D) (cache : JInt → Option C) :
    Except Throwable (Taken E (C × (JInt → Option C))) :=
  (getReplacement (this.getResourceId index) this.mRes s).map <| choose
    (fun
      | .colorStateList c => some (.ok (c, cache))
      | .integer color =>
        let result := (cache color).getD (P.valueOf color)
        some (.ok (result, Function.update cache color (some result)))
      | _ => none)
    (fun repRes repId => (repRes.getColorStateList repId).map (·, cache))

/-- `getDimension`; there is no case for a `DimensionReplacement`. -/
def getDimension : Except Throwable (Taken E Float32) :=
  (getReplacement (this.getResourceId index) this.mRes s).map <| choose (fun _ => none)
    (·.getDimension)

def getDimensionPixelOffset : Except Throwable (Taken E JInt) :=
  (getReplacement (this.getResourceId index) this.mRes s).map <| choose (fun _ => none)
    (·.getDimensionPixelOffset)

def getDimensionPixelSize : Except Throwable (Taken E JInt) :=
  (getReplacement (this.getResourceId index) this.mRes s).map <| choose (fun _ => none)
    (·.getDimensionPixelSize)

def getDrawable (P : Display C D) : Except Throwable (Taken E D) :=
  let resId := this.getResourceId index
  (getReplacement resId this.mRes s).map <| choose
    (fun
      | .drawableLoader newDrawable =>
        match newDrawable this.mRes resId with
        | .ok (some result) => some (.ok result)
        | _ => none
      | .integer color => some (.ok (P.colorDrawable color))
      | _ => none)
    (·.getDrawable)

def getFraction (base pbase : JInt) : Except Throwable (Taken E Float32) :=
  (getReplacement (this.getResourceId index) this.mRes s).map <| choose (fun _ => none)
    (fun repRes repId => repRes.getFraction repId base pbase)

def getInteger : Except Throwable (Taken E JInt) :=
  (getReplacement (this.getResourceId index) this.mRes s).map <| choose
    (fun
      | .integer i => some (.ok i)
      | _ => none)
    (·.getInteger)

def getText : Except Throwable (Taken E T) :=
  (getReplacement (this.getResourceId index) this.mRes s).map <| choose
    (fun
      | .charSequence t => some (.ok t)
      | _ => none)
    (·.getText)

def getTextArray : Except Throwable (Taken E (List T)) :=
  (getReplacement (this.getResourceId index) this.mRes s).map <| choose
    (fun
      | .charSequences ts => some (.ok ts)
      | _ => none)
    (·.getTextArray)

end BridgeTypedArray

/-! ## Getters with one name -/

/-- The getters that both have, with their further arguments. -/
inductive Getter where
  | getBoolean
  | getColor
  | getColorStateList
  | getDimension
  | getDimensionPixelOffset
  | getDimensionPixelSize
  | getDrawable
  | getFraction (base pbase : JInt)
  | getInteger
  | getText
  | getTextArray

namespace Getter

/-- The type of the value; with a list of colors comes the cache. -/
def Result (C T D : Type) : Getter → Type
  | getBoolean => Bool
  | getColor => JInt
  | getColorStateList => C × (JInt → Option C)
  | getDimension => Float32
  | getDimensionPixelOffset => JInt
  | getDimensionPixelSize => JInt
  | getDrawable => D
  | getFraction _ _ => Float32
  | getInteger => JInt
  | getText => T
  | getTextArray => List T

def isDimension : Getter → Bool
  | getDimension => true
  | getDimensionPixelOffset => true
  | getDimensionPixelSize => true
  | _ => false

/-- The getter of `BridgeResources`. -/
def ofResources (P : Display C D) (cache : JInt → Option C) (this : Res) (id : JInt)
    (s : Table C T D E) : (g : Getter) → Except Throwable (Taken E (g.Result C T D))
  | getBoolean => BridgeResources.getBoolean this id s
  | getColor => BridgeResources.getColor this id s
  | getColorStateList => BridgeResources.getColorStateList this id s P cache
  | getDimension => BridgeResources.getDimension this id s P
  | getDimensionPixelOffset => BridgeResources.getDimensionPixelOffset this id s P
  | getDimensionPixelSize => BridgeResources.getDimensionPixelSize this id s P
  | getDrawable => BridgeResources.getDrawable this id s P
  | getFraction base pbase => BridgeResources.getFraction this id s base pbase
  | getInteger => BridgeResources.getInteger this id s
  | getText => BridgeResources.getText this id s
  | getTextArray => BridgeResources.getTextArray this id s

/-- The getter of `BridgeTypedArray`. -/
def ofTypedArray (P : Display C D) (cache : JInt → Option C) (this : BridgeTypedArray)
    (index : JInt) (s : Table C T D E) :
    (g : Getter) → Except Throwable (Taken E (g.Result C T D))
  | getBoolean => this.getBoolean index s
  | getColor => this.getColor index s
  | getColorStateList => this.getColorStateList index s P cache
  | getDimension => this.getDimension index s
  | getDimensionPixelOffset => this.getDimensionPixelOffset index s
  | getDimensionPixelSize => this.getDimensionPixelSize index s
  | getDrawable => this.getDrawable index s P
  | getFraction base pbase => this.getFraction index s base pbase
  | getInteger => this.getInteger index s
  | getText => this.getText index s
  | getTextArray => this.getTextArray index s

/-- Getters that are not of dimensions are the same. -/
theorem ofTypedArray_eq (P : Display C D) (cache : JInt → Option C) (array : BridgeTypedArray)
    (index : JInt) (s : Table C T D E) {g : Getter} (hg : g.isDimension = false) :
    g.ofTypedArray P cache array index s =
      g.ofResources P cache array.mRes (array.getResourceId index) s := by
  cases g with
  | getDimension => cases hg
  | getDimensionPixelOffset => cases hg
  | getDimensionPixelSize => cases hg
  | _ => rfl

/-- Those of dimensions differ in the case that one of them lacks. -/
theorem dimension_agrees_iff {f : DimensionReplacement → α}
    {forward : Getters C T D E → JInt → Except E α}
    {r : Except Throwable (Option (Value (Getters C T D E) (Replacement C T D E)))} :
    (∀ value, r.map (choose (takeDimension f) forward) = .ok (.replacement value) →
        r.map (choose (fun _ => none) forward) = .ok (.replacement value)) ↔
      ∀ d, r ≠ .ok (some (.other (.dimension d))) := by
  constructor
  · rintro h d rfl
    have hnone := h (.ok (f d)) rfl
    simp only [Except.map, choose] at hnone
    cases Except.ok.inj hnone
  · intro h value htaken
    rw [← htaken]
    match r with
    | .error e => rfl
    | .ok none => rfl
    | .ok (some (.drawable x)) => rfl
    | .ok (some (.forwarder repRes repId)) => rfl
    | .ok (some (.other (.dimension d))) => exact absurd rfl (h d)
    | .ok (some (.other (.boolean b))) => rfl
    | .ok (some (.other (.integer i))) => rfl
    | .ok (some (.other (.colorStateList c))) => rfl
    | .ok (some (.other (.charSequence t))) => rfl
    | .ok (some (.other (.charSequences ts))) => rfl
    | .ok (some (.other (.drawableLoader l))) => rfl
    | .ok (some (.other .unknown)) => rfl

/-- **When an attribute is replaced as its resource is**: always, but for a
`DimensionReplacement` and the getters of dimensions. -/
theorem attribute_agrees_iff (P : Display C D) (cache : JInt → Option C)
    (array : BridgeTypedArray) (index : JInt) (s : Table C T D E) (g : Getter) :
    (∀ value, g.ofResources P cache array.mRes (array.getResourceId index) s =
          .ok (.replacement value) →
        g.ofTypedArray P cache array index s = .ok (.replacement value)) ↔
      (g.isDimension = true → ∀ d, getReplacement (array.getResourceId index) array.mRes s ≠
        .ok (some (.other (.dimension d)))) := by
  cases hg : g.isDimension with
  | false =>
    refine iff_of_true (fun value hvalue => ?_) (fun h => absurd h Bool.false_ne_true)
    rwa [ofTypedArray_eq P cache array index s hg]
  | true =>
    refine Iff.trans ?_ (forall_prop_of_true rfl).symm
    cases g with
    | getDimension => exact dimension_agrees_iff
    | getDimensionPixelOffset => exact dimension_agrees_iff
    | getDimensionPixelSize => exact dimension_agrees_iff
    | _ => cases hg

/-- A dimension is replaced for all, and an attribute refers to it: the
resource is replaced and the attribute is not. -/
theorem dimension_attribute_original :
    let d : DimensionReplacement := ⟨12, 1⟩
    let P : Display Unit Unit := ⟨fun _ value => value, fun _ => (), fun _ => ()⟩
    let s : Table Unit Unit Unit Unit := Machine.run step {} [.create 0, .initObject 0 none none,
      .setSystemWideReplacement 0x01050001 (some (.other (.dimension d)))]
    ∃ res, s.objects 0 = some res ∧
      let array : BridgeTypedArray := ⟨res, fun _ => 0x01050001⟩
      getDimension.ofResources P (fun _ => none) array.mRes (array.getResourceId 0) s =
          .ok (.replacement (.ok d.mValue)) ∧
        getDimension.ofTypedArray P (fun _ => none) array 0 s = .ok .original := by
  intro d P s
  have hs : Sound s := sound_run _
  have hobject : s.objects 0 = some { mIsObjectInited := true } := rfl
  have hget : getReplacement 0x01050001 { mIsObjectInited := true } s =
      .ok (some (.other (.dimension d))) := by
    rw [hs.getReplacement_eq (hs.wired.objects 0 _ hobject) (by decide)]
    rfl
  exact ⟨_, hobject, congrArg (Except.map (choose _ _)) hget,
    congrArg (Except.map (choose _ _)) hget⟩

end Getter

end Resources

end Dynamicloader
