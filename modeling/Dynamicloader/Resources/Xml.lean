import Mathlib.Data.List.Forall2
import Dynamicloader.Resources.Fake
/-!
# References in the XML files of a module

When a layout of an app is replaced by one of a module, the references in the
compiled file are ids of the module's resources. `rewriteXmlReferencesNative`
walks over the file before it is parsed and puts ids of the app in their place.
The id is that of the app's resource of the same name, or a fake one; a
resource that the module defines is made the replacement of the id, so that
whoever follows the reference gets to the module again.

What becomes of the file does not depend on what has been replaced before
(`rewriteXmlReferences_eq`). An id of the app then leads to the resource of the
last reference to something that the module defines that got it, and other apps
notice nothing (`getReplacement_rewriteXmlReferences`). So the references to what
the module defines keep their meaning if and only if no two of them, to different
resources, get the same id (`references_resolve_iff`). A reference to a mere id,
or to what only the app defines, gets no replacement: there is nothing of the
module to lead back to.

All of it is about the resources of an app, which have a resource directory. The
object of the system has none, and what is replaced through it every app sees.

What the framework knows of resources is a parameter. A compiled file is the
list of its tags with their attributes, and the ids of the attributes' names.
The lookup of a name may throw: the walk then ends, and the rest of the file
stays as it is.
-/

namespace Dynamicloader

namespace Resources

/-! ## The framework -/

/-- `NotFoundException`, or any other exception. -/
inductive Failure where
  | notFound
  | other
  deriving DecidableEq

/-- `TypedValue` -/
structure TypedValue where
  type : JInt
  data : JInt

def TYPE_REFERENCE : UInt8 := 0x01

def TYPE_INT_BOOLEAN : JInt := 0x12

/-- What the framework says of the resources `R` of modules, and of the
identifiers of `origRes` in its own package. There an id is `0`, for none, or
positive: the numbers of packages end with `0x7f`. -/
structure Framework (R : Type) where
  getResourceEntryName : R → JInt → Except Failure JString
  getResourceTypeName : R → JInt → Except Failure JString
  getResourceName : R → JInt → Except Failure JString
  getValue : R → JInt → Except Failure TypedValue
  getIdentifier : JString → JString → Except Failure JInt
  getIdentifier_pos : ∀ {name type id}, getIdentifier name type = .ok id → id = 0 ∨ 0 < id.toInt

/-- `"id"` -/
def idType : JString := [0x69, 0x64]

/-- `"attr"` -/
def attrType : JString := [0x61, 0x74, 0x74, 0x72]

/-- `int x = 0; try { x = …; } catch (NotFoundException ignored) {}` -/
def orZero : Except Failure JInt → Except Failure JInt
  | .error .notFound => .ok 0
  | x => x

/-- `repResDefined` -/
def repResDefined : Except Failure TypedValue → Except Failure Bool
  | .ok tmpValue => .ok !(tmpValue.type == TYPE_INT_BOOLEAN && tmpValue.data == 0)
  | .error .notFound => .ok false
  | .error .other => .error .other

variable {R X : Type} (F : Framework R) (origRes : Res) (repRes : R)

/-- What `translateResId` finds out: the new id, and whether it gets a
replacement. -/
def findOrigResId (id : JInt) : Except Failure (JInt × Bool) := do
  let entryName ← F.getResourceEntryName repRes id
  let entryType ← F.getResourceTypeName repRes id
  let origResId ← orZero (F.getIdentifier entryName entryType)
  let defined ← repResDefined (F.getValue repRes id)
  if !defined && origResId == 0 && entryType != idType then return (0, false)
  let replaced := defined && entryType != idType
  if origResId == 0 then
    let resName ← F.getResourceName repRes id
    return (getFakeResId resName, replaced)
  else return (origResId, replaced)

/-- **`translateResId`.** An exception leaves the id as it is. -/
def translateResId (id : JInt) (s : State R X) : JInt × State R X :=
  match findOrigResId F repRes id with
  | .error _ => (id, s)
  | .ok (origResId, false) => (origResId, s)
  | .ok (origResId, true) =>
    match setReplacement origResId (some (.forwarder repRes id)) (some origRes) s with
    | .error _ => (id, s)
    | .ok s => (origResId, s)

/-- **`translateAttrId`.** -/
def translateAttrId (attrName : JString) : Except Failure JInt :=
  orZero (F.getIdentifier attrName attrType)

/-! ## Compiled files -/

/-- An attribute: the index of its name, and its value. -/
structure Attribute where
  nameID : ℤ
  dataType : UInt8
  data : JInt
  deriving DecidableEq

/-- What the parser comes to: a tag that is opened, or anything else. -/
inductive Node where
  | startTag (attributes : List Attribute)
  | other
  deriving DecidableEq

/-- A compiled file up to its end, or to where it is bad. -/
structure Xml where
  strings : ℕ → JString
  resIds : List JInt
  nodes : List Node

def Node.attributes : Node → List Attribute
  | .startTag attributes => attributes
  | .other => []

def Xml.attributes (xml : Xml) : List Attribute := xml.nodes.flatMap Node.attributes

/-- `dtohl(mResIds[attrNameID]) >= 0x7f000000`, without sign. -/
def isAppName (id : JInt) : Bool := (0x7f000000 : JInt).ule id

/-- The index in `mResIds` of a name that is one of an app. -/
def appName (attr : Attribute) (resIds : List JInt) : Option ℕ :=
  if 0 ≤ attr.nameID then
    match resIds[attr.nameID.toNat]? with
    | some id => if isAppName id then some attr.nameID.toNat else none
    | none => none
  else none

/-- The first half of the loop's body. -/
def rewriteName (strings : ℕ → JString) (attr : Attribute) (resIds : List JInt) :
    Except Failure (List JInt) :=
  match appName attr resIds with
  | none => .ok resIds
  | some attrNameID => do
    let attrResID ← translateAttrId F (strings attrNameID)
    return resIds.set attrNameID attrResID

/-- The value is a reference to a resource of an app; ids are compared with
sign here. -/
def Attribute.isReference (attr : Attribute) : Bool :=
  attr.dataType == TYPE_REFERENCE && !isSystemId attr.data

/-- The second half of the loop's body. -/
def rewriteValue (attr : Attribute) (s : State R X) : Attribute × State R X :=
  if attr.isReference then
    let x := translateResId F origRes repRes attr.data s
    ({ attr with data := x.1 }, x.2)
  else (attr, s)

/-- What the walk changes: the file, the ids of the names and the
replacements. It ends early, where an exception has been thrown. -/
structure Walk (R X α : Type) where
  items : List α
  resIds : List JInt
  state : State R X
  left : Bool

/-- The loop over the attributes of a tag. -/
def rewriteAttributes (strings : ℕ → JString) :
    List Attribute → List JInt → State R X → Walk R X Attribute
  | [], resIds, s => ⟨[], resIds, s, false⟩
  | attr :: attrs, resIds, s =>
    match rewriteName F strings attr resIds with
    | .error _ => ⟨attr :: attrs, resIds, s, true⟩
    | .ok resIds =>
      let x := rewriteValue F origRes repRes attr s
      let w := rewriteAttributes strings attrs resIds x.2
      { w with items := x.1 :: w.items }

/-- The loop over the file. -/
def rewriteNodes (strings : ℕ → JString) :
    List Node → List JInt → State R X → Walk R X Node
  | [], resIds, s => ⟨[], resIds, s, false⟩
  | .other :: nodes, resIds, s =>
    let w := rewriteNodes strings nodes resIds s
    { w with items := .other :: w.items }
  | .startTag attrs :: nodes, resIds, s =>
    let tag := rewriteAttributes F origRes repRes strings attrs resIds s
    if tag.left then ⟨.startTag tag.items :: nodes, tag.resIds, tag.state, true⟩
    else
      let w := rewriteNodes strings nodes tag.resIds tag.state
      { w with items := .startTag tag.items :: w.items }

/-- **`rewriteXmlReferencesNative`.** -/
def rewriteXmlReferences (xml : Xml) (s : State R X) : Xml × State R X :=
  let w := rewriteNodes F origRes repRes xml.strings xml.nodes xml.resIds s
  ({ xml with nodes := w.items, resIds := w.resIds }, w.state)

/-! ## What becomes of an id -/

/-- The id that takes the place of an id of the module. -/
def newId (id : JInt) : JInt :=
  match findOrigResId F repRes id with
  | .error _ => id
  | .ok x => x.1

/-- The module defines the resource, and it is not a mere id: a forwarder to it
is set. -/
def owned (id : JInt) : Bool :=
  match findOrigResId F repRes id with
  | .error _ => false
  | .ok x => x.2

/-- The id that takes the place of that of an attribute's name. -/
def newAttrId (attrName : JString) : JInt :=
  match translateAttrId F attrName with
  | .error _ => 0
  | .ok id => id

/-- A reference to something that the module defines. -/
def Attribute.isOwned (attr : Attribute) : Bool := attr.isReference && owned F repRes attr.data

def Attribute.rewritten (attr : Attribute) : Attribute :=
  if attr.isReference then { attr with data := newId F repRes attr.data } else attr

variable {F origRes repRes} {s s' : State R X} {id x : JInt} {dir : String}
  {owners : JInt → Option JInt}

/-- A new id that gets a replacement is positive. -/
theorem pos_of_findOrigResId (h : findOrigResId F repRes id = .ok (x, true)) : 0 < x.toInt := by
  rw [findOrigResId] at h
  obtain ⟨entryName, -, h⟩ := ok_of_bind h
  obtain ⟨entryType, -, h⟩ := ok_of_bind h
  obtain ⟨origResId, horig, h⟩ := ok_of_bind h
  obtain ⟨defined, -, h⟩ := ok_of_bind h
  split at h
  · cases h
  split at h
  · obtain ⟨resName, -, h⟩ := ok_of_bind h
    obtain ⟨rfl, -⟩ := Prod.mk.inj (Except.ok.inj h)
    exact getFakeResId_positive resName
  · next hne =>
    obtain ⟨rfl, -⟩ := Prod.mk.inj (Except.ok.inj h)
    cases hid : F.getIdentifier entryName entryType with
    | ok y =>
      rw [hid] at horig
      cases horig
      exact (F.getIdentifier_pos hid).resolve_left (by simpa using hne)
    | error e =>
      rw [hid] at horig
      cases e with
      | notFound =>
        cases horig
        exact absurd rfl hne
      | other => cases horig

theorem ne_zero_of_pos (h : 0 < x.toInt) : x ≠ 0 := by
  rintro rfl
  exact absurd h (by decide)

/-- An object of an app among sound tables. -/
structure Ready (origRes : Res) (dir : String) (s : State R X) : Prop where
  sound : Sound s
  wired : origRes.WiredTo s
  resDir : origRes.mResDir = some dir

/-- From one state to another, ids of an app have been forwarded to those of
the module that `owners` has for them. -/
structure Forwarded (repRes : R) (dir : String) (owners : JInt → Option JInt) (s s' : State R X) :
    Prop where
  sound : Sound s'
  objects : s'.objects = s.objects
  cacheMap : s'.sReplacementsCacheMap = s.sReplacementsCacheMap
  entries : ∀ y d, s'.entry y d =
    (if d = some dir then owners y else none).elim (s.entry y d)
      fun id => some (.forwarder repRes id)

theorem Forwarded.refl (h : Sound s) (repRes : R) (dir : String) :
    Forwarded repRes dir (fun _ => none) s s :=
  ⟨h, rfl, rfl, fun y d => by rw [ite_self]; rfl⟩

theorem Forwarded.ready (h : Forwarded repRes dir owners s s') (hs : Ready origRes dir s) :
    Ready origRes dir s' where
  sound := h.sound
  wired := by
    rw [Res.WiredTo, h.cacheMap]
    exact hs.wired
  resDir := hs.resDir

/-- The later forwarding hides the earlier. -/
theorem Forwarded.trans {s'' : State R X} {owners' : JInt → Option JInt}
    (h : Forwarded repRes dir owners s s') (h' : Forwarded repRes dir owners' s' s'') :
    Forwarded repRes dir (fun y => (owners' y).or (owners y)) s s'' where
  sound := h'.sound
  objects := h'.objects.trans h.objects
  cacheMap := h'.cacheMap.trans h.cacheMap
  entries y d := by
    rw [h'.entries, h.entries]
    by_cases hd : d = some dir
    · rw [if_pos hd, if_pos hd, if_pos hd]
      cases owners' y with
      | none => rw [Option.none_or]; rfl
      | some id => rfl
    · rw [if_neg hd, if_neg hd, if_neg hd]
      rfl

/-- **A forwarder is set without fail** for an object of an app. -/
theorem Ready.setReplacement (h : Ready origRes dir s) (hx : x ≠ 0) (repRes : R) (id : JInt) :
    ∃ s', Resources.setReplacement x (some (.forwarder repRes id)) (some origRes) s = .ok s' ∧
      Forwarded repRes dir (fun y => if y = x then some id else none) s s' := by
  have hcheck : checkReplacement x (some (Value.forwarder repRes id : Value R X)) (some dir) =
      .ok () := by
    rw [checkReplacement, if_neg hx, if_neg (by simp)]
    · rfl
    · rintro _ ⟨⟩
  obtain ⟨s₁, hmark⟩ : ∃ s₁, markReplacement x (some origRes) s = .ok s₁ := by
    rw [markReplacement]
    split
    · exact ⟨_, rfl⟩
    · obtain ⟨hnone, -⟩ | ⟨_, ref, -, hcache, -⟩ := h.wired
      · exact absurd (hnone.symm.trans h.resDir) (by simp)
      · rw [Option.bind_some, hcache]
        exact ⟨_, rfl⟩
  have hset : Resources.setReplacement x (some (.forwarder repRes id)) (some origRes) s =
      .ok (putReplacement x (some (.forwarder repRes id)) (some dir) s₁) := by
    simp only [Resources.setReplacement, Option.bind_some, h.resDir, hcheck, hmark]
    rfl
  have hwired : ∀ r, some origRes = some r → r.WiredTo s := by
    rintro _ ⟨⟩
    exact h.wired
  have hsound := h.sound.setReplacement hwired x (some (.forwarder repRes id))
  rw [hset] at hsound
  obtain ⟨hobjects, hrepl, hmap, -⟩ := mark_frame hmark
  refine ⟨_, hset, hsound, hobjects, hmap, fun y d => ?_⟩
  rw [entry_put, State.entry, hrepl]
  by_cases hd : d = some dir
  · by_cases hy : y = x
    · simp [hd, hy]
    · simp [hd, hy, State.entry]
  · simp [hd, State.entry]

/-- **What `translateResId` does** for an object of an app. -/
theorem Ready.translateResId (h : Ready origRes dir s) (F : Framework R) (repRes : R) (id : JInt) :
    (Resources.translateResId F origRes repRes id s).1 = newId F repRes id ∧
      Forwarded repRes dir
        (fun y => if owned F repRes id ∧ y = newId F repRes id then some id else none) s
        (Resources.translateResId F origRes repRes id s).2 := by
  rw [Resources.translateResId, newId, owned]
  cases hfind : findOrigResId F repRes id with
  | error e =>
    simp only [Bool.false_eq_true, false_and, if_false, true_and]
    exact .refl h.sound repRes dir
  | ok y =>
    obtain ⟨x, b⟩ := y
    cases b with
    | false =>
      simp only [Bool.false_eq_true, false_and, if_false, true_and]
      exact .refl h.sound repRes dir
    | true =>
      obtain ⟨s', hset, hforward⟩ :=
        h.setReplacement (ne_zero_of_pos (pos_of_findOrigResId hfind)) repRes id
      simp only [hset, true_and]
      exact hforward

theorem Ready.rewriteValue (h : Ready origRes dir s) (F : Framework R) (repRes : R)
    (attr : Attribute) :
    (Resources.rewriteValue F origRes repRes attr s).1 = attr.rewritten F repRes ∧
      Forwarded repRes dir
        (fun y => if attr.isOwned F repRes ∧ y = newId F repRes attr.data then some attr.data
          else none) s
        (Resources.rewriteValue F origRes repRes attr s).2 := by
  rw [Resources.rewriteValue, Attribute.rewritten, Attribute.isOwned]
  cases attr.isReference with
  | false =>
    simp only [Bool.false_eq_true, Bool.false_and, false_and, if_false, true_and]
    exact .refl h.sound repRes dir
  | true =>
    obtain ⟨hid, hforward⟩ := h.translateResId F repRes attr.data
    exact ⟨by simp [hid], hforward⟩

/-! ## The names -/

variable (F) in
/-- The lookup of the attribute's name does not end the walk. -/
def named (strings : ℕ → JString) (resIds : List JInt) (attr : Attribute) : Bool :=
  (rewriteName F strings attr resIds).toBool

variable (F) in
/-- The ids of the names after the attributes `seen`. -/
def renamed (strings : ℕ → JString) (seen : List Attribute) (resIds : List JInt) : List JInt :=
  resIds.mapIdx fun i id =>
    if isAppName id && seen.any (·.nameID == i) then newAttrId F (strings i) else id

variable {strings : ℕ → JString} {resIds : List JInt} {seen : List Attribute} {attr : Attribute}

theorem getElem?_renamed (i : ℕ) : (renamed F strings seen resIds)[i]? =
    resIds[i]?.map fun id =>
      if isAppName id && seen.any (·.nameID == i) then newAttrId F (strings i) else id := by
  rw [renamed, List.getElem?_mapIdx]

@[simp] theorem renamed_nil : renamed F strings [] resIds = resIds := by
  refine List.ext_getElem? fun i => ?_
  rw [getElem?_renamed]
  simp

theorem appName_eq_some {i : ℕ} : appName attr resIds = some i ↔
    attr.nameID = i ∧ ∃ id, resIds[i]? = some id ∧ isAppName id = true := by
  rw [appName]
  constructor
  · intro h
    split at h
    · next h0 =>
      split at h
      · next id hid =>
        split at h
        · next happ =>
          obtain rfl := Option.some.inj h
          exact ⟨(Int.toNat_of_nonneg h0).symm, id, hid, happ⟩
        · cases h
      · cases h
    · cases h
  · rintro ⟨hname, id, hid, happ⟩
    rw [if_pos (by omega), hname, Int.toNat_natCast, hid]
    exact if_pos happ

/-- The name of an attribute is the same after the others, if it is one of an
app at all; a name that has been seen has a new id. -/
theorem renamed_append (h : appName attr resIds = none) :
    renamed F strings (seen ++ [attr]) resIds = renamed F strings seen resIds := by
  refine List.ext_getElem? fun i => ?_
  rw [getElem?_renamed, getElem?_renamed]
  cases hid : resIds[i]? with
  | none => rfl
  | some id =>
    have hne : (isAppName id && attr.nameID == (i : ℤ)) = false := by
      rw [Bool.eq_false_iff]
      intro hboth
      rw [Bool.and_eq_true, beq_iff_eq] at hboth
      rw [appName_eq_some.2 ⟨hboth.2, id, hid, hboth.1⟩] at h
      cases h
    rw [Option.map_some, Option.map_some, List.any_append, Bool.and_or_distrib_left]
    simp only [List.any_cons, List.any_nil, Bool.or_false, hne]

theorem renamed_append_some {i : ℕ} (h : appName attr resIds = some i) :
    renamed F strings (seen ++ [attr]) resIds =
      (renamed F strings seen resIds).set i (newAttrId F (strings i)) := by
  obtain ⟨hname, id, hid, happ⟩ := appName_eq_some.1 h
  refine List.ext_getElem? fun j => ?_
  rw [List.getElem?_set, getElem?_renamed, getElem?_renamed]
  by_cases hij : i = j
  · subst hij
    rw [if_pos rfl, hid, if_pos (by
      rw [renamed, List.length_mapIdx]
      exact (List.getElem?_eq_some_iff.1 hid).1)]
    simp [happ, hname]
  · have hne : (attr.nameID == (j : ℤ)) = false := by
      rw [hname]
      simpa using hij
    rw [if_neg hij]
    simp [hne]

theorem appName_renamed (h : appName attr resIds = none) :
    appName attr (renamed F strings seen resIds) = none := by
  refine Option.eq_none_iff_forall_ne_some.2 fun i hi => ?_
  obtain ⟨hname, id, hid, happ⟩ := appName_eq_some.1 hi
  rw [getElem?_renamed, Option.map_eq_some_iff] at hid
  obtain ⟨id₀, hid₀, rfl⟩ := hid
  have hnone : isAppName id₀ = false := by
    rw [Bool.eq_false_iff]
    intro happ₀
    rw [appName_eq_some.2 ⟨hname, id₀, hid₀, happ₀⟩] at h
    cases h
  rw [hnone, Bool.false_and, if_neg Bool.false_ne_true, hnone] at happ
  cases happ

/-- A name of an app is still one, or it has been seen and has its new id. -/
theorem appName_renamed_some (F : Framework R) (strings : ℕ → JString) (seen : List Attribute)
    {i : ℕ} (h : appName attr resIds = some i) :
    appName attr (renamed F strings seen resIds) = some i ∨
      appName attr (renamed F strings seen resIds) = none ∧
      (renamed F strings seen resIds)[i]? = some (newAttrId F (strings i)) := by
  obtain ⟨hname, id, hid, happ⟩ := appName_eq_some.1 h
  have hget : (renamed F strings seen resIds)[i]? =
      some (if seen.any (·.nameID == i) then newAttrId F (strings i) else id) := by
    rw [getElem?_renamed, hid, Option.map_some, happ, Bool.true_and]
  cases hafter : appName attr (renamed F strings seen resIds) with
  | some j =>
    obtain ⟨hj, -⟩ := appName_eq_some.1 hafter
    exact .inl (by rw [Option.some.injEq]; omega)
  | none =>
    refine .inr ⟨rfl, ?_⟩
    split at hget
    · exact hget
    · rw [appName_eq_some.2 ⟨hname, id, hget, happ⟩] at hafter
      cases hafter

theorem named_eq {i : ℕ} (h : appName attr resIds = some i) :
    named F strings resIds attr = (translateAttrId F (strings i)).toBool := by
  rw [named, rewriteName, h]
  dsimp only
  cases translateAttrId F (strings i) with
  | error e => rfl
  | ok y => rfl

/-- **A name is looked up with one result**, whichever names came before. -/
theorem rewriteName_renamed (h : named F strings resIds attr) :
    rewriteName F strings attr (renamed F strings seen resIds) =
      .ok (renamed F strings (seen ++ [attr]) resIds) := by
  rw [rewriteName]
  cases happ : appName attr resIds with
  | none => rw [appName_renamed happ, renamed_append happ]
  | some i =>
    rw [renamed_append_some happ]
    cases htr : translateAttrId F (strings i) with
    | error e =>
      rw [named_eq happ, htr] at h
      cases h
    | ok y =>
      have hy : newAttrId F (strings i) = y := by rw [newAttrId, htr]
      obtain hafter | ⟨hafter, hget⟩ := appName_renamed_some F strings seen happ
      · rw [hafter, hy]
        dsimp only
        rw [htr]
        rfl
      · obtain ⟨hlt, hget⟩ := List.getElem?_eq_some_iff.1 hget
        rw [hafter, ← hget, List.set_getElem_self]

/-- A lookup that fails has not been tried before. -/
theorem rewriteName_renamed_error (hseen : ∀ a ∈ seen, named F strings resIds a)
    (h : ¬ named F strings resIds attr) :
    ∃ e, rewriteName F strings attr (renamed F strings seen resIds) = .error e := by
  cases happ : appName attr resIds with
  | none =>
    rw [named, rewriteName, happ] at h
    exact absurd rfl h
  | some i =>
    obtain ⟨hname, id, hid, hid'⟩ := appName_eq_some.1 happ
    have hnew : seen.any (·.nameID == (i : ℤ)) = false := by
      rw [List.any_eq_false]
      intro a ha hai
      have ha' : appName a resIds = some i :=
        appName_eq_some.2 ⟨beq_iff_eq.1 hai, id, hid, hid'⟩
      exact h ((named_eq happ).trans ((named_eq ha').symm.trans (hseen a ha)))
    have hafter : appName attr (renamed F strings seen resIds) = some i := by
      refine appName_eq_some.2 ⟨hname, id, ?_, hid'⟩
      rw [getElem?_renamed, hid, Option.map_some, hnew, Bool.and_false]
      rfl
    rw [named_eq happ] at h
    rw [rewriteName, hafter]
    cases htr : translateAttrId F (strings i) with
    | error e =>
      dsimp only
      rw [htr]
      exact ⟨e, rfl⟩
    | ok y =>
      rw [htr] at h
      exact absurd rfl h

/-! ## The walk -/

variable (F repRes) in
/-- The last reference among the attributes that gives the id a replacement. -/
def lastOwner (y : JInt) : List Attribute → Option JInt
  | [] => none
  | a :: attrs => (lastOwner y attrs).or
      (if a.isOwned F repRes ∧ y = newId F repRes a.data then some a.data else none)

/-- The walk over the attributes, up to one whose name ends it. -/
theorem Ready.rewriteAttributes (h : Ready origRes dir s) (F : Framework R) (repRes : R)
    (hseen : ∀ a ∈ seen, named F strings resIds a) (attrs : List Attribute) :
    let w := Resources.rewriteAttributes F origRes repRes strings attrs
      (renamed F strings seen resIds) s
    let visited := attrs.takeWhile (named F strings resIds)
    w.resIds = renamed F strings (seen ++ visited) resIds ∧
      w.items = visited.map (Attribute.rewritten F repRes) ++ attrs.drop visited.length ∧
      Forwarded repRes dir (lastOwner F repRes · visited) s w.state := by
  induction attrs generalizing s seen with
  | nil => exact ⟨by simp [Resources.rewriteAttributes], rfl, .refl h.sound repRes dir⟩
  | cons a attrs ih =>
    by_cases hname : named F strings resIds a
    · obtain ⟨hitem, hforward⟩ := h.rewriteValue F repRes a
      have hseen' : ∀ b ∈ seen ++ [a], named F strings resIds b := by
        intro b hb
        obtain hb | rfl := List.mem_append.1 hb |>.imp_right List.mem_singleton.1
        · exact hseen b hb
        · exact hname
      obtain ⟨hids, hitems, hforward'⟩ := ih (hforward.ready h) hseen'
      rw [Resources.rewriteAttributes, rewriteName_renamed hname, List.takeWhile_cons_of_pos hname]
      refine ⟨by simpa using hids, ?_, hforward.trans hforward'⟩
      simp only [hitem, hitems, List.map_cons, List.cons_append, List.length_cons,
        List.drop_succ_cons]
    · obtain ⟨e, he⟩ := rewriteName_renamed_error hseen hname
      rw [Resources.rewriteAttributes, he, List.takeWhile_cons_of_neg hname]
      exact ⟨by simp, rfl, .refl h.sound repRes dir⟩

/-! ## The file as one list of attributes -/

theorem rewriteAttributes_append (attrs more : List Attribute) (resIds : List JInt)
    (s : State R X) :
    rewriteAttributes F origRes repRes strings (attrs ++ more) resIds s =
      let w := rewriteAttributes F origRes repRes strings attrs resIds s
      if w.left then { w with items := w.items ++ more }
      else
        let v := rewriteAttributes F origRes repRes strings more w.resIds w.state
        { v with items := w.items ++ v.items } := by
  induction attrs generalizing resIds s with
  | nil => rfl
  | cons a attrs ih =>
    rw [List.cons_append, rewriteAttributes, rewriteAttributes]
    cases rewriteName F strings a resIds with
    | error e => rfl
    | ok ids =>
      dsimp only
      rw [ih]
      dsimp only
      split
      · rfl
      · rfl

/-- The same tag, or the same other thing, with as many attributes. -/
inductive Node.Alike : Node → Node → Prop where
  | startTag {attrs attrs' : List Attribute} (h : attrs'.length = attrs.length) :
      Alike (.startTag attrs') (.startTag attrs)
  | other : Alike .other .other

theorem Node.Alike.refl : (node : Node) → node.Alike node
  | .startTag _ => .startTag rfl
  | .other => .other

theorem length_rewriteAttributes (F : Framework R) (origRes : Res) (repRes : R)
    (strings : ℕ → JString) (attrs : List Attribute) (resIds : List JInt) (s : State R X) :
    (rewriteAttributes F origRes repRes strings attrs resIds s).items.length = attrs.length := by
  induction attrs generalizing resIds s with
  | nil => rfl
  | cons a attrs ih =>
    rw [rewriteAttributes]
    cases rewriteName F strings a resIds with
    | error e => rfl
    | ok ids => exact congrArg (· + 1) (ih ids _)

/-- **The tags do not matter to the walk**: it is that over all attributes. -/
theorem rewriteNodes_eq (F : Framework R) (origRes : Res) (repRes : R) (strings : ℕ → JString)
    (nodes : List Node) (resIds : List JInt) (s : State R X) :
    let w := rewriteNodes F origRes repRes strings nodes resIds s
    List.Forall₂ Node.Alike w.items nodes ∧
      rewriteAttributes F origRes repRes strings (nodes.flatMap Node.attributes) resIds s =
        ⟨w.items.flatMap Node.attributes, w.resIds, w.state, w.left⟩ := by
  induction nodes generalizing resIds s with
  | nil => exact ⟨.nil, rfl⟩
  | cons node nodes ih =>
    cases node with
    | other =>
      obtain ⟨halike, heq⟩ := ih resIds s
      exact ⟨.cons .other halike, heq⟩
    | startTag attrs =>
      have hlength := length_rewriteAttributes F origRes repRes strings attrs resIds s
      rw [List.flatMap_cons, Node.attributes, rewriteAttributes_append]
      simp only [rewriteNodes]
      generalize rewriteAttributes F origRes repRes strings attrs resIds s = tag at hlength ⊢
      by_cases hleft : tag.left
      · rw [if_pos hleft, if_pos hleft]
        refine ⟨.cons (.startTag hlength) (List.forall₂_same.2 fun n _ => .refl n), ?_⟩
        rw [hleft, List.flatMap_cons, Node.attributes]
      · obtain ⟨halike, heq⟩ := ih tag.resIds tag.state
        rw [if_neg hleft, if_neg hleft]
        refine ⟨.cons (.startTag hlength) halike, ?_⟩
        rw [heq, List.flatMap_cons, Node.attributes]

variable (F) in
/-- The attributes that the walk comes to. -/
def Xml.visited (xml : Xml) : List Attribute :=
  xml.attributes.takeWhile (named F xml.strings xml.resIds)

/-- The file after the walk, and the replacements. -/
theorem Ready.rewriteXmlReferences (h : Ready origRes dir s) (F : Framework R) (repRes : R)
    (xml : Xml) :
    let x := Resources.rewriteXmlReferences F origRes repRes xml s
    List.Forall₂ Node.Alike x.1.nodes xml.nodes ∧
      x.1.resIds = renamed F xml.strings (xml.visited F) xml.resIds ∧
      x.1.attributes = (xml.visited F).map (Attribute.rewritten F repRes) ++
        xml.attributes.drop (xml.visited F).length ∧
      Forwarded repRes dir (lastOwner F repRes · (xml.visited F)) s x.2 := by
  have hnil : ∀ a ∈ ([] : List Attribute), named F xml.strings xml.resIds a := by
    intro a ha
    cases ha
  obtain ⟨halike, heq⟩ := rewriteNodes_eq F origRes repRes xml.strings xml.nodes xml.resIds s
  obtain ⟨hids, hitems, hforward⟩ := h.rewriteAttributes F repRes hnil xml.attributes
  rw [renamed_nil] at hids hitems hforward
  rw [Xml.attributes, heq] at hids hitems hforward
  exact ⟨halike, hids, hitems, hforward⟩

/-- The object of an app in a reachable state. -/
theorem ready_run {es : List (Event R X)} {i : ℕ}
    (hi : (Machine.run step ({} : State R X) es).objects i = some origRes)
    (hdir : origRes.mResDir = some dir) :
    Ready origRes dir (Machine.run step ({} : State R X) es) :=
  ⟨sound_run es, (sound_run es).wired.objects i origRes hi, hdir⟩

/-! ## What lookups then find -/

/-- The lookup of an object after the forwarding. -/
theorem Forwarded.getReplacement (h : Forwarded repRes dir owners s s') (hs : Sound s)
    (howners : ∀ y, (owners y).isSome → 0 < y.toInt) {j : ℕ} {res : Res}
    (hj : s.objects j = some res) (y : JInt) :
    Resources.getReplacement y res s' =
      (if res.mResDir = some dir then owners y else none).elim (Resources.getReplacement y res s)
        fun id => .ok (some (.forwarder repRes id)) := by
  cases hy : y.sle 0 with
  | true =>
    have hnone : owners y = none := by
      refine Option.not_isSome_iff_eq_none.1 fun hsome => ?_
      rw [sle_zero_eq_false (howners y hsome)] at hy
      cases hy
    rw [hnone, ite_self, Option.elim_none]
    simp only [Resources.getReplacement, hy, if_true]
  | false =>
    have hres := hs.wired.objects j res hj
    have hres' := h.sound.wired.objects j res (h.objects ▸ hj)
    rw [h.sound.getReplacement_eq hres' hy, hs.getReplacement_eq hres hy, lookup_eq, lookup_eq,
      h.entries, h.entries, if_neg (by simp : ¬ none = some dir), Option.elim_none]
    cases (if res.mResDir = some dir then owners y else none) with
    | none => rfl
    | some id => rfl

theorem lastOwner_eq_some {y id : JInt} {attrs : List Attribute}
    (h : lastOwner F repRes y attrs = some id) :
    ∃ a ∈ attrs, a.isOwned F repRes ∧ y = newId F repRes a.data ∧ a.data = id := by
  induction attrs with
  | nil => cases h
  | cons a attrs ih =>
    rw [lastOwner, Option.or_eq_some_iff] at h
    obtain h | ⟨-, h⟩ := h
    · obtain ⟨b, hb, hrest⟩ := ih h
      exact ⟨b, List.mem_cons_of_mem a hb, hrest⟩
    · split at h
      · next hown =>
        exact ⟨a, List.mem_cons_self, hown.1, hown.2, Option.some.inj h⟩
      · cases h

theorem isSome_lastOwner {a : Attribute} {attrs : List Attribute} (ha : a ∈ attrs)
    (hown : a.isOwned F repRes) : (lastOwner F repRes (newId F repRes a.data) attrs).isSome := by
  induction attrs with
  | nil => cases ha
  | cons b attrs ih =>
    rw [lastOwner, Option.isSome_or, Bool.or_eq_true]
    obtain rfl | ha := List.mem_cons.1 ha
    · exact .inr (by rw [if_pos ⟨hown, rfl⟩]; rfl)
    · exact .inl (ih ha)

theorem lastOwner_pos {y : JInt} {attrs : List Attribute}
    (h : (lastOwner F repRes y attrs).isSome) : 0 < y.toInt := by
  obtain ⟨id, hid⟩ := Option.isSome_iff_exists.1 h
  obtain ⟨a, -, hown, rfl, -⟩ := lastOwner_eq_some hid
  rw [Attribute.isOwned, Bool.and_eq_true, owned] at hown
  rw [newId]
  cases hfind : findOrigResId F repRes a.data with
  | error e =>
    rw [hfind] at hown
    cases hown.2
  | ok x =>
    rw [hfind] at hown
    exact pos_of_findOrigResId (hfind.trans (by rw [← hown.2]))

/-- A module whose first resource has the name of one of the app's. -/
def twoStrings : Framework Unit where
  getResourceEntryName _ id := .ok [id.setWidth 16]
  getResourceTypeName _ _ := .ok [0x73]
  getResourceName _ id := .ok [id.setWidth 16]
  getValue _ id := .ok ⟨3, id⟩
  getIdentifier name _ := .ok (if name = [1] then 0x7f010001 else 0)
  getIdentifier_pos h := by
    obtain rfl := Except.ok.inj h
    split
    · exact .inr (by decide)
    · exact .inl rfl

/-- A tag with references to both resources, in front of an end. -/
def label : Xml where
  strings _ := [1]
  resIds := [0x7f040000, 0x01010000]
  nodes := [.startTag [⟨0, TYPE_REFERENCE, 0x7f020001⟩, ⟨1, TYPE_REFERENCE, 0x7f020002⟩], .other]

/-- **The file after the walk.** For the resources of an app, which have a
directory: every reference that the walk came to has its new id and every app's
name among them has its new id; nothing else has changed, and it is the same
whatever has been replaced before. -/
theorem rewriteXmlReferences_eq (F : Framework R) (repRes : R) (xml : Xml)
    (es : List (Event R X)) {i : ℕ} {origRes : Res} {dir : String}
    (hi : (Machine.run step ({} : State R X) es).objects i = some origRes)
    (hdir : origRes.mResDir = some dir) :
    let xml' := (rewriteXmlReferences F origRes repRes xml (Machine.run step {} es)).1
    List.Forall₂ Node.Alike xml'.nodes xml.nodes ∧
      xml'.attributes = (xml.visited F).map (Attribute.rewritten F repRes) ++
        xml.attributes.drop (xml.visited F).length ∧
      ∀ k : ℕ, xml'.resIds[k]? = xml.resIds[k]?.map fun id =>
        if isAppName id && (xml.visited F).any (·.nameID == k) then newAttrId F (xml.strings k)
        else id := by
  obtain ⟨halike, hids, hattrs, -⟩ := (ready_run hi hdir).rewriteXmlReferences F repRes xml
  refine ⟨halike, hattrs, fun k => ?_⟩
  rw [hids, getElem?_renamed]

/-- Both references and one of the names have new ids. -/
theorem rewriteXmlReferences_label :
    let s := Machine.run step ({} : State Unit Unit)
      [.create 0, .initObject 0 (some "base.apk") (some "app")]
    let origRes : Res := ⟨some "base.apk", some 0, true⟩
    let xml' := (rewriteXmlReferences twoStrings origRes () label s).1
    xml'.attributes = [⟨0, TYPE_REFERENCE, 0x7f010001⟩, ⟨1, TYPE_REFERENCE, 0x7e000002⟩] ∧
      xml'.resIds[0]? = some 0x7f010001 ∧ xml'.resIds[1]? = some 0x01010000 := by
  intro s origRes
  have hi : s.objects 0 = some origRes := rfl
  obtain ⟨-, hattrs, hids⟩ := rewriteXmlReferences_eq twoStrings () label _ hi rfl
  exact ⟨hattrs.trans (by decide), (hids 0).trans (by decide), (hids 1).trans (by decide)⟩

/-- **What every object finds after the walk.** For the app, an id that
references to what the module defines got leads to the resource of the last of
them that the walk came to; any other id, and any id for another app, has what it
had. -/
theorem getReplacement_rewriteXmlReferences (F : Framework R) (repRes : R) (xml : Xml)
    (es : List (Event R X)) {i j : ℕ} {origRes res : Res} {dir : String}
    (hi : (Machine.run step ({} : State R X) es).objects i = some origRes)
    (hdir : origRes.mResDir = some dir)
    (hj : (Machine.run step ({} : State R X) es).objects j = some res) (y : JInt) :
    getReplacement y res (rewriteXmlReferences F origRes repRes xml (Machine.run step {} es)).2 =
      (if res.mResDir = some dir then lastOwner F repRes y (xml.visited F) else none).elim
        (getReplacement y res (Machine.run step {} es))
        fun id => .ok (some (.forwarder repRes id)) := by
  obtain ⟨-, -, -, hforward⟩ := (ready_run hi hdir).rewriteXmlReferences F repRes xml
  exact hforward.getReplacement (sound_run es) (fun _ => lastOwner_pos) hj y

/-- The app finds the module's string, another app does not. -/
theorem getReplacement_label :
    let s := Machine.run step ({} : State Unit Unit)
      [.create 0, .initObject 0 (some "base.apk") (some "app"),
        .create 1, .initObject 1 (some "other.apk") (some "other")]
    let origRes : Res := ⟨some "base.apk", some 0, true⟩
    let res : Res := ⟨some "other.apk", some 1, true⟩
    let s' := (rewriteXmlReferences twoStrings origRes () label s).2
    getReplacement 0x7f010001 origRes s' = .ok (some (.forwarder () 0x7f020001)) ∧
      getReplacement 0x7f010001 res s' = .ok none := by
  intro s origRes res s'
  have hi : s.objects 0 = some origRes := rfl
  have hj : s.objects 1 = some res := rfl
  have hfind := getReplacement_rewriteXmlReferences twoStrings () label _ hi rfl hi 0x7f010001
  have hother := getReplacement_rewriteXmlReferences twoStrings () label _ hi rfl hj 0x7f010001
  have howner : lastOwner twoStrings () 0x7f010001 (label.visited twoStrings) =
      some 0x7f020001 := by decide
  rw [if_pos rfl, howner] at hfind
  rw [if_neg (by decide)] at hother
  exact ⟨hfind, hother.trans rfl⟩

/-- **The references to what the module defines keep their meaning if and only if
no two of them, to different resources, get one id.** Both sides are about those
that the walk came to. -/
theorem references_resolve_iff (F : Framework R) (repRes : R) (xml : Xml)
    (es : List (Event R X)) {i : ℕ} {origRes : Res} {dir : String}
    (hi : (Machine.run step ({} : State R X) es).objects i = some origRes)
    (hdir : origRes.mResDir = some dir) :
    let x := rewriteXmlReferences F origRes repRes xml (Machine.run step {} es)
    (∀ (k : ℕ) (a a' : Attribute), (xml.visited F)[k]? = some a → x.1.attributes[k]? = some a' →
        a.isOwned F repRes →
        getReplacement a'.data origRes x.2 = .ok (some (.forwarder repRes a.data))) ↔
      ∀ a ∈ xml.visited F, ∀ b ∈ xml.visited F, a.isOwned F repRes → b.isOwned F repRes →
        newId F repRes a.data = newId F repRes b.data → a.data = b.data := by
  intro x
  obtain ⟨-, -, hattrs, hforward⟩ := (ready_run hi hdir).rewriteXmlReferences F repRes xml
  have hfind (y : JInt) := hforward.getReplacement (sound_run es) (fun _ => lastOwner_pos) hi y
  simp only [hdir, if_true] at hfind
  have hat {k : ℕ} {a : Attribute} (hk : (xml.visited F)[k]? = some a) :
      x.1.attributes[k]? = some (a.rewritten F repRes) := by
    have hlt := (List.getElem?_eq_some_iff.1 hk).1
    rw [hattrs, List.getElem?_append_left (by rwa [List.length_map]), List.getElem?_map, hk]
    rfl
  have hdata {a : Attribute} (hown : a.isOwned F repRes) :
      (a.rewritten F repRes).data = newId F repRes a.data := by
    rw [Attribute.isOwned, Bool.and_eq_true] at hown
    rw [Attribute.rewritten, if_pos hown.1]
  constructor
  · intro hresolve a ha b hb hown hown' hid
    obtain ⟨k, hk⟩ := List.mem_iff_getElem?.1 ha
    obtain ⟨l, hl⟩ := List.mem_iff_getElem?.1 hb
    have hra := hresolve k a _ hk (hat hk) hown
    have hrb := hresolve l b _ hl (hat hl) hown'
    rw [hdata hown, hid, ← hdata hown', hrb] at hra
    simpa using hra.symm
  · intro hinj k a a' hk hk' hown
    obtain rfl := Option.some.inj (hk'.symm.trans (hat hk))
    have ha := List.mem_of_getElem? hk
    rw [hdata hown, hfind]
    obtain ⟨id, hid⟩ := Option.isSome_iff_exists.1 (isSome_lastOwner ha hown)
    obtain ⟨b, hb, hown', heq, rfl⟩ := lastOwner_eq_some hid
    rw [hid, hinj a ha b hb hown hown' heq]
    rfl

/-- The second of the references gets a fake id and leads to the module. -/
theorem references_resolve_label :
    let s := Machine.run step ({} : State Unit Unit)
      [.create 0, .initObject 0 (some "base.apk") (some "app")]
    let origRes : Res := ⟨some "base.apk", some 0, true⟩
    getReplacement 0x7e000002 origRes (rewriteXmlReferences twoStrings origRes () label s).2 =
      .ok (some (.forwarder () 0x7f020002)) := by
  intro s origRes
  have hi : s.objects 0 = some origRes := rfl
  have hresolve := (references_resolve_iff twoStrings () label _ hi rfl).2 (by decide)
  exact hresolve 1 ⟨1, TYPE_REFERENCE, 0x7f020002⟩ ⟨1, TYPE_REFERENCE, 0x7e000002⟩ (by decide)
    (by decide) (by decide)

end Resources

end Dynamicloader
