import Mathlib.Data.Int.Notation
import Mathlib.Logic.Function.Basic
/-!
# Helpers — members found by reflection

`BridgeHelpers` finds fields, methods and constructors by reflection and
keeps what it finds, and what it does not find, in three maps. Their keys
are texts: of the class's name, the member's name and the canonical names
of the parameter types.

The classes of the process are any type `C`, so that two of them may have
one name. What they declare is what the runtime answers; a `Found` is one
answer of a search. Whether types can be assigned and which of two lists of
types is closer to a third is decided in the library `lang3` and is open
here.
-/

namespace Dynamicloader

namespace Helpers

/-! ## The runtime -/

structure Field (C : Type) where
  declaringClass : C
  name : String
  deriving DecidableEq

structure Method (C : Type) where
  declaringClass : C
  name : String
  parameterTypes : List C
  isPrivate : Bool
  deriving DecidableEq

structure Constructor (C : Type) where
  declaringClass : C
  parameterTypes : List C
  deriving DecidableEq

/-- What a search yields: a member, a `NoSuchFieldException` or
`NoSuchMethodException`, or another throwable. -/
inductive Found (α : Type) where
  | member (m : α)
  | noSuch
  | throws (t : String)
  deriving DecidableEq

/-- **The classes of a process.** A type that is not known is `none`. -/
structure Runtime (C : Type) where
  getName : C → String
  /-- `none` for a local or anonymous class -/
  getCanonicalName : C → Option String
  /-- `Object.class` -/
  objectClass : C
  /-- what `getSuperclass()` returns, one after the other -/
  superclasses : C → List C
  getDeclaredField : C → String → Found (Field C)
  getDeclaredMethod : C → String → List (Option C) → Found (Method C)
  getDeclaredConstructor : C → List (Option C) → Found (Constructor C)
  getDeclaredMethods : C → List (Method C)
  getDeclaredConstructors : C → List (Constructor C)
  /-- `ClassUtils.isAssignable(types, to, true)` -/
  isAssignable : List (Option C) → List C → Bool
  /-- `MemberUtils.compareParameterTypes(left, right, actual)` -/
  compareParameterTypes : List C → List C → List (Option C) → ℤ

/-- What a call throws. -/
inductive Failure where
  | noSuchFieldError (text : String)
  | noSuchMethodError (text : String)
  | nullPointer
  | arrayIndexOutOfBounds
  | other (text : String)
  deriving DecidableEq

/-- A `HashMap` from texts; a value may be null. -/
abbrev NameMap (α : Type) := String → Option (Option α)

structure Caches (C : Type) where
  fieldCache : NameMap (Field C)
  methodCache : NameMap (Method C)
  constructorCache : NameMap (Constructor C)

/-- The maps when the class is initialised. -/
def Caches.empty {C : Type} : Caches C := ⟨fun _ => none, fun _ => none, fun _ => none⟩

variable {C : Type} (r : Runtime C)

/-! ## Keys -/

/-- A type in a list of parameters. A canonical name that is null is appended as such. -/
def typeText : Option C → String
  | some c => (r.getCanonicalName c).getD "null"
  | none => "null"

def getParametersString (types : List (Option C)) : String :=
  "(" ++ ",".intercalate (types.map (typeText r)) ++ ")"

def fullFieldName (c : C) (fieldName : String) : String := r.getName c ++ "#" ++ fieldName

/-- The key of a method; `kind` is `#exact` or `#bestmatch`. -/
def fullMethodName (kind : String) (c : C) (methodName : String) (types : List (Option C)) :
    String :=
  r.getName c ++ "#" ++ methodName ++ getParametersString r types ++ kind

def fullConstructorName (kind : String) (c : C) (types : List (Option C)) : String :=
  r.getName c ++ getParametersString r types ++ kind

/-! ## Exact members -/

/-- What the three exact lookups do with their map: answer from it, or search and
keep a member or null. Any other throwable leaves it as it is. -/
def searchCached {α : Type} (error : String → Failure) (key : String) (search : Found α)
    (cache : NameMap α) : Except Failure α × NameMap α :=
  match cache key with
  | some (some m) => (.ok m, cache)
  | some none => (.error (error key), cache)
  | none =>
    match search with
    | .member m => (.ok m, Function.update cache key (some (some m)))
    | .noSuch => (.error (error key), Function.update cache key (some none))
    | .throws t => (.error (.other t), cache)

section Fields

variable [DecidableEq C]

/-- The loop of `findFieldRecursiveImpl` over the superclasses, up to `Object`. -/
def findInherited (fieldName : String) : List C → Found (Field C)
  | [] => .noSuch
  | clazz :: rest =>
    if clazz = r.objectClass then .noSuch
    else
      match r.getDeclaredField clazz fieldName with
      | .noSuch => findInherited fieldName rest
      | found => found

def findFieldRecursiveImpl (c : C) (fieldName : String) : Found (Field C) :=
  match r.getDeclaredField c fieldName with
  | .noSuch => findInherited r fieldName (r.superclasses c)
  | found => found

def findField (c : C) (fieldName : String) (s : Caches C) :
    Except Failure (Field C) × Caches C :=
  let (answer, cache) := searchCached .noSuchFieldError
    (fullFieldName r c fieldName) (findFieldRecursiveImpl r c fieldName) s.fieldCache
  (answer, { s with fieldCache := cache })

end Fields

def findMethodExact (c : C) (methodName : String) (types : List (Option C)) (s : Caches C) :
    Except Failure (Method C) × Caches C :=
  let (answer, cache) := searchCached .noSuchMethodError
    (fullMethodName r "#exact" c methodName types) (r.getDeclaredMethod c methodName types)
    s.methodCache
  (answer, { s with methodCache := cache })

def findConstructorExact (c : C) (types : List (Option C)) (s : Caches C) :
    Except Failure (Constructor C) × Caches C :=
  let (answer, cache) := searchCached .noSuchMethodError
    (fullConstructorName r "#exact" c types) (r.getDeclaredConstructor c types) s.constructorCache
  (answer, { s with constructorCache := cache })

/-! ## Best matches -/

/-- The member that is kept of `bestMatch` and the next one. -/
def closer {α : Type} (parameterTypes : α → List C) (types : List (Option C))
    (bestMatch : Option α) (m : α) : Option α :=
  if r.isAssignable types (parameterTypes m) then
    match bestMatch with
    | none => some m
    | some b =>
      if r.compareParameterTypes (parameterTypes m) (parameterTypes b) types < 0 then some m
      else bestMatch
  else bestMatch

/-- One round of the loop over the methods of a class. -/
def considerMethod (methodName : String) (types : List (Option C)) (considerPrivateMethods : Bool)
    (bestMatch : Option (Method C)) (m : Method C) : Option (Method C) :=
  if !considerPrivateMethods && m.isPrivate then bestMatch
  else if m.name = methodName then closer r Method.parameterTypes types bestMatch m
  else bestMatch

/-- The two loops of `findMethodBestMatch`. Private methods of superclasses are not
considered. -/
def bestMethod (c : C) (methodName : String) (types : List (Option C)) : Option (Method C) :=
  let own := (r.getDeclaredMethods c).foldl (considerMethod r methodName types true) none
  (r.superclasses c).foldl
    (fun bestMatch clz =>
      (r.getDeclaredMethods clz).foldl (considerMethod r methodName types false) bestMatch) own

def bestConstructor (c : C) (types : List (Option C)) : Option (Constructor C) :=
  (r.getDeclaredConstructors c).foldl (closer r Constructor.parameterTypes types) none

/-- **`findMethodBestMatch`** -/
def findMethodBestMatch (c : C) (methodName : String) (types : List (Option C)) (s : Caches C) :
    Except Failure (Method C) × Caches C :=
  let key := fullMethodName r "#bestmatch" c methodName types
  let put (m : Option (Method C)) (s : Caches C) : Caches C :=
    { s with methodCache := Function.update s.methodCache key (some m) }
  match s.methodCache key with
  | some (some m) => (.ok m, s)
  | some none => (.error (.noSuchMethodError key), s)
  | none =>
    match findMethodExact r c methodName types s with
    | (.ok m, s) => (.ok m, put (some m) s)
    | (.error (.noSuchMethodError _), s) =>
      match bestMethod r c methodName types with
      | some m => (.ok m, put (some m) s)
      | none => (.error (.noSuchMethodError key), put none s)
    | (.error e, s) => (.error e, s)

/-- **`findConstructorBestMatch`** -/
def findConstructorBestMatch (c : C) (types : List (Option C)) (s : Caches C) :
    Except Failure (Constructor C) × Caches C :=
  let key := fullConstructorName r "#bestmatch" c types
  let put (m : Option (Constructor C)) (s : Caches C) : Caches C :=
    { s with constructorCache := Function.update s.constructorCache key (some m) }
  match s.constructorCache key with
  | some (some m) => (.ok m, s)
  | some none => (.error (.noSuchMethodError key), s)
  | none =>
    match findConstructorExact r c types s with
    | (.ok m, s) => (.ok m, put (some m) s)
    | (.error (.noSuchMethodError _), s) =>
      match bestConstructor r c types with
      | some m => (.ok m, put (some m) s)
      | none => (.error (.noSuchMethodError key), put none s)
    | (.error e, s) => (.error e, s)

end Helpers

end Dynamicloader
