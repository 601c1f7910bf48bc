import Dynamicloader.Common.Machine
import Dynamicloader.Common.Nested
import Dynamicloader.Bridge.SortedSet
import Dynamicloader.Resources.Model
/-!
# BridgeResources — hooked layouts

`hookLayout` registers a callback for a layout id, for the directory of an
object or, with `hookSystemWideLayout`, for all of them under `null`.
`getLayout` looks the callbacks up and attaches them, with what else the
hooks of `LayoutInflater` need, to the parser it returns.

The names of a resource are what a `Resources` object says of its id. They
are put into `sResourceNames` when a layout is hooked, and nothing is
attached to a layout that has no names there.
-/

namespace Dynamicloader

namespace Layouts

open Resources (JInt Throwable Res isSystemId)
open Bridge (ArraySort CopyOnWriteSortedSet)

/-! ## Names -/

/-- `BridgeResources.ResourceNames`. -/
structure ResourceNames where
  id : JInt
  pkg : String
  name : String
  type : String
  fullName : String
  deriving DecidableEq

/-- Its constructor. -/
def ResourceNames.new (id : JInt) (pkg name type : String) : ResourceNames :=
  { id, pkg, name, type, fullName := pkg ++ ":" ++ type ++ "/" ++ name }

/-- `getResourcePackageName`, `getResourceTypeName` and
`getResourceEntryName` of an id. -/
structure Names where
  packageName : String
  typeName : String
  entryName : String

/-- `getResourceNames` and `getSystemResourceNames`. The constructor takes
the name before the type, and is given the type first. -/
def getResourceNames (id : JInt) (names : Names) : ResourceNames :=
  .new id names.packageName names.typeName names.entryName

/-! ## Hooking -/

/-- The tables, for callbacks of a type `Cb`. -/
structure State (Cb : Type) where
  sLayoutCallbacks : Nested JInt (Option String) (CopyOnWriteSortedSet Cb) := fun _ => none
  sResourceNames : Nested JInt (Option String) ResourceNames := fun _ => none

/-- `Bridge_LayoutInflated.Unhook`, with the callback it belongs to. -/
structure Unhook (Cb : Type) where
  callback : Cb
  resDir : Option String
  id : JInt

variable {Cb : Type} [DecidableEq Cb] (S : ArraySort Cb)

def putResourceNames (resDir : Option String) (resNames : ResourceNames) (s : State Cb) :
    State Cb :=
  { s with sResourceNames := s.sResourceNames.put resNames.id resDir resNames }

/-- **`hookLayoutInternal`.** -/
def hookLayoutInternal (resDir : Option String) (id : JInt) (resNames : ResourceNames)
    (callback : Cb) (s : State Cb) : Except Throwable (Unhook Cb × State Cb) :=
  if id = 0 then
    throw (.illegalArgument "id 0 is not an allowed resource identifier")
  else
    let callbacks := (s.sLayoutCallbacks.get id resDir).getD []
    let callbacks := (CopyOnWriteSortedSet.add S callbacks callback).2
    let s := { s with sLayoutCallbacks := s.sLayoutCallbacks.put id resDir callbacks }
    return (⟨callback, resDir, id⟩, putResourceNames resDir resNames s)

/-- `unhookLayout`: the set stays, without the callback. -/
def unhookLayout (resDir : Option String) (id : JInt) (callback : Cb) (s : State Cb) : State Cb :=
  match s.sLayoutCallbacks.get id resDir with
  | none => s
  | some callbacks =>
    let callbacks := (CopyOnWriteSortedSet.remove callbacks callback).2
    { s with sLayoutCallbacks := s.sLayoutCallbacks.put id resDir callbacks }

def Unhook.unhook (u : Unhook Cb) (s : State Cb) : State Cb :=
  unhookLayout u.resDir u.id u.callback s

/-- `hookLayout` of an object. -/
def hookLayout (this : Res) (id : JInt) (names : Names) (callback : Cb) (s : State Cb) :
    Except Throwable (Unhook Cb × State Cb) :=
  hookLayoutInternal S this.mResDir id (getResourceNames id names) callback s

/-- `hookSystemWideLayout`. -/
def hookSystemWideLayout (id : JInt) (names : Names) (callback : Cb) (s : State Cb) :
    Except Throwable (Unhook Cb × State Cb) :=
  if isSystemId id = false then
    throw (.illegalArgument
      "ids >= 0x7f000000 are app specific and cannot be set for the framework")
  else
    hookLayoutInternal S none id (getResourceNames id names) callback s

/-! ## Loading a layout -/

/-- `XMLInstanceDetails`. -/
structure XMLInstanceDetails (Cb : Type) where
  resNames : Option ResourceNames
  variant : String
  callbacks : CopyOnWriteSortedSet Cb
  res : Res

/-- The second of the three parts that slashes make of the file name of a
layout, or `layout`; `none` is a value that is no string. -/
def variant (value : Option String) : String :=
  match value.map (·.toList.dropWhile (· != '/')) with
  | some ('/' :: rest) =>
    if '/' ∈ rest then String.ofList (rest.takeWhile (· != '/')) else "layout"
  | _ => "layout"

/-- **`getLayout`**, what it attaches to the parser: nothing, or the callbacks
for the directory of the object if there is a set for it, and else those for
all. -/
def getLayout (this : Res) (id : JInt) (value : Option String) (s : State Cb) :
    Option (XMLInstanceDetails Cb) :=
  match s.sLayoutCallbacks id with
  | none => none
  | some inner =>
    let callbacks :=
      match inner this.mResDir with
      | none => if this.mResDir ≠ none then inner none else none
      | some callbacks => some callbacks
    match callbacks with
    | none => none
    | some callbacks =>
      match s.sResourceNames id with
      | none => none
      | some resNamesInner =>
        some ⟨resNamesInner this.mResDir, variant value, callbacks, this⟩

/-! ## Runs -/

inductive Event (Cb : Type) where
  | hookLayout (this : Res) (id : JInt) (names : Names) (callback : Cb)
  | hookSystemWideLayout (id : JInt) (names : Names) (callback : Cb)
  | unhook (u : Unhook Cb)

/-- A call; one that throws changes nothing. -/
def step : Machine (State Cb) (Event Cb) Empty
  | s, .hookLayout this id names callback =>
    (((Layouts.hookLayout S this id names callback s).toOption.map (·.2)).getD s, [])
  | s, .hookSystemWideLayout id names callback =>
    (((Layouts.hookSystemWideLayout S id names callback s).toOption.map (·.2)).getD s, [])
  | s, .unhook u => (u.unhook s, [])

end Layouts

end Dynamicloader
