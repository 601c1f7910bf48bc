import Dynamicloader.Common.Machine
import Dynamicloader.Bridge.SortedSet
import Mathlib.Logic.Function.Basic
/-!
# Bridge — hooking a method

`hookMethod` looks the member up in `sHookedMethodCallbacks` and makes a set
for it if there is none, adds the callback to the set, and, if it made the
set, has the virtual machine install the handler with that set.
`unhookMethod` takes the callback out of the set again. The map and each set
have a lock of their own, and nothing is held from one step to the next.
`XposedBridge` has the same code; on ART it passes `0` for the slot.

Sets are objects, known by the order in which they are made. What reflection
and the virtual machine say of a member is a parameter. Members, methods and
classes are never null, so the usage errors of the native part do not arise.
-/

namespace Dynamicloader

namespace Hooking

open Bridge (ArraySort CopyOnWriteSortedSet)

inductive Throwable where
  | illegalArgumentException (message : String)
  | noSuchMethodError (message : String)
  /-- What the reflective read of a field throws. -/
  | reflective (message : String)
  deriving DecidableEq

/-! ## The platform -/

/-- What a `Member` is an instance of. -/
inductive Kind (Class : Type) where
  | method (parameterTypes : List Class) (returnType : Class)
  | constructor (parameterTypes : List Class)
  | field

def Kind.isField {Class : Type} : Kind Class → Bool
  | .field => true
  | _ => false

def Kind.parameterTypes {Class : Type} : Kind Class → List Class
  | .method parameterTypes _ => parameterTypes
  | .constructor parameterTypes => parameterTypes
  | .field => []

def Kind.returnType {Class : Type} : Kind Class → Option Class
  | .method _ returnType => some returnType
  | _ => none

/-- Reflection, and `dvmSlotToMethod`, which finds the `Method*` of a slot. A
member's slot names a method of its own. -/
structure Platform (Member Class Ptr : Type) where
  kind : Member → Kind Class
  declaringClass : Member → Class
  isInterface : Class → Bool
  isAbstract : Member → Bool
  toString : Member → String
  /-- `getIntField(hookMethod, "slot")` -/
  slot : Member → Except Throwable Int32
  dvmSlotToMethod : Class → Int32 → Option Ptr
  own : ∀ m m' i i' p, slot m = .ok i → slot m' = .ok i' →
    dvmSlotToMethod (declaringClass m) i = some p →
    dvmSlotToMethod (declaringClass m') i' = some p → m = m'

/-- `AdditionalHookInfo`, with the set object. -/
structure AdditionalHookInfo (Class : Type) where
  callbacks : ℕ
  parameterTypes : List Class
  returnType : Option Class

variable {Member Class Ptr Cb : Type}

/-- The checks at the head of `hookMethod`. -/
def Platform.check (P : Platform Member Class Ptr) (hookMethod : Member) : Except Throwable Unit :=
  if (P.kind hookMethod).isField then
    throw (.illegalArgumentException
      ("Only methods and constructors can be hooked: " ++ P.toString hookMethod))
  else if P.isInterface (P.declaringClass hookMethod) then
    throw (.illegalArgumentException ("Cannot hook interfaces: " ++ P.toString hookMethod))
  else if P.isAbstract hookMethod then
    throw (.illegalArgumentException ("Cannot hook abstract methods: " ++ P.toString hookMethod))
  else pure ()

/-! ## The state -/

/-- Where a call stands between two of its steps. -/
inductive Phase (Member Cb : Type) where
  | add (hookMethod : Member) (callback : Cb) (callbacks : ℕ) (newMethod : Bool)
  | install (hookMethod : Member) (callback : Cb) (callbacks : ℕ)
  | remove (hookMethod : Member) (callback : Cb) (callbacks : ℕ)

/-- The map, the sets made so far, what the hooked methods were given, and
the calls in progress, by thread. -/
structure State (Member Class Ptr Cb : Type) where
  sHookedMethodCallbacks : Member → Option ℕ := fun _ => none
  made : ℕ := 0
  sets : ℕ → CopyOnWriteSortedSet Cb := fun _ => []
  /-- `method->insns` of the methods with `bridgeCallHandler`: the reflected
  method and the additional info. -/
  hookInfo : Ptr → Option (Member × AdditionalHookInfo Class) := fun _ => none
  calls : ℕ → Option (Phase Member Cb) := fun _ => none

namespace State

variable (s : State Member Class Ptr Cb)

/-- A call goes on to its next step, or ends. -/
def goes (c : ℕ) (phase : Option (Phase Member Cb)) : State Member Class Ptr Cb :=
  { s with calls := Function.update s.calls c phase }

/-- The synchronized section of `hookMethod`: the set, and whether it is new. -/
def getOrCreate [DecidableEq Member] (hookMethod : Member) :
    ℕ × Bool × State Member Class Ptr Cb :=
  match s.sHookedMethodCallbacks hookMethod with
  | some callbacks => (callbacks, false, s)
  | none =>
    (s.made, true, { s with
      made := s.made + 1
      sHookedMethodCallbacks :=
        Function.update s.sHookedMethodCallbacks hookMethod (some s.made) })

/-- `callbacks.add(callback)` -/
def add [DecidableEq Cb] (S : ArraySort Cb) (callbacks : ℕ) (callback : Cb) :
    State Member Class Ptr Cb :=
  { s with
    sets := Function.update s.sets callbacks
      (CopyOnWriteSortedSet.add S (s.sets callbacks) callback).2 }

/-- `callbacks.remove(callback)` -/
def remove [DecidableEq Cb] (callbacks : ℕ) (callback : Cb) : State Member Class Ptr Cb :=
  { s with
    sets := Function.update s.sets callbacks
      (CopyOnWriteSortedSet.remove (s.sets callbacks) callback).2 }

end State

/-- What is seen of the calls: their operations on the sets, the calls of
`hookMethodNative`, and how `hookMethod` ends. -/
inductive Output (Member Class Cb : Type) where
  | added (hookMethod : Member) (callback : Cb)
  | removed (hookMethod : Member) (callback : Cb)
  | hookMethodNative (hookMethod : Member) (additionalInfo : AdditionalHookInfo Class)
  | returned (hookMethod : Member) (callback : Cb)
  | threw (hookMethod : Member) (callback : Cb) (e : Throwable)

section Install

variable [DecidableEq Ptr]

/-- **`hookMethodNative`**: the first info that a method is given stays. -/
def hookMethodNative (P : Platform Member Class Ptr) (reflectedMethod : Member)
    (declaredClass : Class) (slot : Int32) (additionalInfo : AdditionalHookInfo Class)
    (s : State Member Class Ptr Cb) : Except Throwable (State Member Class Ptr Cb) :=
  match P.dvmSlotToMethod declaredClass slot with
  | none => throw (.noSuchMethodError "could not get internal representation for method")
  | some method =>
    if (s.hookInfo method).isSome then
      -- already hooked
      pure s
    else
      pure { s with
        hookInfo := Function.update s.hookInfo method (some (reflectedMethod, additionalInfo)) }

/-- What `hookMethod` does for a new member: read its slot, then have it
hooked. -/
def install (P : Platform Member Class Ptr) (hookMethod : Member) (callbacks : ℕ)
    (s : State Member Class Ptr Cb) :
    Except Throwable (State Member Class Ptr Cb) × List (Output Member Class Cb) :=
  match P.slot hookMethod with
  | .error e => (throw e, [])
  | .ok slot =>
    let additionalInfo : AdditionalHookInfo Class :=
      ⟨callbacks, (P.kind hookMethod).parameterTypes, (P.kind hookMethod).returnType⟩
    (hookMethodNative P hookMethod (P.declaringClass hookMethod) slot additionalInfo s,
      [.hookMethodNative hookMethod additionalInfo])

end Install

/-! ## Calls that overlap -/

inductive Event (Member Cb : Type) where
  /-- A thread calls `hookMethod` and does the checks and the first section. -/
  | hookMethod (c : ℕ) (hookMethod : Member) (callback : Cb)
  /-- A thread calls `unhookMethod` and does its section. -/
  | unhookMethod (c : ℕ) (hookMethod : Member) (callback : Cb)
  /-- The next step of the call that a thread is in. -/
  | proceed (c : ℕ)

variable [DecidableEq Member] [DecidableEq Ptr] [DecidableEq Cb]

/-- **One step of one thread.** A thread is in one call at a time. -/
def step (S : ArraySort Cb) (P : Platform Member Class Ptr) :
    Machine (State Member Class Ptr Cb) (Event Member Cb) (Output Member Class Cb)
  | s, .hookMethod c m cb =>
    match s.calls c with
    | some _ => (s, [])
    | none =>
      match P.check m with
      | .error e => (s, [.threw m cb e])
      | .ok () =>
        let (callbacks, newMethod, s) := s.getOrCreate m
        (s.goes c (some (.add m cb callbacks newMethod)), [])
  | s, .unhookMethod c m cb =>
    match s.calls c with
    | some _ => (s, [])
    | none =>
      match s.sHookedMethodCallbacks m with
      | none => (s, [.removed m cb])
      | some callbacks => (s.goes c (some (.remove m cb callbacks)), [])
  | s, .proceed c =>
    match s.calls c with
    | none => (s, [])
    | some (.add m cb callbacks newMethod) =>
      let s := s.add S callbacks cb
      if newMethod then (s.goes c (some (.install m cb callbacks)), [.added m cb])
      else (s.goes c none, [.added m cb, .returned m cb])
    | some (.install m cb callbacks) =>
      match install P m callbacks s with
      | (.error e, out) => (s.goes c none, out ++ [.threw m cb e])
      | (.ok s, out) => (s.goes c none, out ++ [.returned m cb])
    | some (.remove m cb callbacks) => ((s.remove callbacks cb).goes c none, [.removed m cb])

/-! ## One call alone -/

/-- `Bridge_MethodHook.Unhook` -/
structure Unhook (Member Cb : Type) where
  hookMethod : Member
  callback : Cb
  deriving DecidableEq

/-- How a call of `hookMethod` ends, whether it came to installing, and the
state it leaves. -/
structure Called (Member Class Ptr Cb : Type) where
  outcome : Except Throwable (Unhook Member Cb)
  attempted : Bool
  state : State Member Class Ptr Cb

/-- **`hookMethod`.** -/
def hookMethod (S : ArraySort Cb) (P : Platform Member Class Ptr) (m : Member) (cb : Cb)
    (s : State Member Class Ptr Cb) : Called Member Class Ptr Cb :=
  match P.check m with
  | .error e => ⟨throw e, false, s⟩
  | .ok () =>
    let (callbacks, newMethod, s) := s.getOrCreate m
    let s := s.add S callbacks cb
    if newMethod then
      match (install P m callbacks s).1 with
      | .error e => ⟨throw e, true, s⟩
      | .ok s => ⟨pure ⟨m, cb⟩, true, s⟩
    else ⟨pure ⟨m, cb⟩, false, s⟩

end Hooking

end Dynamicloader
