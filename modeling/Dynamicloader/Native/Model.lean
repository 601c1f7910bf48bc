import Mathlib.Algebra.Ring.Nat
import Mathlib.Data.List.Basic
import Mathlib.Logic.Function.Basic
/-!
# Native — hooked methods in the virtual machine

The native part of the bridge, on Dalvik. `hookMethodNative` puts a copy of
the `Method` struct aside, in a `BridgeHookInfo`, and turns the method into a
native one with `bridgeCallHandler` for its code and the info for its
instructions. The handler boxes the argument words by the method's shorty and
calls `handleHookedMethod`, with the copy as the method's id, and
`invokeOriginalMethodNative` invokes the copy.

A block of memory is a `Method` or an info; the copy is the first member of
its info, so that one address stands for both. Addresses and words have 32
bits. What the virtual machine says of classes and reflected methods is a
parameter, and so is where `calloc` finds room. The words behind the struct,
which are copied with it for the sake of a ROM that extends it, are not part
of it here, nor is the flag that has the JIT drop its cache.
-/

namespace Dynamicloader

namespace Native

/-! ## The memory -/

/-- `ACC_STATIC` -/
def accStatic : UInt32 := 0x8

/-- `ACC_NATIVE` -/
def accNative : UInt32 := 0x100

/-- `shorty`: the type of the result, then those of the parameters. -/
structure Shorty where
  returnType : Char
  parameters : List Char
deriving DecidableEq

/-- `Method`: what the bridge has to do with, and the other fields. -/
structure Method (Rest : Type) where
  accessFlags : UInt32
  registersSize : UInt16
  outsSize : UInt16
  insSize : UInt16
  shorty : Shorty
  insns : UInt32
  nativeFunc : UInt32
  rest : Rest

/-- `BridgeHookInfo` -/
structure BridgeHookInfo (Member Info Rest : Type) where
  originalMethod : Method Rest
  reflectedMethod : Member
  additionalInfo : Info

/-- A block of memory. -/
inductive Block (Member Info Rest : Type)
  | method (m : Method Rest)
  | hookInfo (i : BridgeHookInfo Member Info Rest)

/-- What is at each address. -/
abbrev Memory (Member Info Rest : Type) := UInt32 → Option (Block Member Info Rest)

/-- The virtual machine, and the address of the handler. -/
structure VM (Member Class : Type) where
  dvmSlotToMethod : Class → Int32 → Option UInt32
  dvmGetMethodFromReflectObj : Member → UInt32
  bridgeCallHandler : UInt32

variable {Member Class Info Rest : Type}

/-- `dvmIsStaticMethod` -/
def Method.dvmIsStaticMethod (m : Method Rest) : Bool := m.accessFlags &&& accStatic != 0

/-- `bridgeIsHooked` -/
def VM.bridgeIsHooked (V : VM Member Class) (m : Method Rest) : Bool :=
  m.nativeFunc == V.bridgeCallHandler

/-- The `Method` a `Method*` points to; that of an info is the copy. -/
def Memory.methodAt (mem : Memory Member Info Rest) (p : UInt32) : Option (Method Rest) :=
  match mem p with
  | some (.method m) => some m
  | some (.hookInfo i) => some i.originalMethod
  | none => none

/-- The `BridgeHookInfo` a `BridgeHookInfo*` points to. -/
def Memory.infoAt (mem : Memory Member Info Rest) (p : UInt32) :
    Option (BridgeHookInfo Member Info Rest) :=
  match mem p with
  | some (.hookInfo i) => some i
  | _ => none

/-! ## `hookMethodNative` -/

/-- How a native function fails. -/
inductive Failure
  | illegalArgumentException (message : String)
  | noSuchMethodError (message : String)
  /-- An access through a pointer to nothing. -/
  | segmentationFault
deriving DecidableEq

/-- `calloc`: memory that is free, or `NULL`. -/
def calloc (mem : Memory Member Info Rest) (room : UInt32) : UInt32 :=
  if (mem room).isSome then 0 else room

/-- The arguments of `hookMethodNative`, and where `calloc` looks for room. -/
structure HookCall (Member Class Info : Type) where
  reflectedMethod : Option Member
  declaredClass : Option Class
  slot : Int32
  additionalInfo : Info
  room : UInt32

/-- The method with the handler in place of its code. -/
def Method.replaced (V : VM Member Class) (m : Method Rest) (hookInfo : UInt32) : Method Rest :=
  { m with
    accessFlags := m.accessFlags ||| accNative
    nativeFunc := V.bridgeCallHandler
    insns := hookInfo
    registersSize := m.insSize
    outsSize := 0 }

/-- **`hookMethodNative`.** -/
def hookMethodNative (V : VM Member Class) (mem : Memory Member Info Rest)
    (c : HookCall Member Class Info) : Except Failure (Memory Member Info Rest) :=
  match c.declaredClass, c.reflectedMethod with
  | some declaredClass, some reflectedMethod =>
    -- the internal representation of the method
    match V.dvmSlotToMethod declaredClass c.slot with
    | none => throw (.noSuchMethodError "could not get internal representation for method")
    | some p =>
      match mem.methodAt p with
      | none => throw .segmentationFault
      | some method =>
        if V.bridgeIsHooked method then pure mem
        else
          let hookInfo := calloc mem c.room
          if hookInfo = 0 then throw .segmentationFault
          else
            let saved := Function.update mem hookInfo
              (some (.hookInfo ⟨method, reflectedMethod, c.additionalInfo⟩))
            pure (Function.update saved p (some (.method (method.replaced V hookInfo))))
  | _, _ => throw (.illegalArgumentException "method and declaredClass must not be null")

/-- Calls of `hookMethodNative` of which none fails. -/
def hookMethodsNative (V : VM Member Class) :
    Memory Member Info Rest → List (HookCall Member Class Info) →
      Except Failure (Memory Member Info Rest)
  | mem, [] => .ok mem
  | mem, c :: cs => do
    let mem ← hookMethodNative V mem c
    hookMethodsNative V mem cs

/-! ## `bridgeCallHandler` -/

/-- A value of a primitive type; `float` and `double` by their bits. -/
inductive Primitive
  | boolean (z : Bool)
  | char (c : UInt16)
  | float (bits : UInt32)
  | byte (b : Int8)
  | short (s : Int16)
  | int (i : Int32)
  | long (j : Int64)
  | double (bits : UInt64)
deriving DecidableEq

/-- What an `Object*` points to: an object that was there, by its address, or
a box that was made; `NULL` is the address `0`. -/
inductive Obj
  | ptr (p : UInt32)
  | box (v : Primitive)
deriving DecidableEq

/-- `NULL` -/
def Obj.null : Obj := .ptr 0

/-- `value.i = word`: the upper half of the union stays as it is. -/
def setInt (value : UInt64) (word : UInt32) : UInt64 :=
  .ofNat (word.toNat + 2 ^ 32 * (value.toNat / 2 ^ 32))

/-- `dvmGetArgLong`: two words, the lower one first. -/
def dvmGetArgLong (args : ℕ → UInt32) (elem : ℕ) : UInt64 :=
  .ofNat ((args elem).toNat + 2 ^ 32 * (args (elem + 1)).toNat)

/-- `dvmBoxPrimitive`: it boxes the member of the union that the class
names. -/
def dvmBoxPrimitive (value : UInt64) : Char → Obj
  | 'Z' => .box (.boolean (value.toUInt32.toUInt8 != 0))
  | 'C' => .box (.char value.toUInt32.toUInt16)
  | 'F' => .box (.float value.toUInt32)
  | 'B' => .box (.byte value.toUInt32.toInt32.toInt8)
  | 'S' => .box (.short value.toUInt32.toInt32.toInt16)
  | 'I' => .box (.int value.toUInt32.toInt32)
  | 'J' => .box (.long value.toInt64)
  | 'D' => .box (.double value)
  | _ => .null

/-- `bridgeSetObjectArrayElement`; there is no check, and a write out of the
array goes to other memory. -/
def bridgeSetObjectArrayElement (obj : List Obj) (index : ℕ) (val : Obj) : Option (List Obj) :=
  if index < obj.length then some (obj.set index val) else none

/-- The loop of the handler between two characters, and the argument words it
has read. -/
structure Boxing where
  srcIndex : ℕ
  dstIndex : ℕ
  argsArray : List Obj
  read : List ℕ

/-- One argument: what becomes of it, and how many words it takes. `value` is
what the union holds at first. -/
def boxArgument (args : ℕ → UInt32) (value : UInt64) (srcIndex : ℕ) (descChar : Char) : Obj × ℕ :=
  match descChar with
  | 'Z' | 'C' | 'F' | 'B' | 'S' | 'I' =>
    (dvmBoxPrimitive (setInt value (args srcIndex)) descChar, 1)
  | 'D' | 'J' => (dvmBoxPrimitive (dvmGetArgLong args srcIndex) descChar, 2)
  | '[' | 'L' => (.ptr (args srcIndex), 1)
  | _ => (.null, 1)

/-- Whether a character is one the loop knows; it reads no word for others. -/
def knownChar (descChar : Char) : Bool :=
  descChar ∈ ['Z', 'C', 'F', 'B', 'S', 'I', 'D', 'J', '[', 'L']

/-- **The loop**, over the characters that are left. -/
def boxArguments (args : ℕ → UInt32) (value : ℕ → UInt64) : List Char → Boxing → Option Boxing
  | [], b => some b
  | descChar :: desc, b => do
    let (obj, words) := boxArgument args (value b.dstIndex) b.srcIndex descChar
    let argsArray ← bridgeSetObjectArrayElement b.argsArray b.dstIndex obj
    boxArguments args value desc
      { srcIndex := b.srcIndex + words
        dstIndex := b.dstIndex + 1
        argsArray
        read := b.read ++ if knownChar descChar then List.range' b.srcIndex words else [] }

/-- The arguments of `handleHookedMethod`. -/
structure HandlerCall (Member Info : Type) where
  originalReflected : Member
  original : UInt32
  additionalInfo : Info
  thisObject : Obj
  argsArray : List Obj

/-- What the handler does before its call: it ends, or it makes the call. -/
inductive Prepared (Member Info : Type)
  | noSuchMethodError (message : String)
  | segmentationFault
  /-- `dvmAllocArrayByClass` gave no array. -/
  | noArray
  | call (c : HandlerCall Member Info) (read : List ℕ)

/-- **`bridgeCallHandler`, up to the call.** `allocated` says whether there is
memory for the array, and `value` what the union on the stack holds. -/
def prepare (V : VM Member Class) (mem : Memory Member Info Rest) (method : Method Rest)
    (args : ℕ → UInt32) (allocated : Bool) (value : ℕ → UInt64) : Prepared Member Info :=
  if !V.bridgeIsHooked method then
    .noSuchMethodError "could not find Bridge original method - how did you even get here?"
  else
    match mem.infoAt method.insns with
    | none => .segmentationFault
    | some hookInfo =>
      let isStatic := hookInfo.originalMethod.dvmIsStaticMethod
      let thisObject := if isStatic then .null else .ptr (args 0)
      let read := if isStatic then [] else [0]
      if !allocated then .noArray
      else
        let array := List.replicate method.shorty.parameters.length Obj.null
        match boxArguments args value method.shorty.parameters ⟨read.length, 0, array, read⟩ with
        | none => .segmentationFault
        | some b =>
          .call
            { originalReflected := hookInfo.reflectedMethod
              original := method.insns
              additionalInfo := hookInfo.additionalInfo
              thisObject
              argsArray := b.argsArray } b.read

/-! ## `invokeOriginalMethodNative` -/

/-- The `Method*` that is invoked: the one of the id, or else the one of the
reflected method, for which the copy is taken if it is hooked. -/
def originalMethod (V : VM Member Class) (mem : Memory Member Info Rest) (reflected : Member)
    (id : UInt32) : Except Failure UInt32 :=
  if id = 0 then
    let meth := V.dvmGetMethodFromReflectObj reflected
    match mem.methodAt meth with
    | none => throw .segmentationFault
    | some m => pure (if V.bridgeIsHooked m then m.insns else meth)
  else pure id

/-- The arguments of `dvmInvokeMethod`. -/
structure Invocation where
  thisObject : UInt32
  meth : UInt32
  argList : UInt32
  params : UInt32
  returnType : UInt32
  noAccessCheck : Bool
deriving DecidableEq

/-- **`invokeOriginalMethodNative`**, by its argument words; `reflected` is
the object that the first one points to. -/
def invokeOriginalMethodNative (V : VM Member Class) (mem : Memory Member Info Rest)
    (args : ℕ → UInt32) (reflected : Member) : Except Failure Invocation := do
  let meth ← originalMethod V mem reflected (args 1)
  return { params := args 2, returnType := args 3, thisObject := args 4, argList := args 5, meth
           noAccessCheck := true }

end Native

end Dynamicloader
