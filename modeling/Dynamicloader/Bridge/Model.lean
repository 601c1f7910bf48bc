import Mathlib.Data.List.Basic
/-!
# Bridge — the call handler of a hooked method

`Bridge.handleHookedMethod` replaces every hooked method: it runs the
callbacks' before-steps, invokes the original unless one of them asked to
return early, and runs the after-steps of the callbacks it entered, in
reverse. `XposedBridge.handleHookedMethod` is the same code under other
class names.

Java references are an arbitrary type `Ref`, `null` is `none`, and what
objects and arrays hold is part of an arbitrary `World` that callbacks and
the original method may change. A callback is any function from what it is
shown to the calls it makes on its `MethodHookParam`, the world it leaves
and whether it throws. The private fields of the parameter object are
therefore reachable through its setters only, as in the source.
-/

namespace Dynamicloader

namespace Bridge

/-- `Bridge_MethodHook.MethodHookParam`, with the `extra` bundle of its
superclass `BridgeCallback.Param`. -/
structure MethodHookParam (Ref : Type) where
  method : Option Ref := none
  thisObject : Option Ref := none
  args : Option Ref := none
  extra : Option Ref := none
  result : Option Ref := none
  throwable : Option Ref := none
  returnEarly : Bool := false
  deriving DecidableEq

namespace MethodHookParam

variable {Ref : Type}

def setResult (p : MethodHookParam Ref) (result : Option Ref) : MethodHookParam Ref :=
  { p with result := result, throwable := none, returnEarly := true }

def setThrowable (p : MethodHookParam Ref) (throwable : Option Ref) : MethodHookParam Ref :=
  { p with throwable := throwable, result := none, returnEarly := true }

/-- `getExtra` allocates the bundle on first use; `fresh` is the new one. -/
def getExtra (p : MethodHookParam Ref) (fresh : Ref) : MethodHookParam Ref :=
  { p with extra := some (p.extra.getD fresh) }

end MethodHookParam

/-- What a callback can do to the parameter object: the two setters, an
assignment to one of the public fields, or the first use of the bundle. -/
inductive ParamOp (Ref : Type) where
  | setResult (result : Option Ref)
  | setThrowable (throwable : Option Ref)
  | assignMethod (method : Option Ref)
  | assignThisObject (thisObject : Option Ref)
  | assignArgs (args : Option Ref)
  | getExtra (fresh : Ref)
  deriving DecidableEq

namespace ParamOp

variable {Ref : Type}

def apply (p : MethodHookParam Ref) : ParamOp Ref → MethodHookParam Ref
  | setResult r => p.setResult r
  | setThrowable t => p.setThrowable t
  | assignMethod m => { p with method := m }
  | assignThisObject o => { p with thisObject := o }
  | assignArgs a => { p with args := a }
  | getExtra b => p.getExtra b

/-- The two setters, whose call requests an early return. -/
def sets : ParamOp Ref → Bool
  | setResult _ => true
  | setThrowable _ => true
  | _ => false

end ParamOp

/-- What a callback or the original method finds: the parameter object and
everything else. -/
structure View (Ref World : Type) where
  param : MethodHookParam Ref
  world : World
  deriving DecidableEq

/-- What one run of a callback does: its calls on the parameter object in
order, the world it leaves, and the throwable it exits with, if any. -/
structure Step (Ref World : Type) where
  ops : List (ParamOp Ref) := []
  thrown : Option Ref := none
  world : World

namespace Step

variable {Ref World : Type}

/-- The parameter object after the run. -/
def paramFrom (r : Step Ref World) (p : MethodHookParam Ref) : MethodHookParam Ref :=
  r.ops.foldl ParamOp.apply p

end Step

/-- `Bridge_MethodHook`: both steps do nothing unless overridden. -/
structure MethodHook (Ref World : Type) where
  beforeHookedMethod : View Ref World → Step Ref World := fun v => { world := v.world }
  afterHookedMethod : View Ref World → Step Ref World := fun v => { world := v.world }

/-- How `invokeOriginalMethodNative` ends. A throw of the target arrives as
`InvocationTargetException` with that throwable as its cause; the other
declared exceptions report a bad invocation. -/
inductive Invocation (Ref : Type) where
  | returned (value : Option Ref)
  | targetException (cause : Ref)
  | failed (exception : Ref)
  deriving DecidableEq

/-- How `handleHookedMethod` ends. -/
inductive Outcome (Ref : Type) where
  | returns (value : Option Ref)
  | throws (throwable : Ref)
  deriving DecidableEq

/-- A step of the handler as an observer of the callbacks and the original
sees it. -/
inductive Event (Ref World : Type) where
  | before (index : ℕ) (view : View Ref World)
  | original (thisObject args : Option Ref) (world : World)
  | after (index : ℕ) (view : View Ref World)
  deriving DecidableEq

/-- `AdditionalHookInfo`, with the snapshot of its callback set. -/
structure AdditionalHookInfo (Ref World : Type) where
  callbacks : List (MethodHook Ref World)
  parameterTypes : Option Ref := none
  returnType : Option Ref := none

/-- `invokeOriginalMethodNative`: the receiver and the arguments are the
last two parameters. -/
abbrev InvokeOriginal (Ref World : Type) :=
  World → (method : Option Ref) → (methodId : Int32) → (parameterTypes returnType : Option Ref) →
    (thisObject args : Option Ref) → Invocation Ref × World

/-- The handler's locals, the trace of what it ran, and the throwables it
passed to `Bridge.log`. -/
structure Activation (Ref World : Type) where
  param : MethodHookParam Ref
  world : World
  trace : List (Event Ref World) := []
  log : List Ref := []

/-- What a finished call leaves. -/
structure Handled (Ref World : Type) where
  outcome : Outcome Ref
  world : World
  trace : List (Event Ref World)
  log : List Ref

variable {Ref World : Type}

def Activation.view (s : Activation Ref World) : View Ref World := ⟨s.param, s.world⟩

/-- The before-step of callback `i`, with the `catch` clause: a throw is
logged and the parameter object reset. -/
def runBefore (cb : MethodHook Ref World) (i : ℕ) (s : Activation Ref World) :
    Activation Ref World × Bool :=
  let r := cb.beforeHookedMethod s.view
  let param := r.paramFrom s.param
  let trace := s.trace ++ [.before i s.view]
  match r.thrown with
  | some t =>
    -- reset result (ignoring what the unexpectedly exiting callback did)
    ({ param := { param.setResult none with returnEarly := false }, world := r.world,
       trace := trace, log := s.log ++ [t] }, true)
  | none => ({ param := param, world := r.world, trace := trace, log := s.log }, false)

/-- `beforeIdx` and the locals on leaving the first loop. The index is one
past the last callback entered. -/
structure Entered (cbs : List (MethodHook Ref World)) where
  beforeIdx : ℕ
  activation : Activation Ref World
  pos : 0 < beforeIdx
  le : beforeIdx ≤ cbs.length

/-- The second loop starts inside the snapshot. -/
theorem Entered.afterIdx_lt {cbs : List (MethodHook Ref World)} (e : Entered cbs) :
    e.beforeIdx - 1 < cbs.length :=
  Nat.lt_of_lt_of_le (Nat.sub_lt e.pos Nat.one_pos) e.le

/-- **The first `do … while`.** The `continue` of the `catch` clause goes to
the loop condition, which is where the index advances; the early return
advances it by hand and breaks. -/
def beforeLoop (cbs : List (MethodHook Ref World)) (beforeIdx : ℕ)
    (h : beforeIdx < cbs.length) (s : Activation Ref World) : Entered cbs :=
  let r := runBefore (cbs.get ⟨beforeIdx, h⟩) beforeIdx s
  if !r.2 && r.1.param.returnEarly then
    -- skip remaining "before" callbacks and corresponding "after" callbacks
    ⟨beforeIdx + 1, r.1, Nat.succ_pos _, h⟩
  else if h' : beforeIdx + 1 < cbs.length then
    beforeLoop cbs (beforeIdx + 1) h' r.1
  else
    ⟨beforeIdx + 1, r.1, Nat.succ_pos _, h⟩
  termination_by cbs.length - beforeIdx

/-- The after-step of callback `i`, with its `catch` clause: a throw is
logged and the result or throwable from before the step put back. -/
def runAfter (cb : MethodHook Ref World) (i : ℕ) (s : Activation Ref World) :
    Activation Ref World :=
  let lastResult := s.param.result
  let lastThrowable := s.param.throwable
  let r := cb.afterHookedMethod s.view
  let param := r.paramFrom s.param
  let trace := s.trace ++ [.after i s.view]
  match r.thrown with
  | some t =>
    -- reset to last result (ignoring what the unexpectedly exiting callback did)
    { param := if lastThrowable.isNone then param.setResult lastResult
        else param.setThrowable lastThrowable
      world := r.world, trace := trace, log := s.log ++ [t] }
  | none => { param := param, world := r.world, trace := trace, log := s.log }

/-- **The second `do … while`**, from `afterIdx` down to `0`. -/
def afterLoop (cbs : List (MethodHook Ref World)) :
    (afterIdx : ℕ) → afterIdx < cbs.length → Activation Ref World → Activation Ref World
  | 0, h, s => runAfter (cbs.get ⟨0, h⟩) 0 s
  | i + 1, h, s => afterLoop cbs i (by omega) (runAfter (cbs.get ⟨i + 1, h⟩) (i + 1) s)

/-- The two places that hand the call straight to the original. -/
def invokeDirectly (native : InvokeOriginal Ref World) (method : Option Ref)
    (originalMethodId : Int32) (info : AdditionalHookInfo Ref World)
    (thisObject args : Option Ref) (w : World) : Handled Ref World :=
  let r := native w method originalMethodId info.parameterTypes info.returnType thisObject args
  { outcome := match r.1 with
      | .returned v => .returns v
      | .targetException cause => .throws cause
      | .failed e => .throws e
    world := r.2, trace := [.original thisObject args w], log := [] }

/-- The after-steps from `afterIdx` down, then the answer left in the
parameter object. -/
def finish (cbs : List (MethodHook Ref World)) (afterIdx : ℕ) (h : afterIdx < cbs.length)
    (s : Activation Ref World) : Handled Ref World :=
  let s := afterLoop cbs afterIdx h s
  { outcome := match s.param.throwable with
      | some t => .throws t
      | none => .returns s.param.result
    world := s.world, trace := s.trace, log := s.log }

/-- `handleHookedMethod`. -/
def handleHookedMethod (disableHooks : Bool) (native : InvokeOriginal Ref World)
    (method : Option Ref) (originalMethodId : Int32) (info : AdditionalHookInfo Ref World)
    (thisObject args : Option Ref) (w : World) : Handled Ref World :=
  if disableHooks then
    invokeDirectly native method originalMethodId info thisObject args w
  else if h : info.callbacks.length = 0 then
    invokeDirectly native method originalMethodId info thisObject args w
  else
    let entered := beforeLoop info.callbacks 0 (Nat.pos_of_ne_zero h)
      { param := { method := method, thisObject := thisObject, args := args }, world := w }
    let s := entered.activation
    let finish := finish info.callbacks (entered.beforeIdx - 1) entered.afterIdx_lt
    -- call original method if not requested otherwise
    if s.param.returnEarly then finish s
    else
      let r := native s.world method originalMethodId info.parameterTypes info.returnType
        s.param.thisObject s.param.args
      let trace := s.trace ++ [.original s.param.thisObject s.param.args s.world]
      match r.1 with
      | .returned v => finish { s with param := s.param.setResult v, world := r.2, trace := trace }
      | .targetException cause =>
        finish { s with param := s.param.setThrowable (some cause), world := r.2, trace := trace }
      -- not an `InvocationTargetException`: it leaves the handler at once
      | .failed e => { outcome := .throws e, world := r.2, trace := trace, log := s.log }

end Bridge

end Dynamicloader
