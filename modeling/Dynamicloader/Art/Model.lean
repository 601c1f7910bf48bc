import Mathlib.Algebra.Ring.Int.Defs
import Mathlib.Data.List.Basic
import Dynamicloader.Common.Machine
/-!
# Art — hooked methods in the runtime of Lollipop

On ART a hook is a flag of the `ArtMethod`. `EnableXposedHook` clones the
method, keeps the clone in an `XposedHookInfo` behind the entry point for
native code, replaces the method by its clone in the frames of all threads, and
makes the invoke handler of proxies the method's compiled code. From then on
whatever else sets entry points (loading and initialising a class, registering
native functions, the stubs of the instrumentation) has to find its way to the
clone.

The methods that classes declare are the first `n` pointers; clones are
allocated behind them. What never changes is in `Dex`: the classes, the code
the oat file has for them and how the runtime was started. `none` is a `CHECK`
that fails, after which there is no process left, or the use of another pointer
for an `XposedHookInfo`. The portable compiler is not built in, and the stacks
are only followed as far as their methods.

`EnableXposedHook` lets all threads run again before it sets the entry points
and the flags of the method. `Runtime.machine` does operations one at a time, a
hook among them; in `Threaded.machine` whatever else there is may come between
the two halves of a hook. Each half is one piece in both.
-/

namespace Dynamicloader

namespace Art

/-! ## Methods -/

def kAccPrivate : UInt32 := 0x0002
def kAccStatic : UInt32 := 0x0008
def kAccNative : UInt32 := 0x0100
def kAccAbstract : UInt32 := 0x0400
def kAccConstructor : UInt32 := 0x00010000
def kAccFastNative : UInt32 := 0x00080000
def kAccXposedHookedMethod : UInt32 := 0x10000000
def kAccXposedOriginalMethod : UInt32 := 0x20000000

/-- An `ArtMethod*`. -/
abbrev Ptr := ℕ

/-- Where compiled code enters a method. -/
inductive Code
  | oat (address : ℕ)
  | toInterpreterBridge
  | toInterpreterBridgeTrampoline
  | resolutionTrampoline
  | genericJniTrampoline
  | proxyInvokeHandler
  | instrumentationEntryPoint
deriving DecidableEq

/-- Where the interpreter enters a method: `artInterpreterToInterpreterBridge`
or `artInterpreterToCompiledCodeBridge`. -/
inductive Bridge
  | toInterpreter
  | toCompiledCode
deriving DecidableEq

/-- A `Method` or `Constructor` object. -/
structure Reflected where
  isConstructor : Bool
  artMethod : Ptr
deriving DecidableEq

structure XposedHookInfo (Info : Type) where
  reflectedMethod : Reflected
  additionalInfo : Info
  originalMethod : Ptr
deriving DecidableEq

/-- What the entry point for native code points to. -/
inductive Jni (Info : Type)
  | null
  | dlsymLookupStub
  | function (address : ℕ)
  | hookInfo (info : XposedHookInfo Info)
deriving DecidableEq

def Jni.isNull {Info : Type} : Jni Info → Bool
  | .null => true
  | _ => false

structure ArtMethod (k : ℕ) (Info : Type) where
  declaringClass : Fin k
  accessFlags : UInt32
  methodIndex : ℕ
  dexMethodIndex : ℕ
  entryPointFromInterpreter : Bridge
  entryPointFromJni : Jni Info
  entryPointFromQuickCompiledCode : Option Code
deriving DecidableEq

/-- A class as the dex file and the oat file have it. -/
structure Class (n : ℕ) where
  isProxyClass : Bool
  /-- Its descriptor is `Ljava/lang/reflect/Proxy;`. -/
  isReflectProxy : Bool
  directMethods : List (Fin n)
  virtualMethods : List (Fin n)
  /-- `FindDirectMethod`, then `FindVirtualMethod`. -/
  find : List Char → List Char → Option (Fin n)
  /-- `FindOatClass`, and the quick code of its methods. -/
  oat : Option (ℕ → Option Code)

/-- A method of a dex file: none of its flags is one of a hook. -/
structure Declared (k : ℕ) where
  declaringClass : Fin k
  accessFlags : UInt32
  methodIndex : ℕ
  dexMethodIndex : ℕ
  noXposed : accessFlags &&& (kAccXposedHookedMethod ||| kAccXposedOriginalMethod) = 0

structure Dex (n k : ℕ) where
  declared : Fin n → Declared k
  classes : Fin k → Class n
  declares : ∀ c, ∀ p ∈ (classes c).directMethods ++ (classes c).virtualMethods,
    (declared p).declaringClass = c
  isStarted : Bool
  useCompileTimeClassPath : Bool
  isCompiler : Bool
  hasImageSpace : Bool

structure Instrumentation where
  instrumentationStubsInstalled : Bool
  entryExitStubsInstalled : Bool
  interpreterStubsInstalled : Bool
  interpretOnly : Bool
  forcedInterpretOnly : Bool
deriving DecidableEq

variable {n k : ℕ} {Info : Type}

namespace ArtMethod

variable (m : ArtMethod k Info)

/-- One of the flags of the mask is set. -/
def has (mask : UInt32) : Bool := m.accessFlags &&& mask != 0

def isStatic : Bool := m.has kAccStatic

def isConstructor : Bool := m.has kAccConstructor

def isNative : Bool := m.has kAccNative

def isAbstract : Bool := m.has kAccAbstract

def isFastNative : Bool :=
  m.accessFlags &&& (kAccFastNative ||| kAccNative) == kAccFastNative ||| kAccNative

/-- `IsDirect(true)`, which leaves the flag of a clone out. -/
def isDirect : Bool := m.has (kAccStatic ||| kAccPrivate ||| kAccConstructor)

def isXposedHookedMethod : Bool := m.has kAccXposedHookedMethod

def isXposedOriginalMethod : Bool := m.has kAccXposedOriginalMethod

def isProxyMethod (K : Class n) : Bool := K.isProxyClass || m.isXposedHookedMethod

def getXposedHookInfo : Option (XposedHookInfo Info) :=
  match m.entryPointFromJni with
  | .hookInfo info => some info
  | _ => none

/-! ## What is done to one method -/

/-- `RegisterNative`, of a method that is not hooked. -/
def registerNative (nativeMethod : Jni Info) (isFast : Bool) : Option (ArtMethod k Info) :=
  if !m.isNative then none
  else if m.isFastNative then none
  else if nativeMethod.isNull then none
  else
    some { m with
      accessFlags := if isFast then m.accessFlags ||| kAccFastNative else m.accessFlags
      entryPointFromJni := nativeMethod }

/-- `UnregisterNative`, of a method that is not hooked. -/
def unregisterNative : Option (ArtMethod k Info) :=
  if m.isNative && !m.isFastNative then m.registerNative .dlsymLookupStub false else none

/-- `UpdateEntrypoints` -/
def updateEntrypoints (I : Instrumentation) (K : Class n) (quickCode : Option Code) :
    ArtMethod k Info :=
  let interpreted := quickCode == some .toInterpreterBridge ||
    quickCode == some .toInterpreterBridgeTrampoline ||
    (quickCode == some .resolutionTrampoline && I.forcedInterpretOnly && !m.isNative &&
      !m.isProxyMethod K)
  { m with
    entryPointFromQuickCompiledCode := quickCode
    entryPointFromInterpreter := if interpreted then .toInterpreter else .toCompiledCode }

/-- `UpdateMethodsCode` -/
def updateMethodsCode (I : Instrumentation) (K : Class n) (isDeoptimized : Bool)
    (quickCode : Option Code) : ArtMethod k Info :=
  if !I.instrumentationStubsInstalled then m.updateEntrypoints I K quickCode
  else if (I.interpreterStubsInstalled || isDeoptimized) && !m.isNative then
    m.updateEntrypoints I K (some .toInterpreterBridge)
  else if quickCode == some .resolutionTrampoline ||
      quickCode == some .toInterpreterBridgeTrampoline ||
      quickCode == some .toInterpreterBridge then m.updateEntrypoints I K quickCode
  else if I.entryExitStubsInstalled then m.updateEntrypoints I K (some .instrumentationEntryPoint)
  else m.updateEntrypoints I K quickCode

/-- `FindOatMethodFor`, and the quick code of what it finds. A virtual method
is found by its index among those its class declares. -/
def findOatMethodFor (K : Class n) (virtualIndices : List (Option ℕ)) : Option (Option Code) :=
  let oatMethodIndex :=
    if m.isStatic || m.isDirect then some m.methodIndex
    else
      (virtualIndices.findIdx? (· == some m.dexMethodIndex)).map (K.directMethods.length + ·)
  oatMethodIndex.map fun i => K.oat.bind (· i)

/-- `GetQuickOatCodeFor` -/
def getQuickOatCodeFor (K : Class n) (virtualIndices : List (Option ℕ)) : Option Code :=
  if m.isAbstract then none
  else if m.isProxyMethod K then some .proxyInvokeHandler
  else
    (m.findOatMethodFor K virtualIndices).map
      (·.getD (if m.isNative then .genericJniTrampoline else .toInterpreterBridge))

/-- `NeedsInterpreter` -/
def needsInterpreter (I : Instrumentation) (K : Class n) (quickCode : Option Code) : Bool :=
  if quickCode.isNone then true
  else I.interpretOnly && !m.isNative && !m.isProxyMethod K

/-- `new_quick_code` in `InstallStubsForMethod`. -/
def newQuickCode (I : Instrumentation) (K : Class n) (isClassInitialized isDeoptimized : Bool)
    (virtualIndices : List (Option ℕ)) : Option Code :=
  let linked := isClassInitialized || !m.isStatic || m.isConstructor
  if !I.entryExitStubsInstalled && !I.interpreterStubsInstalled then
    if (I.forcedInterpretOnly || isDeoptimized) && !m.isNative then some .toInterpreterBridge
    else if linked then m.getQuickOatCodeFor K virtualIndices
    else some .resolutionTrampoline
  else if (I.interpreterStubsInstalled || I.forcedInterpretOnly || isDeoptimized) &&
      !m.isNative then some .toInterpreterBridge
  else if linked then
    if I.entryExitStubsInstalled then some .instrumentationEntryPoint
    else m.getQuickOatCodeFor K virtualIndices
  else some .resolutionTrampoline

/-- `InstallStubsForMethod`, of a method that is not hooked. -/
def installStubs (I : Instrumentation) (K : Class n) (isClassInitialized isDeoptimized : Bool)
    (virtualIndices : List (Option ℕ)) : Option (ArtMethod k Info) :=
  if m.isAbstract || m.isProxyMethod K then some m
  else if m.isConstructor && K.isReflectProxy then some m
  else
    (m.newQuickCode I K isClassInitialized isDeoptimized virtualIndices).map fun newQuickCode =>
      m.updateEntrypoints I K (some newQuickCode)

/-- What `FixupStaticTrampolines` does to a static method that is not hooked. -/
def fixup (I : Instrumentation) (K : Class n) (isDeoptimized : Bool) (quickCode : Option Code) :
    ArtMethod k Info :=
  m.updateMethodsCode I K isDeoptimized <| some <|
    if m.needsInterpreter I K quickCode then
      if quickCode.isNone && m.isNative then .genericJniTrampoline else .toInterpreterBridge
    else quickCode.getD .toInterpreterBridge

/-- `LinkCode`, of a method that has just been loaded. -/
def linkCode (D : Dex n k) (I : Instrumentation) (K : Class n) (isDeoptimized : Bool)
    (methodIndex : ℕ) : Option (ArtMethod k Info) :=
  if D.isCompiler then some m
  else
    let quickCode := K.oat.elim m.entryPointFromQuickCompiledCode (· methodIndex)
    let enterInterpreter := m.needsInterpreter I K quickCode
    let m₁ : ArtMethod k Info := { m with
      entryPointFromInterpreter :=
        if enterInterpreter && !m.isNative then .toInterpreter else .toCompiledCode }
    if m.isAbstract then
      some { m₁ with entryPointFromQuickCompiledCode := some .toInterpreterBridge }
    else
      let quickCode₁ :=
        if m.isStatic && !m.isConstructor then some .resolutionTrampoline
        else if enterInterpreter then
          if !m.isNative then some .toInterpreterBridge else some .genericJniTrampoline
        else quickCode
      (if m.isNative then m₁.unregisterNative else some m₁).map fun m₂ =>
        m₂.updateMethodsCode I K isDeoptimized quickCode₁

/-- The clone of `EnableXposedHook`. -/
def backup : ArtMethod k Info :=
  { m with accessFlags := m.accessFlags ||| kAccXposedOriginalMethod }

/-- What `EnableXposedHook` does to the method when the threads run again: its
entry points, then its flags. -/
def intercepted : ArtMethod k Info :=
  { m with
    entryPointFromQuickCompiledCode := some .proxyInvokeHandler
    entryPointFromInterpreter := .toCompiledCode
    accessFlags := (m.accessFlags &&& ~~~kAccNative) ||| kAccXposedHookedMethod }

/-- What `EnableXposedHook` makes of the method itself. -/
def hooked (hookInfo : XposedHookInfo Info) : ArtMethod k Info :=
  { m with entryPointFromJni := .hookInfo hookInfo }.intercepted

end ArtMethod

/-! ## The runtime -/

inductive Status
  | absent
  | loaded
  | initialized
deriving DecidableEq

/-- The method in a frame, and whether the invoke handler of proxies took the
call for one of a hooked method. -/
structure Frame where
  method : Ptr
  isXposed : Bool
deriving DecidableEq

structure Runtime (k : ℕ) (Info : Type) where
  methods : List (ArtMethod k Info)
  status : Fin k → Status
  instrumentation : Instrumentation
  deoptimizedMethods : List Ptr
  threadList : List (List Frame)

namespace Runtime

variable (D : Dex n k) (s : Runtime k Info)

/-- Does something to one method. -/
def modify (p : Ptr) (f : ArtMethod k Info → Option (ArtMethod k Info)) :
    Option (Runtime k Info) := do
  let m ← s.methods[p]?
  let m' ← f m
  some { s with methods := s.methods.set p m' }

/-- `if (method->IsXposedHookedMethod()) method = method->GetXposedOriginalMethod();` -/
def original (p : Ptr) : Option Ptr := do
  let m ← s.methods[p]?
  if m.isXposedHookedMethod then
    let info ← m.getXposedHookInfo
    some info.originalMethod
  else some p

/-- Where `RegisterNative` and `UnregisterNative` end, which pass the call on
to the original of a hooked method. -/
def chase : ℕ → Ptr → Option Ptr
  | 0, _ => none
  | fuel + 1, p => do
    let m ← s.methods[p]?
    if m.isXposedHookedMethod then
      let info ← m.getXposedHookInfo
      chase fuel info.originalMethod
    else some p

def registerNative (p : Ptr) (nativeMethod : Jni Info) (isFast : Bool) :
    Option (Runtime k Info) := do
  let q ← s.chase s.methods.length p
  s.modify q (·.registerNative nativeMethod isFast)

def unregisterNative (p : Ptr) : Option (Runtime k Info) := do
  let q ← s.chase s.methods.length p
  s.modify q (·.unregisterNative)

/-- `IsDeoptimized` -/
def isDeoptimized (p : Ptr) : Bool := s.deoptimizedMethods.contains p

/-- The dex indices of the virtual methods of a class. -/
def virtualIndices (K : Class n) : List (Option ℕ) :=
  K.virtualMethods.map fun p : Fin n => (s.methods[(p : ℕ)]?).map (·.dexMethodIndex)

/-- `IsInitialized` -/
def isInitialized (c : Fin k) : Bool := s.status c == .initialized

/-- `InstallStubsForMethod` -/
def installStubsForMethod (p : Ptr) : Option (Runtime k Info) := do
  let q ← s.original p
  s.modify q fun m =>
    let K := D.classes m.declaringClass
    m.installStubs s.instrumentation K (s.isInitialized m.declaringClass) (s.isDeoptimized q)
      (s.virtualIndices K)

/-- `InstallStubsForClass` -/
def installStubsForClass (c : Fin k) : Option (Runtime k Info) :=
  if s.status c = .absent then some s
  else
    ((D.classes c).directMethods ++ (D.classes c).virtualMethods).foldlM
      (fun s (p : Fin n) => s.installStubsForMethod D p) s

/-- One turn of the loop of `FixupStaticTrampolines`. -/
def fixupStaticTrampoline (c : Fin k) (p : Fin n) (methodIndex : ℕ) :
    Option (Runtime k Info) := do
  let m ← s.methods[(p : ℕ)]?
  if !m.isStatic then some s
  else
    let quickCode := (D.classes c).oat.bind (· methodIndex)
    let q ← s.original p
    s.modify q fun m =>
      some (m.fixup s.instrumentation (D.classes m.declaringClass) (s.isDeoptimized q) quickCode)

/-- `FixupStaticTrampolines` -/
def fixupStaticTrampolines (c : Fin k) : Option (Runtime k Info) :=
  if (!D.isStarted || D.useCompileTimeClassPath) && (D.isCompiler || D.hasImageSpace) then some s
  else
    (D.classes c).directMethods.zipIdx.foldlM
      (fun s (x : Fin n × ℕ) => s.fixupStaticTrampoline D c x.1 x.2) s

/-- The last step of `InitializeClass`. -/
def initializeClass (c : Fin k) : Option (Runtime k Info) :=
  if s.status c = .loaded then
    fixupStaticTrampolines D { s with status := Function.update s.status c .initialized } c
  else some s

/-- `LinkCode` for the methods of a class, the last step of `LoadClass`. -/
def loadClass (c : Fin k) : Option (Runtime k Info) :=
  if s.status c = .absent then
    ((D.classes c).directMethods ++ (D.classes c).virtualMethods).zipIdx.foldlM
      (fun s (x : Fin n × ℕ) => s.modify x.1 fun m =>
        m.linkCode D s.instrumentation (D.classes m.declaringClass) (s.isDeoptimized x.1) x.2)
      { s with status := Function.update s.status c .loaded }
  else some s

/-- `VisitClasses(InstallStubsClassVisitor, this)` -/
def installStubsForClasses : Option (Runtime k Info) :=
  (List.finRange k).foldlM (fun s c => s.installStubsForClass D c) s

/-- `desired_level` -/
def desiredLevel (requireEntryExitStubs requireInterpreter : Bool) : ℕ :=
  if requireInterpreter then 2 else if requireEntryExitStubs then 1 else 0

/-- `current_level` -/
def currentLevel (I : Instrumentation) : ℕ :=
  if I.interpreterStubsInstalled then 2 else if I.entryExitStubsInstalled then 1 else 0

/-- The flag of the stubs that are required. -/
def withStubs (I : Instrumentation) (requireInterpreter : Bool) : Instrumentation :=
  if requireInterpreter then { I with interpreterStubsInstalled := true }
  else { I with entryExitStubsInstalled := true }

/-- `ConfigureStubs` -/
def configureStubs (requireEntryExitStubs requireInterpreter : Bool) : Option (Runtime k Info) :=
  let I : Instrumentation :=
    { s.instrumentation with
      interpretOnly := requireInterpreter || s.instrumentation.forcedInterpretOnly }
  let desired := desiredLevel requireEntryExitStubs requireInterpreter
  if desired = currentLevel s.instrumentation then some { s with instrumentation := I }
  else if 0 < desired then
    let I := withStubs I requireInterpreter
    (installStubsForClasses D { s with instrumentation := I }).map fun t =>
      { t with instrumentation := { I with instrumentationStubsInstalled := true } }
  else
    let I := { I with interpreterStubsInstalled := false, entryExitStubsInstalled := false }
    (installStubsForClasses D { s with instrumentation := I }).map fun t =>
      if t.deoptimizedMethods.isEmpty then
        { t with instrumentation := { I with instrumentationStubsInstalled := false } }
      else t

/-- The checks of `Deoptimize` and `Undeoptimize`. -/
def mayDeoptimize (m : ArtMethod k Info) : Bool :=
  !m.isNative && !m.isProxyMethod (D.classes m.declaringClass) && !m.isAbstract

/-- `Deoptimize` -/
def deoptimize (p : Ptr) : Option (Runtime k Info) := do
  let m ← s.methods[p]?
  if !mayDeoptimize D m || s.isDeoptimized p then none
  else
    let I := s.instrumentation
    let t := { s with deoptimizedMethods := p :: s.deoptimizedMethods }
    if I.interpreterStubsInstalled then some t
    else
      modify { t with instrumentation := { I with instrumentationStubsInstalled := true } } p
        fun m => some (m.updateEntrypoints I (D.classes m.declaringClass)
          (some .instrumentationEntryPoint))

/-- The code that `Undeoptimize` restores. -/
def restoredCode (m : ArtMethod k Info) : Option Code :=
  if m.isStatic && !m.isConstructor && !s.isInitialized m.declaringClass then
    some .resolutionTrampoline
  else
    let K := D.classes m.declaringClass
    m.getQuickOatCodeFor K (s.virtualIndices K)

/-- `Undeoptimize` -/
def undeoptimize (p : Ptr) : Option (Runtime k Info) := do
  let m ← s.methods[p]?
  if !mayDeoptimize D m || !s.isDeoptimized p then none
  else
    let I := s.instrumentation
    let t := { s with deoptimizedMethods := s.deoptimizedMethods.erase p }
    if I.interpreterStubsInstalled then some t
    else
      let t := if t.deoptimizedMethods.isEmpty then
        { t with instrumentation := { I with instrumentationStubsInstalled := false } } else t
      t.modify p fun m => (s.restoredCode D m).map fun quickCode =>
        m.updateEntrypoints I (D.classes m.declaringClass) (some quickCode)

/-! ### Native functions -/

def JNI_OK : ℤ := 0

def JNI_ERR : ℤ := -1

/-- `JNINativeMethod` -/
structure NativeMethod where
  name : Option (List Char)
  signature : Option (List Char)
  fnPtr : Option ℕ

/-- `IsNative()` of the method, or of the original of a hooked one. -/
def isNativeOrHooksNative (p : Ptr) : Option Bool := do
  let m ← s.methods[p]?
  if m.isNative then some true
  else if m.isXposedHookedMethod then
    let info ← m.getXposedHookInfo
    let original ← s.methods[info.originalMethod]?
    some original.isNative
  else some false

/-- The method that is named, its function, and whether it is a fast native,
by the `!` before its signature. -/
def NativeMethod.resolve (K : Class n) (x : NativeMethod) : Option (Fin n × ℕ × Bool) := do
  let name ← x.name
  let sig ← x.signature
  let fnPtr ← x.fnPtr
  let isFast := sig.head? == some '!'
  let p ← K.find name (if isFast then sig.tail else sig)
  some (p, fnPtr, isFast)

/-- `RegisterNatives` -/
def registerNatives (c : Fin k) : List NativeMethod → Runtime k Info →
    Option (Runtime k Info × ℤ)
  | [], s => some (s, JNI_OK)
  | x :: xs, s =>
    match x.resolve (D.classes c) with
    | none => some (s, JNI_ERR)
    | some (p, fnPtr, isFast) => do
      if !(← s.isNativeOrHooksNative p) then some (s, JNI_ERR)
      else
        let t ← s.registerNative p (.function fnPtr) isFast
        registerNatives c xs t

/-- `UnregisterNatives` -/
def unregisterNatives (c : Fin k) : Option (Runtime k Info) :=
  ((D.classes c).directMethods ++ (D.classes c).virtualMethods).foldlM
    (fun s (p : Fin n) => do
      if ← s.isNativeOrHooksNative p then s.unregisterNative p else some s) s

/-! ### Hooks -/

/-- `StackReplaceMethod` -/
def stackReplaceMethod (search replace : Ptr) (stack : List Frame) : List Frame :=
  stack.map fun f => if f.method = search then { f with method := replace } else f

/-- What a call of `EnableXposedHook` comes to. -/
inductive Hooking
  | alreadyHooked
  | illegalArgument
  | hooked
deriving DecidableEq

/-- `hookInfo` in `EnableXposedHook`. The clone is behind all other methods. -/
def newHookInfo (m : ArtMethod k Info) (additionalInfo : Info) : XposedHookInfo Info where
  reflectedMethod := ⟨m.isConstructor, s.methods.length⟩
  additionalInfo := additionalInfo
  originalMethod := s.methods.length

/-- What `EnableXposedHook` does for a method that can be hooked, up to
`ResumeAll`: the clone, the information in the place of the native function, and
the clone on the stacks. -/
def prepare (p : Ptr) (m : ArtMethod k Info) (additionalInfo : Info) : Runtime k Info :=
  let hookInfo := s.newHookInfo m additionalInfo
  { s with
    methods := (s.methods ++ [m.backup]).set p { m with entryPointFromJni := .hookInfo hookInfo }
    threadList := s.threadList.map (stackReplaceMethod p hookInfo.originalMethod) }

/-- What it does after `ResumeAll`. -/
def intercept (p : Ptr) : Runtime k Info :=
  { s with methods := s.methods.modify p (·.intercepted) }

/-- `EnableXposedHook` up to `ResumeAll`. -/
def enableUntilResumeAll (p : Ptr) (additionalInfo : Info) :
    Option (Runtime k Info × Hooking) := do
  let m ← s.methods[p]?
  if m.isXposedHookedMethod then some (s, .alreadyHooked)
  else if m.isXposedOriginalMethod then some (s, .illegalArgument)
  else some (s.prepare p m additionalInfo, .hooked)

/-- The end of `EnableXposedHook`, unless it has returned before. -/
def enableAfterResumeAll (p : Ptr) : Hooking → Runtime k Info
  | .alreadyHooked => s
  | .illegalArgument => s
  | .hooked => s.intercept p

/-- `EnableXposedHook`, with no other thread in between. -/
def enableXposedHook (p : Ptr) (additionalInfo : Info) : Option (Runtime k Info × Hooking) :=
  (s.enableUntilResumeAll p additionalInfo).map fun x => (x.1.enableAfterResumeAll p x.2, x.2)

/-- The method that `invokeOriginalMethodNative` hands to `InvokeMethod`. -/
def invokeOriginalMethodNative (javaMethod : Ptr) (isResolved : Bool) : Option Ptr :=
  if isResolved then some javaMethod
  else do
    let m ← s.methods[javaMethod]?
    if m.isXposedHookedMethod then
      let info ← m.getXposedHookInfo
      some info.reflectedMethod.artMethod
    else some javaMethod

/-- A thread enters a method by its compiled code. The handler of proxies asks
for the flag. -/
def call (thread : ℕ) (p : Ptr) : Runtime k Info :=
  (s.methods[p]?).elim s fun m =>
    let isXposed :=
      m.entryPointFromQuickCompiledCode == some .proxyInvokeHandler && m.isXposedHookedMethod
    { s with threadList := s.threadList.modify thread (⟨p, isXposed⟩ :: ·) }

end Runtime

/-! ## Runs -/

inductive Op (n k : ℕ) (Info : Type)
  | loadClass (c : Fin k)
  | initializeClass (c : Fin k)
  | registerNatives (c : Fin k) (methods : List Runtime.NativeMethod)
  | unregisterNatives (c : Fin k)
  | configureStubs (requireEntryExitStubs requireInterpreter : Bool)
  | deoptimize (p : Fin n)
  | undeoptimize (p : Fin n)
  | hook (p : Ptr) (additionalInfo : Info)
  | call (thread : ℕ) (p : Ptr)
  | invokeOriginal (thread : ℕ) (javaMethod : Ptr) (isResolved : Bool)
  | leave (thread : ℕ)

inductive Out (Info : Type)
  | jni (result : ℤ)
  | hooking (p : Ptr) (additionalInfo : Info) (result : Runtime.Hooking)

namespace Runtime

variable (D : Dex n k)

/-- The class of the method is there. -/
def isLoaded (s : Runtime k Info) (p : Ptr) : Bool :=
  (s.methods[p]?).any fun m => s.status m.declaringClass != .absent

/-- What happens to a runtime when operations are done one at a time, each in one
piece. Natives are registered, and methods found by reflection or by a debugger,
once their class is there. -/
def step (s : Runtime k Info) : Op n k Info → Option (Runtime k Info × List (Out Info))
  | .loadClass c => (s.loadClass D c).map (·, [])
  | .initializeClass c => (s.initializeClass D c).map (·, [])
  | .registerNatives c xs =>
    if s.status c = .absent then some (s, [])
    else (registerNatives D c xs s).map fun x => (x.1, [.jni x.2])
  | .unregisterNatives c =>
    if s.status c = .absent then some (s, [])
    else (s.unregisterNatives D c).map (·, [.jni JNI_OK])
  | .configureStubs entryExit interpreter =>
    (s.configureStubs D entryExit interpreter).map (·, [])
  | .deoptimize p => if s.isLoaded p then (s.deoptimize D p).map (·, []) else some (s, [])
  | .undeoptimize p => if s.isLoaded p then (s.undeoptimize D p).map (·, []) else some (s, [])
  | .hook p info =>
    if s.isLoaded p then
      (s.enableXposedHook p info).map fun x => (x.1, [.hooking p info x.2])
    else some (s, [])
  | .call thread p => some (s.call thread p, [])
  | .invokeOriginal thread javaMethod isResolved =>
    if s.isLoaded javaMethod then
      (s.invokeOriginalMethodNative javaMethod isResolved).map fun p => (s.call thread p, [])
    else some (s, [])
  | .leave thread => some ({ s with threadList := s.threadList.modify thread List.tail }, [])

/-- A run goes on for as long as no `CHECK` fails. -/
def machine : Machine (Option (Runtime k Info)) (Op n k Info) (Out Info)
  | none, _ => (none, [])
  | some s, op => ((s.step D op).map (·.1), (s.step D op).elim [] (·.2))

end Runtime

/-! ## Threads in the middle of a hook -/

/-- A runtime, and the methods for which a thread has come to `ResumeAll` in
`EnableXposedHook` and not to its end. -/
structure Threaded (k : ℕ) (Info : Type) where
  runtime : Runtime k Info
  resumed : List Ptr

/-- What a thread does before another gets its turn: an operation, a hook only
up to `ResumeAll`, or the end of a hook. -/
inductive Piece (n k : ℕ) (Info : Type)
  | op (op : Op n k Info)
  | finish (p : Ptr)

namespace Threaded

variable (D : Dex n k)

def step (t : Threaded k Info) : Piece n k Info → Option (Threaded k Info × List (Out Info))
  | .op (.hook p info) =>
    if t.runtime.isLoaded p then
      (t.runtime.enableUntilResumeAll p info).map fun x =>
        (⟨x.1, if x.2 = .hooked then p :: t.resumed else t.resumed⟩, [.hooking p info x.2])
    else some (t, [])
  | .op op => (t.runtime.step D op).map fun x => (⟨x.1, t.resumed⟩, x.2)
  | .finish p =>
    if p ∈ t.resumed then some (⟨t.runtime.intercept p, t.resumed.erase p⟩, [])
    else some (t, [])

def machine : Machine (Option (Threaded k Info)) (Piece n k Info) (Out Info)
  | none, _ => (none, [])
  | some t, e => ((t.step D e).map (·.1), (t.step D e).elim [] (·.2))

end Threaded

/-- A method that has no code yet. -/
def Declared.unlinked (d : Declared k) : ArtMethod k Info where
  declaringClass := d.declaringClass
  accessFlags := d.accessFlags
  methodIndex := d.methodIndex
  dexMethodIndex := d.dexMethodIndex
  entryPointFromInterpreter := .toCompiledCode
  entryPointFromJni := .null
  entryPointFromQuickCompiledCode := none

/-- A runtime that has loaded nothing yet, with its threads. -/
def boot (D : Dex n k) (forcedInterpretOnly : Bool) (threads : ℕ) : Runtime k Info where
  methods := List.ofFn fun p => (D.declared p).unlinked
  status _ := .absent
  instrumentation := ⟨false, false, false, forcedInterpretOnly, forcedInterpretOnly⟩
  deoptimizedMethods := []
  threadList := List.replicate threads []

/-- A class with one native method. -/
def oneNative : Dex 1 1 where
  declared _ := ⟨0, kAccNative, 0, 0, by decide⟩
  classes _ := ⟨false, false, [0], [], fun _ _ => some 0, none⟩
  declares c _ _ := Subsingleton.elim _ _
  isStarted := true
  useCompileTimeClassPath := false
  isCompiler := false
  hasImageSpace := true

end Art

end Dynamicloader
