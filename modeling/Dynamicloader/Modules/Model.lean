import Dynamicloader.Bridge.SortedSet
import Dynamicloader.Common.Machine
import Mathlib.Data.List.DropRight
/-!
# Modules — loading their classes

`Bridge.loadModule` and `XposedBridge.loadModuleFromJar` read a listing of
classes out of an archive, make an instance of each, and put those that
handle loaded packages in `sLoadedPackageCallbacks`, behind a wrapper of
their own. Since the package is loaded already, they then call
`handleLoadPackage` themselves: `Bridge` after each class it registers,
`XposedBridge` once behind the listing. Each time it is `callAll`, which
goes through the whole set.

The two frameworks have their own static fields. What the system and the
code of the modules answer is part of a call: whether the archive is there,
what its class loader finds, and what throws.
-/

namespace Dynamicloader

namespace Modules

open Bridge (ArraySort CopyOnWriteSortedSet)

/-- Something that was thrown, by the text it is logged with. -/
structure Throwable where
  text : String
  deriving DecidableEq

/-- `LoadPackageParam`; class loaders and `ApplicationInfo`s are numbered. -/
structure LoadPackageParam where
  packageName : String
  processName : String
  classLoader : ℕ
  appInfo : Option ℕ
  isFirstApplication : Bool
  deriving DecidableEq

/-- What a call writes to the log, and what it calls. -/
inductive Output where
  | log (text : String)
  | logThrowable (t : Throwable)
  /-- `initNative` returns. -/
  | initNative (result : Bool)
  /-- `init` returns. -/
  | init (result : Bool)
  | initZygote (moduleClassName modulePath : String)
  | initCmdApp (moduleClassName modulePath startClassName : String)
  /-- A new wrapper for an instance of the class is registered. -/
  | hookLoadPackage (callback : ℕ) (moduleClassName : String)
  | hookInitPackageResources (moduleClassName : String)
  | handleLoadPackage (callback : ℕ) (lpparam : LoadPackageParam)
  deriving DecidableEq

/-- What a `try` catches and logs. -/
def logged : Except Throwable Unit → List Output
  | .ok () => []
  | .error t => [.logThrowable t]

/-! ## The listing and its classes -/

/-- A class, by the interfaces of the framework that it implements. -/
structure ModuleClass where
  isZygoteInit : Bool := false
  isLoadPackage : Bool := false
  isInitPackageResources : Bool := false
  isCmdInit : Bool := false

/-- `IBridgeMod` and `IXposedMod` are not implemented directly. -/
def ModuleClass.isMod (moduleClass : ModuleClass) : Bool :=
  moduleClass.isZygoteInit || moduleClass.isLoadPackage || moduleClass.isInitPackageResources ||
    moduleClass.isCmdInit

/-- A line of the listing, and what comes of the calls made for it. -/
structure Line where
  text : String
  newInstance : Except Throwable Unit := .ok ()
  initZygote : Except Throwable Unit := .ok ()
  initCmdApp : Except Throwable Unit := .ok ()
  handleLoadPackage : ℕ → Except Throwable Unit := fun _ => .ok ()

/-- The lines that are read, and whether reading ends in an exception. -/
structure Listing where
  lines : List Line
  ioException : Option Throwable := none

structure ClassLoader where
  toString : String := ""
  /-- The resource with the listing. -/
  listing : Option Listing
  loadClass : String → Except Throwable ModuleClass

/-- `String.trim` -/
def trim (s : String) : String :=
  .ofList ((s.toList.dropWhile (· ≤ ' ')).rdropWhile (· ≤ ' '))

/-- Blank lines and comments. -/
def skipped (moduleClassName : String) : Bool :=
  moduleClassName.isEmpty || moduleClassName.toList.head? = some '#'

/-- One round of the loop over the lines. -/
def readLine {σ : Type} (load : String → Line → σ → σ × List Output) : Machine σ Line Output
  | s, line =>
    let moduleClassName := trim line.text
    if skipped moduleClassName then (s, [])
    else
      let (s, out) := load moduleClassName line s
      (s, .log ("  Loading class " ++ moduleClassName) :: out)

/-! ## The registered callbacks -/

/-- `sLoadedPackageCallbacks`. A wrapper is made for each registration, and
numbered in that order. -/
structure Callbacks where
  sLoadedPackageCallbacks : CopyOnWriteSortedSet ℕ := []
  made : ℕ := 0
  registered : sLoadedPackageCallbacks.Perm (List.range made) := by rfl

variable (S : ArraySort ℕ)

/-- `hookLoadPackage` with a new wrapper. -/
def Callbacks.hookLoadPackage (c : Callbacks) : Callbacks where
  sLoadedPackageCallbacks := (CopyOnWriteSortedSet.add S c.sLoadedPackageCallbacks c.made).2
  made := c.made + 1
  registered := by
    have hnew : c.made ∉ c.sLoadedPackageCallbacks := fun hmem =>
      absurd (List.mem_range.mp (c.registered.mem_iff.mp hmem)) (Nat.lt_irrefl _)
    rw [CopyOnWriteSortedSet.add, if_neg hnew, List.range_succ]
    exact (S.perm _).trans (c.registered.append_right _)

/-- `callAll`: what one callback throws is logged, and the next is called. -/
def callAll (handleLoadPackage : ℕ → Except Throwable Unit) (lpparam : LoadPackageParam) :
    List ℕ → List Output
  | [] => []
  | callback :: callbacks =>
    .handleLoadPackage callback lpparam :: logged (handleLoadPackage callback) ++
      callAll handleLoadPackage lpparam callbacks

/-! ## `Bridge` -/

/-- A call of `Bridge.loadModule`. -/
structure LoadModule where
  apk : String
  startClassName : Option String := none
  classloader : ℕ := 0
  fileExists : Bool := true
  disableResources : Bool := false
  mcl : ClassLoader

def LoadModule.lpparam (call : LoadModule) : LoadPackageParam where
  packageName := "com.tencent.qrom.dynxloaderbridge"
  processName := "com.tencent.qrom.dynxloaderbridge"
  classLoader := call.classloader
  appInfo := none
  isFirstApplication := true

/-- What `loadModule` does with an instance when there is no start class. -/
def LoadModule.start (call : LoadModule) (moduleClassName : String) (moduleClass : ModuleClass)
    (line : Line) (c : Callbacks) : Callbacks × List Output :=
  let zygote := if moduleClass.isZygoteInit then [.initZygote moduleClassName call.apk] else []
  match if moduleClass.isZygoteInit then line.initZygote else .ok () with
  | .error t => (c, zygote ++ [.logThrowable t])
  | .ok () =>
    let (c, package) :=
      if moduleClass.isLoadPackage then
        let c' := c.hookLoadPackage S
        (c', .hookLoadPackage c.made moduleClassName ::
          callAll line.handleLoadPackage call.lpparam c'.sLoadedPackageCallbacks)
      else (c, [])
    let resources :=
      if moduleClass.isInitPackageResources then [.hookInitPackageResources moduleClassName] else []
    (c, zygote ++ package ++ resources)

/-- What `loadModule` does with an instance when there is a start class. -/
def LoadModule.startCmd (call : LoadModule) (startClassName moduleClassName : String)
    (moduleClass : ModuleClass) (line : Line) : List Output :=
  if moduleClass.isCmdInit then
    .initCmdApp moduleClassName call.apk startClassName :: logged line.initCmdApp
  else []

/-- `loadModule` for one class. -/
def LoadModule.load (call : LoadModule) (moduleClassName : String) (line : Line) (c : Callbacks) :
    Callbacks × List Output :=
  match call.mcl.loadClass moduleClassName with
  | .error t => (c, [.logThrowable t])
  | .ok moduleClass =>
    if !moduleClass.isMod then
      (c, [.log "    This class doesn't implement any sub-interface of IBridgeMod, skipping it"])
    else if call.disableResources && moduleClass.isInitPackageResources then
      (c, [.log
        "    This class requires resource-related hooks (which are disabled), skipping it."])
    else
      match line.newInstance with
      | .error t => (c, [.logThrowable t])
      | .ok () =>
        match call.startClassName with
        | none => call.start S moduleClassName moduleClass line c
        | some startClassName =>
          (c, call.startCmd startClassName moduleClassName moduleClass line)

/-- **`Bridge.loadModule`.** `isLibLoaded` is set when the class is. -/
def loadModule (isLibLoaded : Bool) : Machine Callbacks LoadModule Output
  | c, call =>
    let out := [.log ("Loading modules from " ++ call.apk ++ ", startClassName = " ++
      call.startClassName.getD "null" ++ " classloader = ")]
    if !isLibLoaded then (c, out ++ [.log "  So load failed"])
    else if !call.fileExists then (c, out ++ [.log "  File does not exist"])
    else
      match call.mcl.listing with
      | none => (c, out ++ [.log "assets/bridge_init not found in the APK"])
      | some listing =>
        let M := readLine (call.load S)
        (M.run c listing.lines,
          out ++ M.outputs c listing.lines ++ listing.ioException.toList.map .logThrowable)

/-! ## `XposedBridge` -/

/-- The static fields of `XposedBridge`. -/
structure Xposed where
  isZygote : Bool := true
  mInited : Bool := false
  disableHooks : Bool := false
  callbacks : Callbacks := {}

/-- What the steps of `init` come to when they are taken. -/
structure Attempt where
  load : Except Throwable Unit := .ok ()
  initOnce : Except Throwable Unit := .ok ()
  initForProcess : Except Throwable Unit := .ok ()
  getRuntime : Except Throwable Unit := .ok ()
  initNative : Except Throwable Bool := .ok true

/-- The steps in their order, up to the first that throws. -/
def Attempt.result (a : Attempt) : Except Throwable Bool := do
  a.load
  a.initOnce
  a.initForProcess
  a.getRuntime
  a.initNative

/-- **`init`.** -/
def init (a : Attempt) (x : Xposed) : Xposed × List Output :=
  let x := { x with isZygote := false }
  if x.mInited then (x, [.init true])
  else
    match a.result with
    | .ok true => ({ x with mInited := true }, [.initNative true, .init true])
    | .ok false =>
      ({ x with mInited := true },
        [.initNative false, .log "Errors during native Xposed initialization", .init true])
    | .error t =>
      ({ x with disableHooks := true },
        [.log "Errors during Xposed initialization", .logThrowable t, .init false])

/-- `Application`, by what is read of it. -/
structure App where
  packageName : String
  processName : String
  classLoader : ℕ
  applicationInfo : Option ℕ

/-- A call of `loadModuleFromJar`. -/
structure LoadModuleFromJar where
  jar : String
  attempt : Attempt := {}
  fileExists : Bool := true
  app : Option App
  disableResources : Bool := false
  /-- `none` if its constructor throws. -/
  dexClassLoader : Option ClassLoader
  pathClassLoader : ClassLoader
  handleLoadPackage : ℕ → Except Throwable Unit := fun _ => .ok ()

def App.lpparam (app : App) : LoadPackageParam where
  packageName := app.packageName
  processName := app.processName
  classLoader := app.classLoader
  appInfo := app.applicationInfo
  isFirstApplication := true

/-- The class loader, and the line about it. -/
def LoadModuleFromJar.mcl (call : LoadModuleFromJar) : ClassLoader × Output :=
  match call.dexClassLoader with
  | some mcl => (mcl, .log ("  using DexClassLoader mcl : " ++ mcl.toString))
  | none =>
    (call.pathClassLoader,
      .log ("  using PathClassLoader failed : " ++ call.jar ++ ", try DexClassLoader"))

/-- `loadModuleFromJar` for one class. -/
def LoadModuleFromJar.load (call : LoadModuleFromJar) (moduleClassName : String) (line : Line)
    (c : Callbacks) : Callbacks × List Output :=
  match call.mcl.1.loadClass moduleClassName with
  | .error t => (c, [.logThrowable t])
  | .ok moduleClass =>
    if !moduleClass.isMod then
      (c, [.log "    This class doesn't implement any sub-interface of IXposedMod, skipping it"])
    else if call.disableResources && moduleClass.isInitPackageResources then
      (c, [.log
        "    This class requires resource-related hooks (which are disabled), skipping it."])
    else
      match line.newInstance with
      | .error t => (c, [.logThrowable t])
      | .ok () =>
        if moduleClass.isLoadPackage then
          (c.hookLoadPackage S, [.hookLoadPackage c.made moduleClassName])
        else (c, [])

/-- What is behind the listing: the modules are called, unless reading it
has thrown. -/
def LoadModuleFromJar.callModules (call : LoadModuleFromJar) (app : App) (listing : Listing)
    (c : Callbacks) : List Output :=
  match listing.ioException with
  | none => callAll call.handleLoadPackage app.lpparam c.sLoadedPackageCallbacks
  | some e => [.logThrowable e]

/-- `loadModuleFromJar` once `init` has returned true. -/
def LoadModuleFromJar.modules (call : LoadModuleFromJar) (c : Callbacks) :
    Callbacks × List Output :=
  if !call.fileExists then (c, [.log "  File does not exist"])
  else
    match call.app with
    | none => (c, [.log "  Application not found"])
    | some app =>
      match call.mcl.1.listing with
      | none =>
        (c, [call.mcl.2, .log ("assets/xposed_init not found in the Jar(" ++ call.jar ++ ")")])
      | some listing =>
        let M := readLine (call.load S)
        let c' := M.run c listing.lines
        (c', call.mcl.2 :: M.outputs c listing.lines ++ call.callModules app listing c')

/-- **`XposedBridge.loadModuleFromJar`.** -/
def loadModuleFromJar : Machine Xposed LoadModuleFromJar Output
  | x, call =>
    let (x, out) := init call.attempt x
    let out := .log ("Loading modules from " ++ call.jar) :: out
    if !x.mInited then (x, out ++ [.log "  Init Failed"])
    else
      let (c, out') := call.modules S x.callbacks
      ({ x with callbacks := c }, out ++ out')

end Modules

end Dynamicloader
