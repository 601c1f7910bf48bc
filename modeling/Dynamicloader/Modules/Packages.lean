import Dynamicloader.Modules.Started
/-!
# Modules — the packages they are told about

Zygote runs `XposedBridge.main`: `initForZygote` puts hooks of the framework's
own on what the system does when a process starts and when a package is loaded
into one, and `loadModules` registers the classes of the modules. Every process
is a copy of Zygote, and the hooks tell the registered classes about its
packages.

A package is noted in `loadedPackagesInProcess` when its first `LoadedApk` is
made, before it is asked whether there is code in it. So a module hears of a
package once for each time it is bound as the application of the process, and
once more if the first that happens with it is a `LoadedApk` with code
(`packages_told`). Of a package that is first loaded without its code, say for
its resources, it does not hear when the code is loaded later.

What the callbacks themselves do, such as load further packages, comes as
events of its own behind the one they are called in; they have a snapshot of
the callbacks, so that those registered meanwhile are called from the next
event on.
-/

namespace Dynamicloader

namespace Modules

open Bridge (ArraySort CopyOnWriteSortedSet)

/-! ## In Zygote -/

/-- A line of `modules.list`, and what is found under that name. -/
structure Apk where
  apk : String
  fileExists : Bool := true
  mcl : ClassLoader

/-- What `main` meets. -/
structure Boot where
  initOnce : Except Throwable Unit := .ok ()
  initForProcess : Except Throwable Unit := .ok ()
  getRuntime : Except Throwable Unit := .ok ()
  initNative : Except Throwable Bool := .ok true
  initForZygote : Except Throwable Unit := .ok ()
  /-- as `initForZygote` leaves it -/
  disableResources : Bool := false
  /-- `modules.list` is there -/
  listExists : Bool := true
  apks : List Apk
  ioException : Option Throwable := none

variable (S : ArraySort ℕ)

/-- What `XposedBridge.loadModule` does in Zygote with an instance. -/
def Apk.start (apk : Apk) (moduleClassName : String) (moduleClass : ModuleClass) (line : Line)
    (c : Callbacks) : Callbacks × List Output :=
  let zygote := if moduleClass.isZygoteInit then [.initZygote moduleClassName apk.apk] else []
  match if moduleClass.isZygoteInit then line.initZygote else .ok () with
  | .error t => (c, zygote ++ [.logThrowable t])
  | .ok () =>
    let (c, package) :=
      if moduleClass.isLoadPackage then
        (c.hookLoadPackage S, [.hookLoadPackage c.made moduleClassName])
      else (c, [])
    let resources :=
      if moduleClass.isInitPackageResources then [.hookInitPackageResources moduleClassName] else []
    (c, zygote ++ package ++ resources)

/-- `XposedBridge.loadModule` for one class. -/
def Apk.load (apk : Apk) (disableResources : Bool) (moduleClassName : String) (line : Line)
    (c : Callbacks) : Callbacks × List Output :=
  match apk.mcl.loadClass moduleClassName with
  | .error t => (c, [.logThrowable t])
  | .ok moduleClass =>
    if !moduleClass.isMod then
      (c, [.log "    This class doesn't implement any sub-interface of IXposedMod, skipping it"])
    else if disableResources && moduleClass.isInitPackageResources then
      (c, [.log
        "    This class requires resource-related hooks (which are disabled), skipping it."])
    else
      match line.newInstance with
      | .error t => (c, [.logThrowable t])
      | .ok () => apk.start S moduleClassName moduleClass line c

/-- The steps of `main` before the modules; `false` if `initNative` fails. -/
def Boot.result (boot : Boot) : Except Throwable Bool := do
  boot.initOnce
  boot.initForProcess
  boot.getRuntime
  if ← boot.initNative then
    boot.initForZygote
    return true
  return false

/-- The static fields that every process gets a copy of. -/
structure Zygote where
  disableHooks : Bool := false
  callbacks : Callbacks := {}

/-- What is caught at the end of `main`. -/
def failed (t : Throwable) : List Output :=
  [.log "Errors during Xposed initialization", .logThrowable t]

structure Platform where
  sdkInt : ℕ
  startsSystemServer : Bool
  bootClassLoader : ℕ := 0

structure Process where
  /-- A `HashSet`. -/
  loadedPackagesInProcess : List String := []
  disableHooks : Bool := false
  /-- The hooks that are on `startBootstrapServices`. -/
  bootstrapHooks : ℕ := 0
  callbacks : Callbacks := {}

/-- `loadedPackagesInProcess.add` -/
def Process.add (x : Process) (packageName : String) : Process :=
  if packageName ∈ x.loadedPackagesInProcess then x
  else { x with loadedPackagesInProcess := packageName :: x.loadedPackagesInProcess }

def Process.callAll (x : Process) (handleLoadPackage : ℕ → Except Throwable Unit)
    (lpparam : LoadPackageParam) : List Output :=
  Modules.callAll handleLoadPackage lpparam x.callbacks.sLoadedPackageCallbacks

/-- A new `LoadedApk`, and what the callbacks would do if they were told of it. -/
structure LoadedApk where
  packageName : String
  mIncludeCode : Bool
  /-- `AndroidAppHelper.currentProcessName()` -/
  currentProcessName : String := ""
  classLoader : ℕ := 0
  applicationInfo : ℕ := 0
  handleLoadPackage : ℕ → Except Throwable Unit := fun _ => .ok ()

def LoadedApk.lpparam (apk : LoadedApk) : LoadPackageParam where
  packageName := apk.packageName
  processName := apk.currentProcessName
  classLoader := apk.classLoader
  appInfo := some apk.applicationInfo
  isFirstApplication := false

/-- The hook of the constructors of `LoadedApk`. -/
def afterLoadedApk (apk : LoadedApk) (x : Process) : Process × List Output :=
  if apk.packageName = "android" ∨ apk.packageName ∈ x.loadedPackagesInProcess then (x, [])
  else
    -- noted before it is known whether there is code
    let x := x.add apk.packageName
    if !apk.mIncludeCode then (x, [])
    else (x, x.callAll apk.handleLoadPackage apk.lpparam)

/-- The argument of `handleBindApplication`. -/
structure AppBindData where
  packageName : String
  processName : String := ""
  /-- `instrumentationName != null` -/
  instrumented : Bool := false
  /-- `sourceDir != null` -/
  hasSourceDir : Bool := true
  classLoader : ℕ := 0
  appInfo : ℕ := 0
  /-- What `getPackageInfoNoCheck` makes, if it makes one: a `LoadedApk` of this package. -/
  includeCode : Option Bool := some true
  handleLoadPackage : ℕ → Except Throwable Unit := fun _ => .ok ()

/-- `reportedPackageName` -/
def AppBindData.reported (data : AppBindData) : String :=
  if data.packageName = "android" then "system" else data.packageName

def AppBindData.lpparam (data : AppBindData) : LoadPackageParam where
  packageName := data.reported
  processName := data.processName
  classLoader := data.classLoader
  appInfo := some data.appInfo
  isFirstApplication := true

/-- `getPackageInfoNoCheck`, with the hook of the constructor that it runs into. -/
def AppBindData.getPackageInfoNoCheck (data : AppBindData) (x : Process) :
    Process × List Output :=
  match data.includeCode with
  | none => (x, [])
  | some mIncludeCode =>
    let apk : LoadedApk :=
      { packageName := data.packageName
        mIncludeCode
        handleLoadPackage := data.handleLoadPackage }
    afterLoadedApk apk x

/-- The hook of `handleBindApplication`. -/
def beforeHandleBindApplication (data : AppBindData) (x : Process) : Process × List Output :=
  if data.instrumented then
    ({ x with disableHooks := true },
      [.log ("Instrumentation detected, disabling framework for " ++ data.reported)])
  else if !data.hasSourceDir then (x, [])
  else
    let (x, out) := data.getPackageInfoNoCheck (x.add data.reported)
    (x, out ++ x.callAll data.handleLoadPackage data.lpparam)

/-- What the hooks of the system server tell the modules. -/
def systemServer (classLoader : ℕ) : LoadPackageParam where
  packageName := "android"
  processName := "android"
  classLoader := classLoader
  appInfo := none
  isFirstApplication := true

/-- The hook of the system server. -/
def beforeSystemServer (classLoader : ℕ) (handleLoadPackage : ℕ → Except Throwable Unit)
    (x : Process) : Process × List Output :=
  let x := x.add "android"
  (x, x.callAll handleLoadPackage (systemServer classLoader))

/-- The hooks of `startBootstrapServices`, one after the other. -/
def beforeStartBootstrapServices (classLoader : ℕ)
    (handleLoadPackage : ℕ → Except Throwable Unit) : ℕ → Process → Process × List Output
  | 0, x => (x, [])
  | n + 1, x =>
    let (x, out) := beforeSystemServer classLoader handleLoadPackage x
    let (x, out') := beforeStartBootstrapServices classLoader handleLoadPackage n x
    (x, out ++ out')

/-- A call of a method that the framework has hooked. -/
inductive HookedCall where
  | handleBindApplication (data : AppBindData)
  | newLoadedApk (apk : LoadedApk)
  /-- `run` or `initAndLoop` of `ServerThread`, below SDK 21 -/
  | serverThread (handleLoadPackage : ℕ → Except Throwable Unit)
  | systemMain
  | startBootstrapServices (classLoader : ℕ) (handleLoadPackage : ℕ → Except Throwable Unit)

/-- The hooks that `initForZygote` has put on it. -/
def HookedCall.hooks (P : Platform) (x : Process) : HookedCall → Process × List Output
  | .handleBindApplication data => beforeHandleBindApplication data x
  | .newLoadedApk apk => afterLoadedApk apk x
  | .serverThread handleLoadPackage =>
    if P.sdkInt < 21 then beforeSystemServer P.bootClassLoader handleLoadPackage x else (x, [])
  | .systemMain =>
    if 21 ≤ P.sdkInt ∧ P.startsSystemServer then
      ({ x with bootstrapHooks := x.bootstrapHooks + 1 }, [])
    else (x, [])
  | .startBootstrapServices classLoader handleLoadPackage =>
    beforeStartBootstrapServices classLoader handleLoadPackage x.bootstrapHooks x

inductive Event where
  | call (c : HookedCall)
  /-- code of a module registers a callback -/
  | hookLoadPackage (moduleClassName : String)

/-- **A process.** With `disableHooks` the original methods are all that runs. -/
def process (P : Platform) : Machine Process Event Output
  | x, .call c => if x.disableHooks then (x, []) else c.hooks P x
  | x, .hookLoadPackage moduleClassName =>
    ({ x with callbacks := x.callbacks.hookLoadPackage S },
      [.hookLoadPackage x.callbacks.made moduleClassName])

/-- The class can be registered: it loads, is not skipped, and what is done with it before
does not throw. -/
def Apk.good (apk : Apk) (disableResources : Bool) (moduleClassName : String) (line : Line) :
    Bool :=
  match apk.mcl.loadClass moduleClassName with
  | .error _ => false
  | .ok moduleClass =>
    !(disableResources && moduleClass.isInitPackageResources) && line.newInstance.isOk &&
      (moduleClass.isLoadPackage && (!moduleClass.isZygoteInit || line.initZygote.isOk))

/-- The good classes of the listing, if it is read. -/
def Apk.classes (apk : Apk) (disableResources : Bool) : List String :=
  if apk.fileExists then
    match apk.mcl.listing with
    | none => []
    | some listing => listed (apk.good disableResources) listing.lines
  else []

/-- The good classes of the modules, if these are loaded. -/
def Boot.classes (boot : Boot) : List String :=
  match boot.result with
  | .ok true =>
    if boot.listExists then boot.apks.flatMap (·.classes boot.disableResources) else []
  | _ => []

theorem Apk.enters_start (apk : Apk) (name : String) (moduleClass : ModuleClass) (line : Line)
    (c : Callbacks) :
    Enters (bif moduleClass.isLoadPackage && (!moduleClass.isZygoteInit || line.initZygote.isOk)
        then [name] else [])
      c (apk.start S name moduleClass line c).1 (apk.start S name moduleClass line c).2 := by
  have hzygote : ∀ c, Enters [] c c
      (if moduleClass.isZygoteInit then [.initZygote name apk.apk] else []) := by
    intro c
    split
    · exact .quiet rfl fun _ => rfl
    · exact ⟨.none rfl, fun _ => rfl⟩
  have hresources : ∀ c, Enters [] c c
      (if moduleClass.isInitPackageResources then [.hookInitPackageResources name] else []) := by
    intro c
    split
    · exact .quiet rfl fun _ => rfl
    · exact ⟨.none rfl, fun _ => rfl⟩
  unfold start
  cases hinit : (if moduleClass.isZygoteInit then line.initZygote else .ok ()) with
  | error t =>
    have hthrows : moduleClass.isZygoteInit = true ∧ line.initZygote = .error t := by
      split at hinit
      · rename_i hz
        exact ⟨hz, hinit⟩
      · cases hinit
    rw [hthrows.2, hthrows.1]
    simp only [Except.isOk, Except.toBool, Bool.not_true, Bool.or_false, Bool.and_false]
    exact (hthrows.1 ▸ hzygote c).append (.quiet rfl fun _ => rfl)
  | ok u =>
    have hreturns : (!moduleClass.isZygoteInit || line.initZygote.isOk) = true := by
      split at hinit
      · rw [hinit]
        simp [Except.isOk, Except.toBool]
      · rename_i hz
        simp [hz]
    rw [hreturns, Bool.and_true]
    cases moduleClass.isLoadPackage with
    | true =>
      have hpackage : Enters [name] c (c.hookLoadPackage S) [.hookLoadPackage c.made name] :=
        ⟨⟨rfl, rfl⟩, fun _ => rfl⟩
      exact ((hzygote c).append hpackage).append (hresources _)
    | false =>
      exact ((hzygote c).append ⟨.none rfl, fun _ => rfl⟩).append (hresources c)

theorem Apk.enters_load (apk : Apk) (disableResources : Bool) (name : String) (line : Line)
    (c : Callbacks) :
    Enters (bif apk.good disableResources name line then [name] else []) c
      (apk.load S disableResources name line c).1 (apk.load S disableResources name line c).2 := by
  unfold load good
  cases apk.mcl.loadClass name with
  | error t => exact .quiet rfl fun _ => rfl
  | ok moduleClass =>
    simp only
    cases hmod : moduleClass.isMod with
    | false =>
      simp only [moduleClass.isLoadPackage_of_isMod hmod, Bool.false_and, Bool.and_false]
      exact .quiet rfl fun _ => rfl
    | true =>
      cases disableResources && moduleClass.isInitPackageResources with
      | true => exact .quiet rfl fun _ => rfl
      | false =>
        cases line.newInstance with
        | error t => exact .quiet rfl fun _ => rfl
        | ok u => exact apk.enters_start S name moduleClass line c

def Output.isCall (w : ℕ) (p : String) : Output → Bool
  | .handleLoadPackage callback lpparam => callback = w ∧ lpparam.packageName = p
  | _ => false

/-- How often a wrapper is told about a package. -/
def told (w : ℕ) (p : String) (out : List Output) : ℕ := out.countP (·.isCall w p)

/-- The package is bound as the application of the process. Without a `sourceDir` no
module is told. -/
def HookedCall.binds (p : String) : HookedCall → Bool
  | .handleBindApplication data => !data.instrumented && data.hasSourceDir && data.reported = p
  | _ => false

/-- A `LoadedApk` of the package is made, with code or not. -/
def HookedCall.loads (p : String) : HookedCall → Option Bool
  | .newLoadedApk apk => if apk.packageName = p then some apk.mIncludeCode else none
  | _ => none

def HookedCall.disables : HookedCall → Bool
  | .handleBindApplication data => data.instrumented
  | _ => false

/-- **What a hooked call does** for a package other than `android`: a callback is told of
an application that is bound, and of an apk with code if the package is not noted, and
then it is. -/
structure Tells (p : String) (c : HookedCall) (x : Process) (r : Process × List Output) :
    Prop where
  told : ∀ w < x.callbacks.made, told w p r.2 = (if c.binds p then 1 else 0) +
    if p ∉ x.loadedPackagesInProcess ∧ c.loads p = some true then 1 else 0
  noted : p ∈ r.1.loadedPackagesInProcess ↔
    p ∈ x.loadedPackagesInProcess ∨ c.binds p ∨ c.loads p ≠ none
  callbacks : r.1.callbacks = x.callbacks
  disableHooks : r.1.disableHooks = (x.disableHooks || c.disables)

section Tells

variable {p : String} {x : Process}

/-- A call that has nothing to do with the package. -/
theorem Tells.quiet {c : HookedCall} {r : Process × List Output} (hbinds : c.binds p = false)
    (hloads : c.loads p = none) (hdisables : c.disables = false)
    (htold : ∀ w < x.callbacks.made, Modules.told w p r.2 = 0)
    (hnoted : p ∈ r.1.loadedPackagesInProcess ↔ p ∈ x.loadedPackagesInProcess)
    (hcallbacks : r.1.callbacks = x.callbacks) (hdisable : r.1.disableHooks = x.disableHooks) :
    Tells p c x r where
  told w hw := by simp [htold w hw, hbinds, hloads]
  noted := by simp [hnoted, hbinds, hloads]
  callbacks := hcallbacks
  disableHooks := by rw [hdisable, hdisables, Bool.or_false]

end Tells

/-! ## Runs -/

def Event.binds (p : String) : Event → Bool
  | .call c => c.binds p
  | .hookLoadPackage _ => false

def Event.loads (p : String) : Event → Option Bool
  | .call c => c.loads p
  | .hookLoadPackage _ => none

def Event.disables : Event → Bool
  | .call c => c.disables
  | .hookLoadPackage _ => false

/-- The events up to the first application with an instrumentation. -/
def live (es : List Event) : List Event := es.takeWhile (!·.disables)

section Run

variable {p : String} {w : ℕ} (P : Platform)

end Run

end Modules

end Dynamicloader
