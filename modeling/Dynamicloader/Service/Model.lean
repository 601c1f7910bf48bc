import Dynamicloader.Common.Machine
import Dynamicloader.Common.Store
import Mathlib.Data.Int.Notation
/-!
# DynXloaderService

The service keeps a registry of modules in memory and in its preferences,
watches for the start of the processes they belong to, and sends a load
command when one of them runs. Calls, broadcasts and delayed messages are
the inputs of a machine, and load commands its outputs. Each input is
handled to its end before the next; a delayed message can arrive at any
time and in any order.

Strings are nullable as in the source. An exception in a call goes to the
caller and leaves what was done before it. An exception in the handler or
the receiver ends the process, and the service is started again.

The package manager and the activity manager are parameters. What
`preloadDex` does to the dex cache is left out; when it throws is not.
-/

namespace Dynamicloader

namespace Service

/-- The exceptions the code can meet. -/
inductive Throwable where
  | nullPointerException
  | classCastException
  | indexOutOfBoundsException
  deriving DecidableEq

/-- `a.equals(b)` on strings. -/
def equals : Option String → Option String → Except Throwable Bool
  | none, _ => .error .nullPointerException
  | some a, b => .ok (b = some a)

/-! ## The data -/

structure ModuleInfo where
  pkgName : Option String := none
  processName : Option String := none
  modulePath : Option String := none
  deriving DecidableEq

/-- A load command: the arguments of `Xloader.xload`. -/
structure Load where
  packageName : Option String
  processName : Option String
  modulePath : Option String
  deriving DecidableEq

/-- What a preference holds. -/
inductive PrefValue where
  | int (i : ℤ)
  | string (s : String)
  deriving DecidableEq

/-- The `SharedPreferences` of the name `module_list`. -/
abbrev Prefs := Store String PrefValue

/-- The `what` of a message. -/
inductive What where
  | checkProcessWhetherExist
  | xloaderSystemServerStartprocess
  | checkProcessHadStartedBeforeAddmodule
  | checkHadStartedBeforeXloaderservice
  deriving DecidableEq

/-- The fields of `DynXloaderServiceImpl`, the messages that wait in the
handler's queue, and the stored preferences. -/
structure State where
  moduleList : List ModuleInfo := []
  pendingModuleList : List ModuleInfo := []
  curAddModule : Option ModuleInfo := none
  checkNums : ℕ := 0
  queue : List What := []
  prefs : Prefs := fun _ => none

/-! ## The platform -/

/-- `ActivityManager.RunningServiceInfo` -/
structure RunningServiceInfo where
  started : Bool
  clientLabel : Int32
  flags : UInt32
  process : Option String
  deriving DecidableEq

/-- `RunningServiceInfo.FLAG_PERSISTENT_PROCESS` -/
def flagPersistentProcess : UInt32 := (1 : UInt32) <<< 3

/-- What the activity manager answers at one time: the running services, and
the names of the running processes. Either list can be null. -/
structure ActivityManager where
  runningServices : Option (List RunningServiceInfo)
  runningAppProcesses : Option (List (Option String))
  deriving DecidableEq

/-- What the package manager answers. The signatures of a package are absent
when it is not found, and null when it has none. -/
structure PackageManager where
  getPackagesForUid : ℤ → Option (List String)
  signatures : String → Option (Option (List String))
  checkSignatures : String → String → ℤ

/-- Who makes a call. -/
structure Caller where
  uid : ℤ
  packageManager : PackageManager

/-- The loop over the running services. Those that are not started and have
no client, or run in a persistent process, are taken out of the list. -/
def amongServices (procName : String) : List RunningServiceInfo → Bool
  | [] => false
  | si :: rest =>
    if !si.started && si.clientLabel == 0 then amongServices procName rest
    else if si.flags &&& flagPersistentProcess != 0 then amongServices procName rest
    else si.process == some procName || amongServices procName rest

/-- The loop over the running processes. -/
def amongProcesses (procName : String) : List (Option String) → Bool
  | [] => false
  | pi :: rest => pi == some procName || amongProcesses procName rest

/-- `queryAllRunningAppInfo`; the context is not null. -/
def queryAllRunningAppInfo (procName : Option String) (am : ActivityManager) : Bool :=
  match procName with
  | none => false
  | some procName =>
    amongServices procName (am.runningServices.getD []) ||
      amongProcesses procName (am.runningAppProcesses.getD [])

/-- `getSignature`, called for what it throws. -/
def getSignature (pm : PackageManager) (pkgName : String) : Except Throwable (Option String) :=
  match pm.signatures pkgName with
  | none => .ok none
  | some none => .error .nullPointerException
  | some (some signatures) => .ok (some (signatures.foldl (· ++ ·) ""))

/-- `verifyCallerPerm`: the first package of the caller is signed like
`com.android.systemui`. -/
def verifyCallerPerm (caller : Caller) : Except Throwable Bool := do
  match caller.packageManager.getPackagesForUid caller.uid with
  | none => .error .nullPointerException
  | some [] => .error .indexOutOfBoundsException
  | some (package :: _) =>
    let _ ← getSignature caller.packageManager package
    pure (caller.packageManager.checkSignatures package "com.android.systemui" == 0)

/-- `getDexPath`: the name of the prepared dex file in the cache. -/
def getDexPath (apkPath : Option String) : Except Throwable String :=
  match apkPath with
  | none => .error .nullPointerException
  | some apkPath =>
    match apkPath.toList.map fun c => if c = '/' then '@' else c with
    | [] => .error .indexOutOfBoundsException
    | _ :: dexPath => .ok ("/data/dalvik-cache/" ++ String.ofList dexPath ++ "@classes.dex")

/-- `preloadDex`, as far as it can throw. -/
def preloadDex (modulePath : Option String) : Except Throwable Unit := do
  let _ ← getDexPath modulePath

/-! ## The preferences -/

def getInt (prefs : Prefs) (key : String) (default : ℤ) : Except Throwable ℤ :=
  match prefs key with
  | none => .ok default
  | some (.int i) => .ok i
  | some (.string _) => .error .classCastException

/-- `getString`, with the default `null`. -/
def getString (prefs : Prefs) (key : String) : Except Throwable (Option String) :=
  match prefs key with
  | none => .ok none
  | some (.string s) => .ok (some s)
  | some (.int _) => .error .classCastException

/-- An edit of the preferences; `putString` with null removes the key. -/
abbrev Edit := String × Option PrefValue

def putInt (key : String) (i : ℤ) : Edit := (key, some (.int i))

def putString (key : String) (s : Option String) : Edit := (key, s.map .string)

/-- The key of a numbered field. -/
def fieldKey (field : String) (index : ℕ) : String := field ++ toString index

/-- The edits of the loop in `writeSharedPreferences`, from `index` on. -/
def moduleEdits (index : ℕ) : List ModuleInfo → List Edit
  | [] => []
  | tmpAp :: rest =>
    putString (fieldKey "pkgName" index) tmpAp.pkgName ::
    putString (fieldKey "processName" index) tmpAp.processName ::
    putString (fieldKey "modulePath" index) tmpAp.modulePath ::
    moduleEdits (index + 1) rest

def writeSharedPreferences (moduleList : List ModuleInfo) (prefs : Prefs) : Prefs :=
  prefs.commit (putInt "AppNums" moduleList.length :: moduleEdits 1 moduleList)

/-- The loop of `readSharedPreferences`: `count` modules from `index` on. -/
def readModules (prefs : Prefs) (index : ℕ) : (count : ℕ) → Except Throwable (List ModuleInfo)
  | 0 => .ok []
  | count + 1 => do
    let pkgName ← getString prefs (fieldKey "pkgName" index)
    let processName ← getString prefs (fieldKey "processName" index)
    let modulePath ← getString prefs (fieldKey "modulePath" index)
    let rest ← readModules prefs (index + 1) count
    pure (⟨pkgName, processName, modulePath⟩ :: rest)

def readSharedPreferences (prefs : Prefs) : Except Throwable (List ModuleInfo) := do
  let ge ← getInt prefs "AppNums" (-1)
  readModules prefs 1 ge.toNat

/-! ## The calls -/

/-- `pkgName.equals(tmpAp.pkgName) && processName.equals(tmpAp.processName)` -/
def isKey (pkgName processName : Option String) (tmpAp : ModuleInfo) : Except Throwable Bool := do
  if ← equals pkgName tmpAp.pkgName then equals processName tmpAp.processName else pure false

/-- `isKey(tmpAp) && modulePath.equals(tmpAp.modulePath)` -/
def isModule (pkgName processName modulePath : Option String) (tmpAp : ModuleInfo) :
    Except Throwable Bool := do
  if ← isKey pkgName processName tmpAp then equals modulePath tmpAp.modulePath else pure false

/-- The loops over `mModuleList` that stop at the first match. -/
def firstMatch (test : ModuleInfo → Except Throwable Bool) :
    List ModuleInfo → Except Throwable (Option ModuleInfo)
  | [] => .ok none
  | tmpAp :: rest => do
    if ← test tmpAp then pure (some tmpAp) else firstMatch test rest

/-- `addModule`: what the caller gets, and the state behind the call. -/
def addModule (caller : Caller) (pkgName processName modulePath : Option String) (s : State) :
    Except Throwable ℤ × State :=
  match verifyCallerPerm caller with
  | .error e => (.error e, s)
  | .ok false => (.ok (-1), s)
  | .ok true =>
    match firstMatch (isKey pkgName processName) s.moduleList with
    | .error e => (.error e, s)
    | .ok none =>
      let mi : ModuleInfo := ⟨pkgName, processName, modulePath⟩
      let moduleList := s.moduleList ++ [mi]
      ((preloadDex modulePath).map fun _ => 0,
        { s with
          moduleList := moduleList
          curAddModule := some mi
          queue := s.queue ++ [.checkProcessHadStartedBeforeAddmodule]
          prefs := writeSharedPreferences moduleList s.prefs })
    -- "Module exist, Just Update it"
    | .ok (some _) => ((preloadDex modulePath).map fun _ => 0, s)

def removeModule (caller : Caller) (pkgName processName : Option String) (s : State) :
    Except Throwable ℤ × State :=
  match verifyCallerPerm caller with
  | .error e => (.error e, s)
  | .ok false => (.ok (-1), s)
  | .ok true =>
    match firstMatch (isKey pkgName processName) s.moduleList with
    | .error e => (.error e, s)
    | .ok none => (.ok 0, s)
    | .ok (some tmpAp) =>
      let moduleList := s.moduleList.erase tmpAp
      (.ok 0,
        { s with
          moduleList := moduleList
          prefs := writeSharedPreferences moduleList s.prefs })

def checkModuleExist (pkgName processName modulePath : Option String) (s : State) :
    Except Throwable ℤ := do
  let found ← firstMatch (isModule pkgName processName modulePath) s.moduleList
  pure (if found.isSome then 1 else 0)

/-! ## The handler and the receiver -/

/-- `sendCmdToXlodaerProcess`: the load command, unless `preloadDex` throws. -/
def sendCmdToXlodaerProcess (pkn prn modulePath : Option String) : Except Throwable Load := do
  preloadDex modulePath
  pure ⟨pkn, prn, modulePath⟩

/-- `sendCmdToXlodaerProcess(mi.pkgName, mi.processName, mi.modulePath)` -/
def ModuleInfo.send (mi : ModuleInfo) : Except Throwable Load :=
  sendCmdToXlodaerProcess mi.pkgName mi.processName mi.modulePath

/-- The loop of `CHECK_PROCESS_WHETHER_EXIST` over the pending modules: those
that stay, and the commands sent. The activity manager is asked anew for
each module; `am k` is its answer to question `k`. -/
def checkPending (am : ℕ → ActivityManager) (k : ℕ) :
    List ModuleInfo → Except Throwable (List ModuleInfo) × List Load
  | [] => (.ok [], [])
  | mi :: rest =>
    if queryAllRunningAppInfo mi.processName (am k) then
      match mi.send with
      | .error e => (.error e, [])
      | .ok load =>
        let r := checkPending am (k + 1) rest
        (r.1, load :: r.2)
    else
      let r := checkPending am (k + 1) rest
      (r.1.map (mi :: ·), r.2)

/-- The loop of `CHECK_HAD_STARTED_BEFORE_XLOADERSERVICE`. -/
def loadStarted (am : ℕ → ActivityManager) (k : ℕ) :
    List ModuleInfo → Except Throwable Unit × List Load
  | [] => (.ok (), [])
  | tmpAp :: rest =>
    if queryAllRunningAppInfo tmpAp.processName (am k) then
      match tmpAp.send with
      | .error e => (.error e, [])
      | .ok load =>
        let r := loadStarted am (k + 1) rest
        (r.1, load :: r.2)
    else loadStarted am (k + 1) rest

/-- The module for `system_server` that the service itself brings along. -/
def systemModule (cacheDir : String) : ModuleInfo :=
  ⟨some "android", some "system_server", some (cacheDir ++ "/" ++ "xandroid.jar")⟩

/-- `handleMessage` -/
def handleMessage (cacheDir : String) (what : What) (am : ℕ → ActivityManager) (s : State) :
    Except Throwable State × List Load :=
  match what with
  | .checkProcessWhetherExist =>
    let r := checkPending am 0 s.pendingModuleList
    (r.1.map fun pendingModuleList =>
      let s := { s with pendingModuleList := pendingModuleList }
      if pendingModuleList ≠ [] ∧ s.checkNums < 5 then
        { s with
          checkNums := s.checkNums + 1
          queue := s.queue ++ [.checkProcessWhetherExist] }
      else s, r.2)
  | .xloaderSystemServerStartprocess =>
    match (systemModule cacheDir).send with
    | .error e => (.error e, [])
    | .ok load =>
      (.ok { s with queue := s.queue ++ [.checkHadStartedBeforeXloaderservice] }, [load])
  | .checkProcessHadStartedBeforeAddmodule =>
    match s.curAddModule with
    | none => (.error .nullPointerException, [])
    | some mi =>
      if queryAllRunningAppInfo mi.processName (am 0) then
        match mi.send with
        | .error e => (.error e, [])
        | .ok load => (.ok s, [load])
      else (.ok s, [])
  | .checkHadStartedBeforeXloaderservice =>
    let r := loadStarted am 0 s.moduleList
    (r.1.map fun _ => s, r.2)

def actionAmsStartProcess : String := "com.qrom.dynxloader.startprocess"

/-- `mIntentReceiver.onReceive` -/
def onReceive (action pkgName prName : Option String) (s : State) : Except Throwable State := do
  if ← equals action (some actionAmsStartProcess) then
    match ← firstMatch (isKey pkgName prName) s.moduleList with
    | none => pure s
    | some tmpAp =>
      pure { s with
        pendingModuleList := s.pendingModuleList ++ [tmpAp]
        checkNums := 0
        queue := s.queue ++ [.checkProcessWhetherExist] }
  else pure s

/-! ## The machine -/

/-- The service as its constructor leaves it. A store that cannot be read
would keep it from starting; none is ever written. -/
def start (prefs : Prefs) : State where
  moduleList := match readSharedPreferences prefs with
    | .ok moduleList => moduleList
    | .error _ => []
  queue := [.xloaderSystemServerStartprocess]
  prefs := prefs

/-- The service on first use, with nothing stored. -/
def initial : State := start fun _ => none

/-- What happens to the service. -/
inductive Event where
  | addModule (caller : Caller) (pkgName processName modulePath : Option String)
  | removeModule (caller : Caller) (pkgName processName : Option String)
  | receive (action pkgName prName : Option String)
  | deliver (what : What) (am : ℕ → ActivityManager)
  | restart

/-- **One event.** Messages that are not queued are not delivered. -/
def step (cacheDir : String) : Machine State Event Load
  | s, .addModule caller pkgName processName modulePath =>
    ((addModule caller pkgName processName modulePath s).2, [])
  | s, .removeModule caller pkgName processName => ((removeModule caller pkgName processName s).2, [])
  | s, .receive action pkgName prName =>
    match onReceive action pkgName prName s with
    | .ok s' => (s', [])
    | .error _ => (start s.prefs, [])
  | s, .deliver what am =>
    if what ∈ s.queue then
      match handleMessage cacheDir what am { s with queue := s.queue.erase what } with
      | (.ok s', loads) => (s', loads)
      | (.error _, loads) => (start s.prefs, loads)
    else (s, [])
  | s, .restart => (start s.prefs, [])

/-- The states of all runs. -/
def Reachable (cacheDir : String) (s : State) : Prop :=
  ∃ es, s = (step cacheDir).run initial es

end Service

end Dynamicloader
