import Dynamicloader.Loader.Model
/-!
# The injected client

`client.c` runs in the target process. `client_entry` loads a module once: a
library by its `module_entry`, a jar through the bridge, which is started over
JNI. `isDexOutputCache` decides which class loader the bridge gets: it derives
the name of the prepared dex file from the bridge's path and asks whether that
file is there.

What the client asks of the process around it (files, libraries, the virtual
machine) are calls (`Op`) whose answers are open. Strings are byte lists
without the terminating NUL. Paths are built in a buffer of `STR_LEN_LIMIT`
bytes, and a write or a read behind the buffer is `none`: what the C code does
then is not defined.
-/

namespace Dynamicloader

namespace Client

open Memory
open Loader (strLenLimit strstr)
open Xloaderd (ascii)

/-! ## The dex file of a bridge -/

/-- `property_get`: a property that is not set, or is set to nothing, has the default. -/
def propertyGet (value default : List UInt8) : List UInt8 :=
  if value.isEmpty then default else value

/-- `strncmp(s, t, t.length) == 0`, for a `t` without a NUL. -/
def startsWith (s t : List UInt8) : Bool := s.take t.length == t

/-- `DALVIK_CACHE_PREFIX_OLD` -/
def dalvikCachePrefixOld : List UInt8 := ascii "/data/dalvik-cache/".toList

/-- `DALVIK_CACHE_PREFIX_ARM` -/
def dalvikCachePrefixArm : List UInt8 := ascii "/data/dalvik-cache/arm".toList

/-- `DALVIK_CACHE_POSTFIX` -/
def dalvikCachePostfix : List UInt8 := ascii "/classes.dex".toList

/-- The prefix `isDexOutputCache` picks; `sdk` is the property `ro.build.version.sdk`. -/
def dalvikCachePrefix (sdk : List UInt8) : List UInt8 :=
  if startsWith (propertyGet sdk (ascii "n/a".toList)) (ascii "2".toList) then dalvikCachePrefixOld
  else dalvikCachePrefixArm

/-- The `for` loop over `*tmp`, from address `tmp` on. -/
def replaceSlashes {k : ℕ} (dexPath : Memory k) (tmp : ℕ) : Option (Memory k) :=
  if h : tmp < k then
    if dexPath[tmp] = 0 then some dexPath
    else
      -- 47 is the slash, 64 the at sign
      replaceSlashes (if dexPath[tmp] = 47 then dexPath.set tmp 64 else dexPath) (tmp + 1)
  else none
termination_by k - tmp

/-- The buffer `dexPath` when `stat` is called on it. -/
def dexPath (sdk apkPath : List UInt8) : Option (Memory strLenLimit) := do
  -- if (*apkPath == '/') apkPath++;
  let apkPath := if startsWith apkPath (ascii "/".toList) then apkPath.tail else apkPath
  let dexPath ← strcpy (Vector.replicate strLenLimit 0) 0 (dalvikCachePrefix sdk)
  let dexPath ← strcat dexPath apkPath
  let dexPath ← strcat dexPath dalvikCachePostfix
  replaceSlashes dexPath (dalvikCachePrefix sdk).length

/-- **`isDexOutputCache`.** The paths it calls `stat` on, and what it returns. -/
def isDexOutputCache (sdk : List UInt8) (stat : List UInt8 → ℤ) (apkPath : List UInt8) :
    Option (List (List UInt8) × ℤ) :=
  if startsWith apkPath (ascii "/system/framework/".toList) then some ([], 1)
  else do
    let path := cstr (← dexPath sdk apkPath) 0
    return ([path], if stat path < 0 then 0 else 1)

/-! ## Calls the client makes -/

def success : Int32 := 0
def errorClientEntryLoader : Int32 := 13
def errorClientBridegNotFound : Int32 := 14
def errorClientModuleNotFound : Int32 := 15
def errorClientEnvNotFound : Int32 := 16
def errorClientLoadError : Int32 := 17
def errorClientBridgeError : Int32 := 18
def errorClientBridgeFailed : Int32 := 19

/-- Pointers and JNI references; 0 is `NULL`. -/
abbrev Ref := ℕ

/-- The calls. `callfun` calls what was looked up as `symbol`; the methods of
the JNI environment are those of the one `getEnv` returns. -/
inductive Op where
  | stat (path : List UInt8)
  | propertyGet (key : List UInt8)
  | dlopen (path : List UInt8)
  | dlsym (handle : Ref) (symbol : List UInt8)
  | dlerror
  | dlclose (handle : Ref)
  | callfun (symbol : List UInt8) (fn : Ref)
  | findClass (name : List UInt8)
  | getMethodID (cls : Ref) (name sig : List UInt8)
  | getStaticMethodID (cls : Ref) (name sig : List UInt8)
  | newObject (cls init : Ref) (args : List Ref)
  | callObjectMethod (obj method : Ref) (args : List Ref)
  | callStaticObjectMethod (cls method : Ref)
  | callStaticVoidMethod (cls method : Ref) (args : List Ref)
  | stoJstring (pat : List UInt8)
  | clearException
  deriving DecidableEq

/-- `true` is a file that is there, and an exception that was pending. -/
abbrev Op.Ans : Op → Type
  | .stat _ => Bool
  | .propertyGet _ => List UInt8
  | .dlerror => Option (List UInt8)
  | .dlclose _ => Unit
  | .callStaticVoidMethod .. => Unit
  | .clearException => Bool
  | _ => Ref

abbrev Io := Prog Op Op.Ans

def ask (op : Op) : Io op.Ans := .call op .ret

/-! ## Libraries -/

/-- Why no function of a library was called. -/
inductive LibraryError where
  | notOpened
  | noSymbol

/-- A library is opened, a function of it called, and the library closed. -/
def callLibrary (path symbol : List UInt8) : Io (Except LibraryError Ref) := do
  let handle ← ask (.dlopen path)
  if handle = 0 then
    let _ ← ask .dlerror
    return .error .notOpened
  else
    let _ ← ask .dlerror
    let callfun ← ask (.dlsym handle symbol)
    if (← ask .dlerror).isSome then
      ask (.dlclose handle)
      return .error .noSymbol
    else
      let result ← ask (.callfun symbol callfun)
      ask (.dlclose handle)
      return .ok result

def moduleEntry : List UInt8 := ascii "module_entry".toList

/-- `load_native`. Its codes are not negated. -/
def loadNative (modulePath : List UInt8) : Io Int32 := do
  match ← callLibrary modulePath moduleEntry with
  | .error .notOpened => return errorClientModuleNotFound
  | .error .noSymbol => return errorClientLoadError
  | .ok _ => return success

def getJNIEnv : List UInt8 := ascii "_ZN7android14AndroidRuntime9getJNIEnvEv".toList

/-- `getEnv` -/
def getEnv : Io Ref := do
  match ← callLibrary (ascii "/system/lib/libandroid_runtime.so".toList) getJNIEnv with
  | .error _ => return 0
  | .ok env => return env

/-! ## The bridge -/

section Bridge

/-- A load that is left early with a code. -/
abbrev Act := ExceptT Int32 Io

/-- `if (ClearException(env)) return -error;` -/
def checkException (error : Int32) : Act Unit := do
  if ← ask .clearException then throw (-error)

/-- `if (ClearException(env) || ref == NULL) return -error;` -/
def checkReference (error : Int32) (ref : Ref) : Act Unit := do
  checkException error
  if ref = 0 then throw (-error)

/-- A class loader, by its class and the signature of its constructor. -/
def newClassLoader (name sig : List UInt8) (args : List Ref) : Act (Ref × Ref) := do
  let jcClientLoader ← ask (.findClass name)
  checkException errorClientLoadError
  let init ← ask (.getMethodID jcClientLoader (ascii "<init>".toList) sig)
  let joClientLoader ← ask (.newObject jcClientLoader init args)
  checkReference errorClientLoadError joClientLoader
  return (jcClientLoader, joClientLoader)

/-- The class loader of the bridge, below that of the application. -/
def clientLoader (bridgePath : List UInt8) (bridgeDexPath : Option (List UInt8))
    (joAppLoader : Ref) : Act (Ref × Ref) := do
  let jstrJarPath ← ask (.stoJstring bridgePath)
  match bridgeDexPath with
  | none =>
    newClassLoader (ascii "dalvik/system/PathClassLoader".toList)
      (ascii "(Ljava/lang/String;Ljava/lang/ClassLoader;)V".toList) [jstrJarPath, joAppLoader]
  | some bridgeDexPath => do
    let jstrJarDexPath ← ask (.stoJstring bridgeDexPath)
    newClassLoader (ascii "dalvik/system/DexClassLoader".toList) (ascii
        "(Ljava/lang/String;Ljava/lang/String;Ljava/lang/String;Ljava/lang/ClassLoader;)V".toList)
      [jstrJarPath, jstrJarDexPath, 0, joAppLoader]

/-- `findClass` of a class loader, or its `loadClass`. -/
def findClassMethod (jcClientLoader : Ref) : Io Ref := do
  let sig := ascii "(Ljava/lang/String;)Ljava/lang/Class;".toList
  let findClass ← ask (.getMethodID jcClientLoader (ascii "findClass".toList) sig)
  if findClass = 0 then ask (.getMethodID jcClientLoader (ascii "loadClass".toList) sig)
  else return findClass

/-- `load_java`, up to its result. -/
def loadBridge (bridgePath : List UInt8) (bridgeDexPath : Option (List UInt8))
    (modulePath : List UInt8) : Act Unit := do
  let jcActivityThread ← ask (.findClass (ascii "android/app/ActivityThread".toList))
  checkException errorClientLoadError
  let currentApp ← ask (.getStaticMethodID jcActivityThread (ascii "currentApplication".toList)
    (ascii "()Landroid/app/Application;".toList))
  let joApplication ← ask (.callStaticObjectMethod jcActivityThread currentApp)
  let jcApplication ← ask (.findClass (ascii "android/app/Application".toList))
  checkException errorClientLoadError
  let getClassLoader ← ask (.getMethodID jcApplication (ascii "getClassLoader".toList)
    (ascii "()Ljava/lang/ClassLoader;".toList))
  let joAppLoader ← ask (.callObjectMethod joApplication getClassLoader [])
  let (jcClientLoader, joClientLoader) ← clientLoader bridgePath bridgeDexPath joAppLoader
  let findClass ← findClassMethod jcClientLoader
  let jstrBridge ← ask (.stoJstring (ascii "de.robv.android.xposed.XposedBridge".toList))
  let jcBridge ← ask (.callObjectMethod joClientLoader findClass [jstrBridge])
  checkReference errorClientBridgeError jcBridge
  let jstrModulePath ← ask (.stoJstring modulePath)
  let loadModule ← ask (.getStaticMethodID jcBridge (ascii "loadModuleFromJar".toList)
    (ascii "(Ljava/lang/String;Ljava/lang/ClassLoader;)V".toList))
  ask (.callStaticVoidMethod jcBridge loadModule [jstrModulePath, joClientLoader])
  checkException errorClientBridgeFailed

/-- `load_java` -/
def loadJava (bridgePath : List UInt8) (bridgeDexPath : Option (List UInt8))
    (modulePath : List UInt8) : Io Int32 := do
  match ← (loadBridge bridgePath bridgeDexPath modulePath).run with
  | .error ret => return ret
  | .ok () => return success

end Bridge

/-! ## The entry -/

/-- The strings in `XloaderInfo`, the block the loader writes. -/
structure XloaderInfo where
  packageName : List UInt8
  bridgePath : List UInt8
  modulePath : List UInt8

/-- `isDexOutputCache`, as it asks for the property and the file. -/
def askDexOutputCache (apkPath : List UInt8) : Io (Option Bool) := do
  if startsWith apkPath (ascii "/system/framework/".toList) then return some true
  else
    let sdk ← ask (.propertyGet (ascii "ro.build.version.sdk".toList))
    match dexPath sdk apkPath with
    | none => return none
    | some dexPath => return some (← ask (.stat (cstr dexPath 0)))

/-- `bridgeDexPath`: where the dex file of the bridge is put. -/
def bridgeDexPath (packageName : List UInt8) : Option (List UInt8) := do
  let buf : Memory strLenLimit := Vector.replicate strLenLimit 0
  if packageName = ascii "android".toList then
    let buf ← strcpy buf 0 (ascii "/data/dalvik-cache/".toList)
    return cstr buf 0
  else
    let buf ← strcpy buf 0 (ascii "/data/data/".toList)
    let buf ← strcat buf packageName
    return cstr buf 0

/-- **`do_xload`.** It returns a code and leaves `g_already_Xloader`. The first
field of the block is at its address, so a block at `NULL` is a parameter
error, and there is no other. -/
def doXload (already : Int32) : Option XloaderInfo → Io (Option (Int32 × Int32))
  | none => return some (-1, already)
  | some info => do
    if !(← ask (.stat info.modulePath)) then return some (-errorClientModuleNotFound, already)
    else if strstr info.modulePath (ascii ".so".toList) then
      return some (← loadNative info.modulePath, already)
    else if !(← ask (.stat info.bridgePath)) then return some (-errorClientBridegNotFound, already)
    else if (← getEnv) = 0 then return some (-errorClientEnvNotFound, already)
    else match ← askDexOutputCache info.bridgePath with
      | none => return none
      | some true => return some (← loadJava info.bridgePath none info.modulePath, 1)
      | some false =>
        match bridgeDexPath info.packageName with
        | none => return none
        | some dexPath =>
          return some (← loadJava info.bridgePath (some dexPath) info.modulePath, 1)

/-- **`client_entry`.** -/
def clientEntry (already : Int32) (para : Option XloaderInfo) : Io (Option (Int32 × Int32)) :=
  if already ≠ 0 then return some (errorClientEntryLoader, already)
  else doXload already para

end Client

end Dynamicloader
