import Dynamicloader.Common.Process
import Dynamicloader.Xloaderd.Model
import Mathlib.Data.List.Infix
/-!
# xloader — the loader

`xload` looks the target process up, attaches to it, and lets it call
`mmap`, `dlopen`, `dlsym`, the client's entry and `dlclose` by setting its
registers and writing its memory. Everything the loader learns of the
target it is told: `/proc`, the `ptrace` requests and `waitpid` are calls
(`Op`) whose answers are open. The registers and the remote calls here are
those of the ARM build; the i386 build is in a module of its own.

A remote call waits for the stop its return to address 0 causes and resumes
the target at any other stop, as often as there is one. `fuel` bounds these
stops for each call; where it runs out the loader is still `waiting`.

`ptrace_call2` is given the name of what it calls and a log line, commented
out, would print it. `Op.calling` stands for this line: it is told nothing
and changes nothing.
-/

namespace Dynamicloader

namespace Loader

open Xloaderd (ascii isspace)

/-- `long`, `void *` and the registers have 32 bits. -/
abbrev Word := BitVec 32

/-! ## Result codes -/

def errorXloaderClientNotFound : Int32 := 1
def errorXloaderBridegNotFound : Int32 := 2
def errorXloaderModuleNotFound : Int32 := 3
def errorXloaderProcessNotFound : Int32 := 4
def errorXloaderProcessLoaded : Int32 := 5
def errorXloaderPtraceFailed : Int32 := 6
def errorXloaderMmapFailed : Int32 := 7
def errorXloaderRemoteCallFailed : Int32 := 8
def errorXloaderDlNotLoaded : Int32 := 8
def errorXloaderDlopenFailed : Int32 := 9
def errorXloaderDlerrorFailed : Int32 := 10
def errorXloaderDlsymFailed : Int32 := 11

/-! ## What the loader is built with -/

/-- `__arm__` or `__i386__`. -/
inductive Arch where
  | arm
  | i386
  deriving DecidableEq

/-- The switches `DEBUG` and `MODE_XPOSED`. -/
structure Config where
  debug : Bool
  xposed : Bool

def libcPath : List UInt8 := ascii "/system/lib/libc.so".toList

def linkerPath : List UInt8 := ascii "/system/bin/linker".toList

/-- `CLIENT_PATH_CURRENT` -/
def clientPathCurrent : List UInt8 := ascii "/system/lib/libclient.so".toList

/-- `CLIENT_ENTRY_FUNC` -/
def clientEntryFunc : List UInt8 := ascii "client_entry".toList

/-- `BRIDGE_PATH_CURRENT` -/
def Config.bridgePathCurrent (cfg : Config) : List UInt8 :=
  if cfg.xposed then ascii "/system/framework/XposedBridge.jar".toList
  else ascii "/data/data/com.tencent.qrom.dynxloader/cache/bridge.jar".toList

/-- `BRIDGE_LIB_PATH_CURRENT` -/
def Config.bridgeLibPathCurrent (cfg : Config) : List UInt8 :=
  if cfg.xposed then ascii "/system/lib/libxposed.so".toList
  else ascii "/system/lib/libbridge.so".toList

/-- The addresses of the library functions in the loader itself. -/
structure Symbols where
  mmap : Word
  dlopen : Word
  dlsym : Word
  dlclose : Word
  dlerror : Word

/-! ## Registers -/

/-- `uregs` of ARM's `struct pt_regs`. -/
abbrev Regs := Vector Word 18

namespace Regs

def sp (r : Regs) : Word := r[13]

def pc (r : Regs) : Word := r[15]

def cpsr (r : Regs) : Word := r[16]

end Regs

/-- `CPSR_T_MASK` -/
def cpsrTMask : Word := 1 <<< 5

/-- `ptrace_retval` -/
def ptraceRetval (regs : Regs) : Word := regs[0]

/-! ## Calls the loader makes -/

/-- The `ptrace` requests. -/
inductive Request where
  | attach
  | getregs
  | setregs (regs : Regs)
  | cont
  | peektext (addr : Word)
  | poketext (addr data : Word)
  | detach
  deriving DecidableEq

/-- `false` and `none` are a failed request; a failed `PTRACE_PEEKTEXT` is
taken for the word it returns. -/
abbrev Request.Answer : Request → Type
  | .getregs => Option Regs
  | .peektext _ => Word
  | _ => Bool

/-- What is called in the target. -/
inductive Func where
  | mmap | dlopen | dlsym | dlclose | dlerror | entry
  deriving DecidableEq

/-- The calls. `/proc` is listed, and the files in it are read, in one go;
`maps none` is `/proc/self/maps`. -/
inductive Op where
  | stat (path : List UInt8)
  | proc
  | cmdline (id : Int32)
  | maps (pid : Option Int32)
  | ptrace (pid : Int32) (request : Request)
  | waitpid (pid : Int32)
  | calling (func : Func) (addr : Word) (params : List Word)
  deriving DecidableEq

/-- `none` is a directory or file that cannot be opened, and a `waitpid`
that leaves `stat` as it is. -/
abbrev Op.Ans : Op → Type
  | .stat _ => Bool
  | .proc => Option (List (List UInt8))
  | .cmdline _ => Option (List UInt8)
  | .maps _ => Option (List UInt8)
  | .ptrace _ request => request.Answer
  | .waitpid _ => Option Word
  | .calling .. => Unit

abbrev Io := Prog Op Op.Ans

def ask (op : Op) : Io op.Ans := .call op .ret

section Target

variable (pid : Int32)

def ptraceGetregs : Io (Option Regs) := ask (.ptrace pid .getregs)

def ptraceSetregs (regs : Regs) : Io Bool := ask (.ptrace pid (.setregs regs))

def ptraceContinue : Io Bool := ask (.ptrace pid .cont)

def ptraceDetach : Io Bool := ask (.ptrace pid .detach)

/-- The first stop is waited for, and whatever `waitpid` says, taken. -/
def ptraceAttach : Io Bool := do
  if ← ask (.ptrace pid .attach) then
    let _ ← ask (.waitpid pid)
    return true
  else return false

/-! ## The target's memory -/

/-- The union in `ptrace_writedata`: `val` from `chars`, lowest byte first. -/
def word (b₀ b₁ b₂ b₃ : UInt8) : Word :=
  BitVec.ofNat 32 (b₀.toNat + 2 ^ 8 * b₁.toNat + 2 ^ 16 * b₂.toNat + 2 ^ 24 * b₃.toNat)

/-- Byte `i` of `chars`. -/
def byte (w : Word) (i : ℕ) : UInt8 := UInt8.ofNat (w.toNat / 2 ^ (8 * i))

/-- `chars` from `val`. -/
def chars (w : Word) : List UInt8 := [byte w 0, byte w 1, byte w 2, byte w 3]

/-- The first bytes of `chars` overwritten. -/
def patch (w : Word) (data : List UInt8) : Word :=
  word (data.getD 0 (byte w 0)) (data.getD 1 (byte w 1)) (data.getD 2 (byte w 2))
    (data.getD 3 (byte w 3))

/-- `ptrace_readdata`; the bytes `buf` is left with. -/
def ptraceReaddata (src : Word) : ℕ → Io (List UInt8)
  | 0 => pure []
  | size + 4 => do
    let d ← ask (.ptrace pid (.peektext src))
    let rest ← ptraceReaddata (src + 4) size
    return chars d ++ rest
  | remain => do
    let d ← ask (.ptrace pid (.peektext src))
    return (chars d).take remain

/-- `ptrace_writedata`. No request is checked. -/
def ptraceWritedata (dest : Word) : List UInt8 → Io Unit
  | [] => pure ()
  | b₀ :: b₁ :: b₂ :: b₃ :: data => do
    let _ ← ask (.ptrace pid (.poketext dest (word b₀ b₁ b₂ b₃)))
    ptraceWritedata (dest + 4) data
  | data => do
    let d ← ask (.ptrace pid (.peektext dest))
    let _ ← ask (.ptrace pid (.poketext dest (patch d data)))

/-! ## Calling a function in the target -/

/-- Why an injection is left early: `goto exit_regs` with `ret` set, or a
target that has not stopped for good. -/
inductive Exit where
  | waiting
  | exitRegs (ret : Int32)
  deriving DecidableEq

abbrev Act := ExceptT Exit Io

/-- The registers of a call: four parameters, the stack below the others,
the entry point with its instruction set, and the return address 0. -/
def callRegs (addr : Word) (params : List Word) (regs : Regs) : Regs :=
  let regs : Regs := Vector.ofFn fun i =>
    if i.val < 4 then params.getD i regs[i] else regs[i]
  let regs : Regs := regs.set 13 (regs.sp - BitVec.ofNat 32 (4 * (params.length - 4)))
  let regs : Regs := regs.set 15 (if addr &&& 1 ≠ 0 then addr &&& ~~~1 else addr)
  let regs : Regs := regs.set 16
    (if addr &&& 1 ≠ 0 then regs.cpsr ||| cpsrTMask else regs.cpsr &&& ~~~cpsrTMask)
  regs.set 14 0

/-- `while (stat != 0xb7f)`, with the `waitpid` before it. -/
def awaitFault : ℕ → Word → Act Bool
  | fuel, stat => do
    let stat := (← ask (.waitpid pid)).getD stat
    if stat = 0xb7f then return true
    else match fuel with
      | 0 => throw .waiting
      | fuel + 1 =>
        if ← ptraceContinue pid then awaitFault fuel stat
        else return false

/-- `ptrace_call`; `false` is its -1. -/
def ptraceCall (fuel : ℕ) (addr : Word) (params : List Word) (regs : Regs) : Act Bool := do
  let regs := callRegs addr params regs
  ptraceWritedata pid regs.sp ((params.drop 4).flatMap chars)
  if ← ptraceSetregs pid regs then
    if ← ptraceContinue pid then awaitFault pid fuel 0
    else return false
  else return false

/-- `ptrace_call2`; `none` is its -1. -/
def ptraceCall2 (fuel : ℕ) (func : Func) (addr : Word) (params : List Word) (regs : Regs) :
    Act (Option Regs) := do
  ask (.calling func addr params)
  if ← ptraceCall pid fuel addr params regs then ptraceGetregs pid
  else return none

/-- `if (ptrace_call2(..) == -1) { ret = -error; goto exit_regs; }` -/
def callOr (error : Int32) (fuel : ℕ) (func : Func) (addr : Word) (params : List Word)
    (regs : Regs) : Act Regs := do
  match ← ptraceCall2 pid fuel func addr params regs with
  | some regs => return regs
  | none => throw (.exitRegs (-error))

end Target

/-! ## Where a module is mapped -/

/-- The lines `fgets` cuts a file into, for a buffer of `size` bytes. -/
def fgetsLines (size : ℕ) (line : List UInt8) : List UInt8 → List (List UInt8)
  | [] => if line = [] then [] else [line]
  | b :: text =>
    if b = 10 ∨ line.length + 2 = size then (line ++ [b]) :: fgetsLines size [] text
    else fgetsLines size (line ++ [b]) text

/-- The C string at the front of a buffer. -/
def cstring (buf : List UInt8) : List UInt8 := buf.takeWhile (· != 0)

/-- `strstr(line, name) != NULL` -/
def strstr (line name : List UInt8) : Bool := decide (name <:+: cstring line)

/-- `strtok(line, "-")`, of a line with a byte that is no `-`. -/
def strtok (line : List UInt8) : List UInt8 :=
  ((cstring line).dropWhile (· == 45)).takeWhile (· != 45)

/-- The value of a hexadecimal digit. -/
def hexDigit (b : UInt8) : Option ℕ :=
  if 48 ≤ b ∧ b ≤ 57 then some (b.toNat - 48)
  else if 97 ≤ b ∧ b ≤ 102 then some (b.toNat - 87)
  else if 65 ≤ b ∧ b ≤ 70 then some (b.toNat - 55)
  else none

/-- The number the digits in front of a text spell. -/
def hexValue (n : ℕ) : List UInt8 → ℕ
  | [] => n
  | b :: text =>
    match hexDigit b with
    | some d => hexValue (16 * n + d) text
    | none => n

/-- A number without its sign. -/
def skipSign : List UInt8 → List UInt8
  | 43 :: text => text
  | 45 :: text => text
  | text => text

/-- A hexadecimal number without its `0x`. -/
def skipBase : List UInt8 → List UInt8
  | 48 :: 120 :: text => text
  | 48 :: 88 :: text => text
  | text => text

/-- `strtoul(text, NULL, 16)` -/
def strtoul (text : List UInt8) : Word :=
  let text := text.dropWhile isspace
  let negative := text.head? = some 45
  let n := hexValue 0 (skipBase (skipSign text))
  if 2 ^ 32 ≤ n then BitVec.allOnes 32
  else if negative then -BitVec.ofNat 32 n
  else BitVec.ofNat 32 n

/-- The address at the front of a line; 0x8000 counts as none. -/
def lineBase (line : List UInt8) : Word :=
  let addr := strtoul (strtok line)
  if addr = 0x8000 then 0 else addr

/-- The first line that mentions the module decides. -/
def moduleBase (maps : Option (List UInt8)) (name : List UInt8) : Word :=
  match maps with
  | none => 0
  | some text =>
    match (fgetsLines 1024 [] text).find? (strstr · name) with
    | some line => lineBase line
    | none => 0

/-- Whose `maps` are read: a negative pid stands for the loader itself. -/
def mapsFile (pid : Int32) : Option Int32 := if pid < 0 then none else some pid

/-- `get_module_base` -/
def getModuleBase (pid : Int32) (name : List UInt8) : Io Word := do
  let maps ← ask (.maps (mapsFile pid))
  return moduleBase maps name

/-- `get_remote_addr` -/
def getRemoteAddr (arch : Arch) (pid : Int32) (name : List UInt8) (localAddr : Word) :
    Io Word := do
  let localHandle ← getModuleBase (-1) name
  let remoteHandle ← getModuleBase pid name
  let retAddr := localAddr + remoteHandle - localHandle
  -- the `#if defined(__i386__)`
  return if arch = .i386 ∧ name = libcPath then retAddr + 2 else retAddr

/-! ## The injection -/

section Injection

variable (cfg : Config) (sym : Symbols) (fuel : ℕ) (pid : Int32)

/-- The message of a failed `dlopen` or `dlsym` is fetched for the log. -/
def reportDlerror (dlerrorAddr : Word) (regs : Regs) (error : Int32) : Act Int32 := do
  let regs ← callOr pid errorXloaderDlerrorFailed fuel .dlerror dlerrorAddr [] regs
  let _ ← ptraceReaddata pid (ptraceRetval regs) 127
  throw (.exitRegs (-error))

/-- The stages between the two register accesses of `trace_remote_process`. -/
def inject (library function param : List UInt8) (regs : Regs) : Act Int32 := do
  let mmapAddr ← getRemoteAddr .arm pid libcPath sym.mmap
  let regs ← callOr pid errorXloaderMmapFailed fuel .mmap mmapAddr [0, 0x4000, 7, 0x22, 0, 0] regs
  let mapBase := ptraceRetval regs
  let dlopenAddr ← getRemoteAddr .arm pid linkerPath sym.dlopen
  let dlsymAddr ← getRemoteAddr .arm pid linkerPath sym.dlsym
  let dlcloseAddr ← getRemoteAddr .arm pid linkerPath sym.dlclose
  let dlerrorAddr ← getRemoteAddr .arm pid linkerPath sym.dlerror
  if dlopenAddr = 0 ∨ dlsymAddr = 0 ∨ dlcloseAddr = 0 ∨ dlerrorAddr = 0 then
    throw (.exitRegs (-errorXloaderDlNotLoaded))
  else
    -- `RTLD_NOW | RTLD_GLOBAL` is 2
    ptraceWritedata pid mapBase (library ++ [0])
    let regs ← callOr pid errorXloaderRemoteCallFailed fuel .dlopen dlopenAddr [mapBase, 2] regs
    let sohandle := ptraceRetval regs
    if cfg.debug ∧ sohandle = 0 then
      reportDlerror fuel pid dlerrorAddr regs errorXloaderDlopenFailed
    else
      ptraceWritedata pid (mapBase + 0x100) (function ++ [0])
      let regs ← callOr pid errorXloaderRemoteCallFailed fuel .dlsym dlsymAddr
        [sohandle, mapBase + 0x100] regs
      let clientEntryAddr := ptraceRetval regs
      if clientEntryAddr = 0 then
        reportDlerror fuel pid dlerrorAddr regs errorXloaderDlsymFailed
      else
        ptraceWritedata pid (mapBase + 0x200) param
        let regs ← callOr pid errorXloaderRemoteCallFailed fuel .entry clientEntryAddr
          [mapBase + 0x200] regs
        let ret : Int32 := ⟨⟨ptraceRetval regs⟩⟩
        -- called at the loader's own `dlclose`, not at `dlcloseAddr`
        let _ ← callOr pid errorXloaderRemoteCallFailed fuel .dlclose sym.dlclose [sohandle] regs
        return ret

/-- **`trace_remote_process`.** `none` is a loader that is still waiting. -/
def traceRemoteProcess (library function param : List UInt8) : Io (Option Int32) := do
  let remoteLibrary ← getModuleBase pid library
  if remoteLibrary ≠ 0 then return some errorXloaderProcessLoaded
  else if ← ptraceAttach pid then
    match ← ptraceGetregs pid with
    | none =>
      let _ ← ptraceDetach pid
      return some (-errorXloaderPtraceFailed)
    | some originalRegs =>
      match ← (inject cfg sym fuel pid library function param originalRegs).run with
      | .error .waiting => return none
      | .error (.exitRegs ret) | .ok ret =>
        let _ ← ptraceSetregs pid originalRegs
        let _ ← ptraceDetach pid
        return some ret
  else return some (-errorXloaderPtraceFailed)

end Injection

/-! ## Loading -/

/-- The decimal number in front of a text, after its blanks and sign. -/
def atoi (text : List UInt8) : Int32 :=
  let text := text.dropWhile isspace
  let negative := text.head? = some 45
  let n : ℕ := ((skipSign text).takeWhile fun b => 48 ≤ b && b ≤ 57).foldl
    (fun n b => 10 * n + (b.toNat - 48)) 0
  -- `strtol` stops at the ends of `long`
  if negative then Int32.ofInt (max (-(n : ℤ)) (-2 ^ 31)) else Int32.ofInt (min (n : ℤ) (2 ^ 31 - 1))

/-- The stack from `cmdline` on: the 256 bytes of the buffer and whatever
follows them. -/
abbrev Stack := ℕ → UInt8

/-- `fgets(cmdline, sizeof(cmdline), fp)`: nothing is stored at the end of a
file. -/
def fgets (contents : List UInt8) (cmdline : Stack) : Stack :=
  match fgetsLines 256 [] contents with
  | [] => cmdline
  | line :: _ => fun i =>
    if i < line.length then line.getD i 0 else if i = line.length then 0 else cmdline i

/-- `strcmp(name, cmdline) == 0` -/
def strcmp (name : List UInt8) (cmdline : Stack) : Bool :=
  (List.range (name.length + 1)).all fun i => cmdline i == name.getD i 0

/-- The `while` loop of `find_pid_of`. -/
def searchProc (name : List UInt8) : List (List UInt8) → Stack → Io Int32
  | [], _ => pure (-1)
  | entry :: entries, cmdline =>
    let id := atoi entry
    if id = 0 then searchProc name entries cmdline
    else do
      match ← ask (.cmdline id) with
      | none => searchProc name entries cmdline
      | some contents =>
        if strcmp name (fgets contents cmdline) then return id
        else searchProc name entries (fgets contents cmdline)

/-- `find_pid_of`; `cmdline` is what its buffer happens to hold. -/
def findPidOf (processName : Option (List UInt8)) (cmdline : Stack) : Io Int32 := do
  match processName with
  | none => return -1
  | some name =>
    match ← ask .proc with
    | none => return -1
    | some entries => searchProc name entries cmdline

/-- `STR_LEN_LIMIT` -/
abbrev strLenLimit : ℕ := 256

/-- `strncpy` of a string into a field: cut at the limit, or padded. -/
def strncpy (text : List UInt8) : List UInt8 :=
  (text ++ List.replicate strLenLimit 0).take strLenLimit

/-- `XloaderInfo`, the block handed to the client. -/
def xloaderInfo (cfg : Config) (packageName modulePath : List UInt8) : List UInt8 :=
  strncpy packageName ++ strncpy cfg.bridgePathCurrent ++ strncpy modulePath

/-- **`xload`.** -/
def xload (cfg : Config) (sym : Symbols) (fuel : ℕ) (cmdline : Stack) (packageName : List UInt8)
    (processName : Option (List UInt8)) (modulePath : List UInt8) : Io (Option Int32) := do
  if !(← ask (.stat clientPathCurrent)) then return some (-errorXloaderClientNotFound)
  else if !(← ask (.stat cfg.bridgePathCurrent)) then return some (-errorXloaderBridegNotFound)
  else if !(← ask (.stat cfg.bridgeLibPathCurrent)) then return some (-errorXloaderBridegNotFound)
  else if !(← ask (.stat modulePath)) then return some (-errorXloaderModuleNotFound)
  else
    let targetPid ← findPidOf (processName <|> some packageName) cmdline
    if targetPid = -1 then return some errorXloaderProcessNotFound
    else
      traceRemoteProcess cfg sym fuel targetPid clientPathCurrent clientEntryFunc
        (xloaderInfo cfg packageName modulePath)

end Loader

end Dynamicloader
