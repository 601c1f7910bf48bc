import Dynamicloader.Loader.Model
/-!
# xloader — the i386 build

The loader is also built for i386, where the registers are those of
`struct user_regs_struct` and a remote call has all its parameters on the
stack, with the return address 0 below them. Reading and setting the
registers are calls of this build (`Op`); the others are the ARM build's
(`shared`), and so are the functions that make only them, but for
`get_remote_addr`, which here adds 2 to an address of libc.
-/

namespace Dynamicloader

namespace Loader

namespace I386

/-- `struct user_regs_struct`, with the registers `ptrace_call` does not name
as `others`, in their order. -/
structure Regs where
  esp : Word
  eip : Word
  others : Vector Word 15
  deriving DecidableEq

/-- `ptrace_retval`: `eax`, behind `ebx`, `ecx`, `edx`, `esi`, `edi` and
`ebp`. -/
def ptraceRetval (regs : Regs) : Word := regs.others[6]

/-- The calls. `PTRACE_GETREGS` and `PTRACE_SETREGS` are not among the shared
ones. -/
inductive Op where
  | shared (op : Loader.Op)
  | getregs (pid : Int32)
  | setregs (pid : Int32) (regs : Regs)

abbrev Op.Ans : Op → Type
  | .shared op => op.Ans
  | .getregs _ => Option Regs
  | .setregs .. => Bool

abbrev Io := Prog Op Op.Ans

abbrev Act := ExceptT Exit Io

/-- What the two builds have in common. -/
def shared {α : Type} (c : Loader.Io α) : Io α := c.relabel .shared fun _ x => x

section Target

variable (pid : Int32)

def ptraceWritedata (dest : Word) (data : List UInt8) : Io Unit :=
  shared (Loader.ptraceWritedata pid dest data)

def ptraceReaddata (src : Word) (size : ℕ) : Io (List UInt8) :=
  shared (Loader.ptraceReaddata pid src size)

def ptraceGetregs : Io (Option Regs) := .call (.getregs pid) .ret

def ptraceSetregs (regs : Regs) : Io Bool := .call (.setregs pid regs) .ret

def ptraceContinue : Io Bool := shared (Loader.ptraceContinue pid)

/-- `while (stat != 0xb7f)`, with the `waitpid` before it. -/
def awaitFault (fuel : ℕ) (stat : Word) : Act Bool :=
  ExceptT.mk (shared (Loader.awaitFault pid fuel stat).run)

/-- `ptrace_call`; `false` is its -1. -/
def ptraceCall (fuel : ℕ) (addr : Word) (params : List Word) (regs : Regs) : Act Bool := do
  let regs := { regs with esp := regs.esp - BitVec.ofNat 32 (4 * params.length) }
  ptraceWritedata pid regs.esp (params.flatMap chars)
  let tmpAddr : Word := 0
  let regs := { regs with esp := regs.esp - 4 }
  ptraceWritedata pid regs.esp (chars tmpAddr)
  let regs := { regs with eip := addr }
  if ← ptraceSetregs pid regs then
    if ← ptraceContinue pid then awaitFault pid fuel 0
    else return false
  else return false

/-- `ptrace_call2`; `none` is its -1. -/
def ptraceCall2 (fuel : ℕ) (func : Func) (addr : Word) (params : List Word) (regs : Regs) :
    Act (Option Regs) := do
  (shared (ask (.calling func addr params)) : Io Unit)
  if ← ptraceCall pid fuel addr params regs then ptraceGetregs pid
  else return none

/-- `if (ptrace_call2(..) == -1) { ret = -error; goto exit_regs; }` -/
def callOr (error : Int32) (fuel : ℕ) (func : Func) (addr : Word) (params : List Word)
    (regs : Regs) : Act Regs := do
  match ← ptraceCall2 pid fuel func addr params regs with
  | some regs => return regs
  | none => throw (.exitRegs (-error))

/-- `get_remote_addr` -/
def getRemoteAddr (name : List UInt8) (localAddr : Word) : Io Word :=
  shared (Loader.getRemoteAddr .i386 pid name localAddr)

end Target

section Injection

variable (cfg : Config) (sym : Symbols) (fuel : ℕ) (pid : Int32)

/-- The message of a failed `dlopen` or `dlsym` is fetched for the log. -/
def reportDlerror (dlerrorAddr : Word) (regs : Regs) (error : Int32) : Act Int32 := do
  let regs ← callOr pid errorXloaderDlerrorFailed fuel .dlerror dlerrorAddr [] regs
  let _ ← ptraceReaddata pid (ptraceRetval regs) 127
  throw (.exitRegs (-error))

/-- The stages between the two register accesses of `trace_remote_process`. -/
def inject (library function param : List UInt8) (regs : Regs) : Act Int32 := do
  let mmapAddr ← getRemoteAddr pid libcPath sym.mmap
  let regs ← callOr pid errorXloaderMmapFailed fuel .mmap mmapAddr [0, 0x4000, 7, 0x22, 0, 0] regs
  let mapBase := ptraceRetval regs
  let dlopenAddr ← getRemoteAddr pid linkerPath sym.dlopen
  let dlsymAddr ← getRemoteAddr pid linkerPath sym.dlsym
  let dlcloseAddr ← getRemoteAddr pid linkerPath sym.dlclose
  let dlerrorAddr ← getRemoteAddr pid linkerPath sym.dlerror
  if dlopenAddr = 0 ∨ dlsymAddr = 0 ∨ dlcloseAddr = 0 ∨ dlerrorAddr = 0 then
    throw (.exitRegs (-errorXloaderDlNotLoaded))
  else
    ptraceWritedata pid mapBase (library ++ [0])
    let regs ← callOr pid errorXloaderRemoteCallFailed fuel .dlopen dlopenAddr [mapBase, 2] regs
    let sohandle := ptraceRetval regs
    if cfg.debug ∧ sohandle = 0 then
      reportDlerror fuel pid dlerrorAddr regs errorXloaderDlopenFailed
    else
      ptraceWritedata pid (mapBase + 0x100) (function ++ [0])
      let regs ← callOr pid errorXloaderRemoteCallFailed fuel .dlsym dlsymAddr
        [sohandle, mapBase + 0x100] regs
      let clientEntryAddr := ptraceRetval regs
      if clientEntryAddr = 0 then
        reportDlerror fuel pid dlerrorAddr regs errorXloaderDlsymFailed
      else
        ptraceWritedata pid (mapBase + 0x200) param
        let regs ← callOr pid errorXloaderRemoteCallFailed fuel .entry clientEntryAddr
          [mapBase + 0x200] regs
        let ret : Int32 := ⟨⟨ptraceRetval regs⟩⟩
        let _ ← callOr pid errorXloaderRemoteCallFailed fuel .dlclose sym.dlclose [sohandle] regs
        return ret

/-- **`trace_remote_process`.** `none` is a loader that is still waiting. -/
def traceRemoteProcess (library function param : List UInt8) : Io (Option Int32) := do
  let remoteLibrary ← shared (getModuleBase pid library)
  if remoteLibrary ≠ 0 then return some errorXloaderProcessLoaded
  else if ← shared (ptraceAttach pid) then
    match ← ptraceGetregs pid with
    | none =>
      let _ ← shared (ptraceDetach pid)
      return some (-errorXloaderPtraceFailed)
    | some originalRegs =>
      match ← (inject cfg sym fuel pid library function param originalRegs).run with
      | .error .waiting => return none
      | .error (.exitRegs ret) | .ok ret =>
        let _ ← ptraceSetregs pid originalRegs
        let _ ← shared (ptraceDetach pid)
        return some ret
  else return some (-errorXloaderPtraceFailed)

end Injection

end I386

end Loader

end Dynamicloader
