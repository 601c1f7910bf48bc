import Dynamicloader.Loader.Maps
import Dynamicloader.Loader.Release
/-!
# A target that goes along

Against a kernel that grants every request, reports each return at once and
has the target answer every remote call with the same registers
(`Obliging`), an injection gets to its end: it reaches each of its remote
calls. Which addresses and which memory they are made with is for the
modules that use this.
-/

namespace Dynamicloader

namespace Loader

open Prog

variable {σ : Type}

/-- The front of an injection: memory is mapped in the target, the linker's
functions are looked up, and where all are found `k` goes on. -/
abbrev lookup (sym : Symbols) (fuel : ℕ) (pid : Int32) (r : Regs)
    (k : Regs → Word → Word → Word → Word → Act Int32) : Act Int32 := do
  let mmapAddr ← liftM (getRemoteAddr .arm pid libcPath sym.mmap)
  let regs ← callOr pid errorXloaderMmapFailed fuel .mmap mmapAddr [0, 0x4000, 7, 0x22, 0, 0] r
  let dlopenAddr ← liftM (getRemoteAddr .arm pid linkerPath sym.dlopen)
  let dlsymAddr ← liftM (getRemoteAddr .arm pid linkerPath sym.dlsym)
  let dlcloseAddr ← liftM (getRemoteAddr .arm pid linkerPath sym.dlclose)
  let dlerrorAddr ← liftM (getRemoteAddr .arm pid linkerPath sym.dlerror)
  if dlopenAddr = 0 ∨ dlsymAddr = 0 ∨ dlcloseAddr = 0 ∨ dlerrorAddr = 0 then
    throw (.exitRegs (-errorXloaderDlNotLoaded))
  else k regs dlopenAddr dlsymAddr dlcloseAddr dlerrorAddr

/-- A kernel: what a call is answered, and how it goes on. -/
abbrev Kernel (σ : Type) := σ → (op : Op) → op.Ans × σ

/-- Every request is granted, the target is mapped as `own` and `target` say,
and every remote call leaves `regs`. -/
structure Obliging (kernel : Kernel σ) (own target : Option (List UInt8)) (regs : Regs) : Prop where
  mapsOwn : ∀ s, (kernel s (.maps none)).1 = own
  mapsTarget : ∀ s q, (kernel s (.maps (some q))).1 = target
  attach : ∀ s q, (kernel s (.ptrace q .attach)).1 = true
  setregs : ∀ s q r, (kernel s (.ptrace q (.setregs r))).1 = true
  cont : ∀ s q, (kernel s (.ptrace q .cont)).1 = true
  getregs : ∀ s q, (kernel s (.ptrace q .getregs)).1 = some regs
  waitpid : ∀ s q, (kernel s (.waitpid q)).1 = some 0xb7f

theorem mapsFile_of_nonneg {pid : Int32} (hpid : 0 ≤ pid) : mapsFile pid = some pid :=
  if_neg (Int32.not_lt.mpr hpid)

/-- Nothing is added to an address of libc in the ARM build. -/
theorem not_i386 (name : List UInt8) : ¬ (Arch.arm = .i386 ∧ name = libcPath) :=
  fun h => nomatch h.1

/-- Where it is known which bases are found, `get_remote_addr` translates by
these. -/
theorem spec_getRemoteAddr_found {A : (op : Op) → op.Ans → Prop} {P : Op → Prop} {pid : Int32}
    (hpid : 0 ≤ pid) (hmaps : ∀ q, P (.maps q)) {name : List UInt8} {o t : Word}
    (hown : ∀ maps, A (.maps none) maps → moduleBase maps name = o)
    (htarget : ∀ maps, A (.maps (some pid)) maps → moduleBase maps name = t) (a : Word) :
    Spec A P (· = a + t - o) (getRemoteAddr .arm pid name a) := by
  have howned : Spec A P (· = o) (getModuleBase (-1) name) := by
    refine spec_bind (spec_ask (hmaps none) fun maps hm => hm) fun maps hm => spec_pure ?_
    exact hown maps hm
  have htargeted : Spec A P (· = t) (getModuleBase pid name) := by
    unfold getModuleBase
    rw [mapsFile_of_nonneg hpid]
    refine spec_bind (spec_ask (hmaps (some pid)) fun maps hm => hm) fun maps hm => spec_pure ?_
    exact htarget maps hm
  unfold getRemoteAddr
  refine spec_bind howned fun l hl => spec_bind htargeted fun r hr => spec_pure ?_
  rw [hl, hr]
  exact if_neg (not_i386 name)

/-- What is answered where everything is granted. -/
def granting (own target : Option (List UInt8)) (regs : Regs) : (op : Op) → op.Ans
  | .maps none => own
  | .maps (some _) => target
  | .ptrace _ .attach => true
  | .ptrace _ .getregs => some regs
  | .ptrace _ (.setregs _) => true
  | .ptrace _ .cont => true
  | .ptrace _ (.peektext _) => (0 : Word)
  | .ptrace _ (.poketext ..) => true
  | .ptrace _ .detach => true
  | .waitpid _ => some 0xb7f
  | .stat _ => true
  | .proc => none
  | .cmdline _ => none
  | .calling .. => ()

def grantingKernel (own target : Option (List UInt8)) (regs : Regs) : Kernel Unit :=
  fun s op => (granting own target regs op, s)

theorem granting_obliges (own target : Option (List UInt8)) (regs : Regs) :
    Obliging (grantingKernel own target regs) own target regs where
  mapsOwn _ := rfl
  mapsTarget _ _ := rfl
  attach _ _ := rfl
  setregs _ _ _ := rfl
  cont _ _ := rfl
  getregs _ _ := rfl
  waitpid _ _ := rfl

namespace Obliging

variable {kernel : Kernel σ} {own target : Option (List UInt8)} {regs : Regs}
variable (h : Obliging kernel own target regs) {pid : Int32} {fuel : ℕ}

include h

theorem run_waitpid (s : σ) : ((ask (.waitpid pid)).run kernel s).1 = some 0xb7f := h.waitpid s pid

theorem run_setregs (r : Regs) (s : σ) : ((ptraceSetregs pid r).run kernel s).1 = true :=
  h.setregs s pid r

theorem run_continue (s : σ) : ((ptraceContinue pid).run kernel s).1 = true := h.cont s pid

theorem run_getregs (s : σ) : ((ptraceGetregs pid).run kernel s).1 = some regs := h.getregs s pid

theorem run_ptraceAttach (s : σ) : ((ptraceAttach pid).run kernel s).1 = true := by
  have hattach : ((ask (.ptrace pid .attach)).run kernel s).1 = true := h.attach s pid
  unfold ptraceAttach
  rw [run_bind]
  simp only [hattach, if_true]
  rfl

theorem run_awaitFault (stat : Word) (s : σ) :
    ((awaitFault pid fuel stat).run.run kernel s).1 = .ok true := by
  unfold awaitFault
  simp only [run_lift_bind, h.run_waitpid]
  rfl

theorem run_ptraceCall (addr : Word) (params : List Word) (r : Regs) (s : σ) :
    ((ptraceCall pid fuel addr params r).run.run kernel s).1 = .ok true := by
  unfold ptraceCall
  simp only [run_lift_bind, h.run_setregs, h.run_continue, if_true]
  exact h.run_awaitFault _ _

theorem run_callOr (error : Int32) (func : Func) (addr : Word) (params : List Word) (r : Regs)
    (s : σ) : ((callOr pid error fuel func addr params r).run.run kernel s).1 = .ok regs := by
  have hcall : ((ptraceCall2 pid fuel func addr params r).run.run kernel s).1 = .ok (some regs) := by
    unfold ptraceCall2
    rw [run_lift_bind, run_bind_ok (h.run_ptraceCall _ _ _ _)]
    simp only [if_true, run_run_lift, h.run_getregs]
  unfold callOr
  rw [run_bind_ok hcall]
  rfl

theorem run_getModuleBase (hpid : 0 ≤ pid) (name : List UInt8) (s : σ) :
    ((getModuleBase pid name).run kernel s).1 = moduleBase target name := by
  unfold getModuleBase
  rw [run_bind, mapsFile_of_nonneg hpid]
  exact congrArg (moduleBase · name) (h.mapsTarget s pid)

theorem run_getModuleBase_own (name : List UInt8) (s : σ) :
    ((getModuleBase (-1) name).run kernel s).1 = moduleBase own name := by
  have hfile : mapsFile (-1) = none := rfl
  unfold getModuleBase
  rw [run_bind, hfile]
  exact congrArg (moduleBase · name) (h.mapsOwn s)

theorem run_getRemoteAddr (arch : Arch) (hpid : 0 ≤ pid) (name : List UInt8) (a : Word) (s : σ) :
    ((getRemoteAddr arch pid name a).run kernel s).1 =
      let addr := a + moduleBase target name - moduleBase own name
      if arch = .i386 ∧ name = libcPath then addr + 2 else addr := by
  unfold getRemoteAddr
  rw [run_bind, run_bind]
  simp only [h.run_getModuleBase_own, h.run_getModuleBase hpid]
  rfl

theorem run_getRemoteAddr_arm (hpid : 0 ≤ pid) (name : List UInt8) (a : Word) (s : σ) :
    ((getRemoteAddr .arm pid name a).run kernel s).1 =
      a + moduleBase target name - moduleBase own name :=
  (h.run_getRemoteAddr .arm hpid name a s).trans (if_neg (not_i386 name))

/-! ## The remote calls that are reached -/

variable {cfg : Config} {sym : Symbols} {library function param : List UInt8}

omit h in
theorem callOr_asks (error : Int32) (func : Func) (addr : Word) (params : List Word) (r : Regs) :
    Asks kernel (callOr pid error fuel func addr params r).run (.calling func addr params) := by
  unfold callOr ptraceCall2
  refine asks_bind_left fun s => ⟨s, reaches_lift_bind.mpr (.inl ?_)⟩
  exact .inl ⟨rfl, rfl⟩

theorem asks_mmap (hpid : 0 ≤ pid) (r : Regs) :
    Asks kernel (inject cfg sym fuel pid library function param r).run
      (.calling .mmap (sym.mmap + moduleBase target libcPath - moduleBase own libcPath)
        [0, 0x4000, 7, 0x22, 0, 0]) := by
  unfold inject
  refine asks_lift_bind (h.run_getRemoteAddr_arm hpid _ _) ?_
  exact asks_bind_left (callOr_asks _ _ _ _ _)

/-- Where the linker's functions have addresses, what is done with these is
reached. -/
theorem asks_lookup (hpid : 0 ≤ pid)
    (hlinker : ∀ a ∈ [sym.dlopen, sym.dlsym, sym.dlclose, sym.dlerror],
      a + moduleBase target linkerPath - moduleBase own linkerPath ≠ 0) {r : Regs} {op : Op}
    {k : Regs → Word → Word → Word → Word → Act Int32}
    (hk : Asks kernel (k regs
      (sym.dlopen + moduleBase target linkerPath - moduleBase own linkerPath)
      (sym.dlsym + moduleBase target linkerPath - moduleBase own linkerPath)
      (sym.dlclose + moduleBase target linkerPath - moduleBase own linkerPath)
      (sym.dlerror + moduleBase target linkerPath - moduleBase own linkerPath)).run op) :
    Asks kernel (lookup sym fuel pid r k).run op := by
  refine asks_lift_bind (h.run_getRemoteAddr_arm hpid _ _) ?_
  refine asks_bind_right (h.run_callOr _ _ _ _ _) ?_
  refine asks_lift_bind (h.run_getRemoteAddr_arm hpid _ _) ?_
  refine asks_lift_bind (h.run_getRemoteAddr_arm hpid _ _) ?_
  refine asks_lift_bind (h.run_getRemoteAddr_arm hpid _ _) ?_
  refine asks_lift_bind (h.run_getRemoteAddr_arm hpid _ _) ?_
  rw [if_neg (by
    rintro (h0 | h0 | h0 | h0)
    all_goals exact hlinker _ (by simp) h0)]
  exact hk

/-- Where the linker's functions have addresses, `dlopen` is called at its. -/
theorem asks_dlopen (hpid : 0 ≤ pid)
    (hlinker : ∀ a ∈ [sym.dlopen, sym.dlsym, sym.dlclose, sym.dlerror],
      a + moduleBase target linkerPath - moduleBase own linkerPath ≠ 0) (r : Regs) :
    Asks kernel (inject cfg sym fuel pid library function param r).run
      (.calling .dlopen (sym.dlopen + moduleBase target linkerPath - moduleBase own linkerPath)
        [ptraceRetval regs, 2]) := by
  unfold inject
  refine h.asks_lookup hpid hlinker ?_
  refine asks_lift_bind (a := ()) (fun _ => rfl) ?_
  exact asks_bind_left (callOr_asks _ _ _ _ _)

/-- Where the linker's functions have addresses, the injection gets as far as
the client's entry, and on to `dlclose`. -/
theorem asks_last (hpid : 0 ≤ pid) (hregs : ptraceRetval regs ≠ 0)
    (hlinker : ∀ a ∈ [sym.dlopen, sym.dlsym, sym.dlclose, sym.dlerror],
      a + moduleBase target linkerPath - moduleBase own linkerPath ≠ 0) (r : Regs) :
    Asks kernel (inject cfg sym fuel pid library function param r).run
        (.calling .entry (ptraceRetval regs) [ptraceRetval regs + 0x200]) ∧
      Asks kernel (inject cfg sym fuel pid library function param r).run
        (.calling .dlclose sym.dlclose [ptraceRetval regs]) := by
  -- both calls stand behind the same stages
  have hstages : ∀ op, Asks kernel (callOr pid errorXloaderRemoteCallFailed fuel .entry
        (ptraceRetval regs) [ptraceRetval regs + 0x200] regs >>= fun r =>
        callOr pid errorXloaderRemoteCallFailed fuel .dlclose sym.dlclose [ptraceRetval regs] r
          >>= fun _ => pure (⟨⟨ptraceRetval r⟩⟩ : Int32)).run op →
      Asks kernel (inject cfg sym fuel pid library function param r).run op := by
    intro op hop
    unfold inject
    refine h.asks_lookup hpid hlinker ?_
    refine asks_lift_bind (a := ()) (fun _ => rfl) ?_
    refine asks_bind_right (h.run_callOr _ _ _ _ _) ?_
    dsimp only
    rw [if_neg fun h0 => hregs h0.2]
    refine asks_lift_bind (a := ()) (fun _ => rfl) ?_
    refine asks_bind_right (h.run_callOr _ _ _ _ _) ?_
    rw [if_neg hregs]
    exact asks_lift_bind (a := ()) (fun _ => rfl) hop
  refine ⟨hstages _ (asks_bind_left (callOr_asks _ _ _ _ _)), hstages _ ?_⟩
  exact asks_bind_right (h.run_callOr _ _ _ _ _) (asks_bind_left (callOr_asks _ _ _ _ _))

/-- What the injection asks is asked by the whole function, as long as the
library is not there. -/
theorem trace_asks (hpid : 0 ≤ pid) (hlibrary : moduleBase target library = 0) {op : Op}
    (hop : Asks kernel (inject cfg sym fuel pid library function param regs).run op) :
    Asks kernel (traceRemoteProcess cfg sym fuel pid library function param) op := by
  unfold traceRemoteProcess
  refine asks_bind (h.run_getModuleBase hpid _) ?_
  rw [if_neg (not_not.mpr hlibrary)]
  refine asks_bind h.run_ptraceAttach (asks_bind h.run_getregs ?_)
  intro s
  obtain ⟨t, ht⟩ := hop s
  exact ⟨t, reaches_bind.mpr (.inl ht)⟩

end Obliging

end Loader

end Dynamicloader
