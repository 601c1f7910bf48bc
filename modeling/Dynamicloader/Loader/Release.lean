import Dynamicloader.Loader.Model
/-!
# The target is released

However the requests of `trace_remote_process` are answered, it leaves a
target it has attached to as it found it: the last requests put the
captured registers back and detach.

`Traced` says once which exchanges the function can make. Between the two
accesses to the registers stands the injection, of which two things are
needed: it neither attaches nor detaches (`inject_spec`, which is stated
for any kind of calls so that the addresses can be read off it as well),
and where it is still waiting, the target has stopped too often (`Waits`).
-/

namespace Dynamicloader

namespace Loader

open Prog

/-- The calls of a run with their answers. -/
abbrev Trace := List (Exchange Op Op.Ans)

/-! ## What the parts of an injection ask -/

section Spec

variable {A : (op : Op) → op.Ans → Prop} {P : Op → Prop} {E : Exit → Prop}
variable {pid : Int32} {fuel : ℕ}

/-- A request to a target that is attached to. -/
def Op.Working (pid : Int32) (op : Op) : Prop :=
  op = .waitpid pid ∨ ∃ r : Request, op = .ptrace pid r ∧ r ≠ .attach ∧ r ≠ .detach

theorem working_ptrace {r : Request} (h : r ≠ .attach ∧ r ≠ .detach) :
    (Op.ptrace pid r).Working pid := .inr ⟨r, rfl, h⟩

theorem spec_ask {op : Op} {R : op.Ans → Prop} (hop : P op) (h : ∀ x, A op x → R x) :
    Spec A P R (ask op) := ⟨hop, h⟩

/-- The wait makes two kinds of requests. -/
theorem spec_awaitFault_of (hwait : P (.waitpid pid)) (hcont : P (.ptrace pid .cont))
    (hE : E .waiting) : ∀ (fuel : ℕ) (stat : Word),
    Spec A P (Outcome E fun _ => True) (awaitFault pid fuel stat).run := by
  intro fuel
  induction fuel with
  | zero =>
    intro stat
    unfold awaitFault
    refine spec_bind_except (spec_lift (spec_ask hwait fun _ _ => trivial)) fun st _ => ?_
    dsimp only
    split
    · exact spec_pure trivial
    · exact hE
  | succ fuel ih =>
    intro stat
    unfold awaitFault
    refine spec_bind_except (spec_lift (spec_ask hwait fun _ _ => trivial)) fun st _ => ?_
    dsimp only
    split
    · exact spec_pure trivial
    · refine spec_bind_except (spec_lift (spec_ask hcont fun _ _ => trivial)) fun b _ => ?_
      split
      · exact ih _
      · exact spec_pure trivial

/-- The requests of a remote call, up to the registers that are read behind
it. -/
theorem spec_ptraceCall_of (hwait : P (.waitpid pid)) (hcont : P (.ptrace pid .cont))
    (hset : ∀ r, P (.ptrace pid (.setregs r))) (hE : E .waiting) (addr : Word)
    {params : List Word}
    (hwrite : ∀ dest, Spec A P (fun _ => True)
      (ptraceWritedata pid dest ((params.drop 4).flatMap chars))) (regs : Regs) :
    Spec A P (Outcome E fun _ => True) (ptraceCall pid fuel addr params regs).run := by
  unfold ptraceCall
  refine spec_bind_except (spec_lift (hwrite _)) fun _ _ => ?_
  refine spec_bind_except (spec_lift (spec_ask (hset _) fun _ _ => trivial)) fun b _ => ?_
  split
  · refine spec_bind_except (spec_lift (spec_ask hcont fun _ _ => trivial)) fun b _ => ?_
    split
    · exact spec_awaitFault_of hwait hcont hE fuel 0
    · exact spec_pure trivial
  · exact spec_pure trivial

/-- The requests of a remote call that is checked. -/
theorem spec_callOr_of (hwait : P (.waitpid pid)) (hcont : P (.ptrace pid .cont))
    (hset : ∀ r, P (.ptrace pid (.setregs r))) (hget : P (.ptrace pid .getregs)) (hE : E .waiting)
    {error : Int32} (herror : E (.exitRegs (-error))) {func : Func} {addr : Word}
    {params : List Word} (hcalling : P (.calling func addr params))
    (hwrite : ∀ dest, Spec A P (fun _ => True)
      (ptraceWritedata pid dest ((params.drop 4).flatMap chars))) (regs : Regs) :
    Spec A P (Outcome E fun _ => True) (callOr pid error fuel func addr params regs).run := by
  unfold callOr ptraceCall2
  refine spec_bind_except (R := fun _ => True) ?_ fun r _ => ?_
  · refine spec_bind_except (spec_lift (spec_ask hcalling fun _ _ => trivial)) fun _ _ => ?_
    refine spec_bind_except (spec_ptraceCall_of hwait hcont hset hE addr hwrite regs) fun b _ => ?_
    split
    · exact spec_lift (spec_ask hget fun _ _ => trivial)
    · exact spec_pure trivial
  · split
    · exact spec_pure trivial
    · exact herror

theorem spec_readdata_of (hpeek : ∀ addr, P (.ptrace pid (.peektext addr))) (size : ℕ)
    (src : Word) : Spec A P (fun _ => True) (ptraceReaddata pid src size) := by
  fun_induction ptraceReaddata pid src size with
  | case1 => exact spec_pure trivial
  | case2 src size ih =>
    refine spec_bind (spec_ask (hpeek _) fun _ _ => trivial) fun d _ => ?_
    exact spec_bind ih fun _ _ => spec_pure trivial
  | case3 src remain =>
    exact spec_bind (spec_ask (hpeek _) fun _ _ => trivial) fun d _ => spec_pure trivial

theorem spec_writedata_of (hpeek : ∀ addr, P (.ptrace pid (.peektext addr)))
    (hpoke : ∀ addr d, P (.ptrace pid (.poketext addr d))) (data : List UInt8) (dest : Word) :
    Spec A P (fun _ => True) (ptraceWritedata pid dest data) := by
  fun_induction ptraceWritedata pid dest data with
  | case1 => exact spec_pure trivial
  | case2 dest b₀ b₁ b₂ b₃ data ih =>
    exact spec_bind (spec_ask (hpoke _ _) fun _ _ => trivial) fun _ _ => ih
  | case3 dest data =>
    refine spec_bind (spec_ask (hpeek _) fun _ _ => trivial) fun d _ => ?_
    exact spec_bind (spec_ask (hpoke _ _) fun _ _ => trivial) fun _ _ => spec_pure trivial

variable (hP : ∀ op : Op, op.Working pid → P op)

include hP

theorem spec_request (r : Request) (hr : r ≠ .attach ∧ r ≠ .detach) :
    Spec A P (fun _ => True) (ask (.ptrace pid r)) :=
  spec_ask (hP _ (working_ptrace hr)) fun _ _ => trivial

theorem spec_writedata (data : List UInt8) (dest : Word) :
    Spec A P (fun _ => True) (ptraceWritedata pid dest data) :=
  spec_writedata_of (fun _ => hP _ (working_ptrace (by simp)))
    (fun _ _ => hP _ (working_ptrace (by simp))) data dest

theorem spec_ptraceCall (hE : E .waiting) (addr : Word) (params : List Word) (regs : Regs) :
    Spec A P (Outcome E fun _ => True) (ptraceCall pid fuel addr params regs).run :=
  spec_ptraceCall_of (hP _ (.inl rfl)) (hP _ (working_ptrace (by simp)))
    (fun _ => hP _ (working_ptrace (by simp))) hE addr (spec_writedata hP _) regs

theorem spec_callOr (hE : E .waiting) {error : Int32} (herror : E (.exitRegs (-error)))
    {func : Func} {addr : Word} {params : List Word} (hcalling : P (.calling func addr params))
    (regs : Regs) :
    Spec A P (Outcome E fun _ => True) (callOr pid error fuel func addr params regs).run :=
  spec_callOr_of (hP _ (.inl rfl)) (hP _ (working_ptrace (by simp)))
    (fun _ => hP _ (working_ptrace (by simp))) (hP _ (working_ptrace (by simp))) hE herror hcalling
    (spec_writedata hP _) regs

theorem spec_reportDlerror (hE : ∀ e, E e) {addr : Word} (hcalling : P (.calling .dlerror addr []))
    (regs : Regs) (error : Int32) :
    Spec A P (Outcome E fun _ => True) (reportDlerror fuel pid addr regs error).run := by
  unfold reportDlerror
  refine spec_bind_except (spec_callOr hP (hE _) (hE _) hcalling regs) fun r _ => ?_
  have hpeek : ∀ a, P (.ptrace pid (.peektext a)) := fun a => hP _ (working_ptrace (by simp))
  refine spec_bind_except (spec_lift (spec_readdata_of hpeek _ _)) fun _ _ => ?_
  exact hE _

/-- **The calls of an injection.** The addresses it computes are constrained
by `mmap`, `dlopen`, `dlsym`, `dlclose` and `dlerror`; `hlinker` says which
calls follow where none of the linker's is null. -/
theorem inject_spec {cfg : Config} {sym : Symbols} {mmap dlopen dlsym dlclose dlerror : Word → Prop}
    (hE : ∀ e, E e)
    (hmmap : Spec A P mmap (getRemoteAddr .arm pid libcPath sym.mmap))
    (hdlopen : Spec A P dlopen (getRemoteAddr .arm pid linkerPath sym.dlopen))
    (hdlsym : Spec A P dlsym (getRemoteAddr .arm pid linkerPath sym.dlsym))
    (hdlclose : Spec A P dlclose (getRemoteAddr .arm pid linkerPath sym.dlclose))
    (hdlerror : Spec A P dlerror (getRemoteAddr .arm pid linkerPath sym.dlerror))
    (hlibc : ∀ a params, mmap a → P (.calling .mmap a params))
    (hlinker : ∀ o s c e, dlopen o → dlsym s → dlclose c → dlerror e →
      o ≠ 0 → s ≠ 0 → c ≠ 0 → e ≠ 0 → ∀ params, P (.calling .dlopen o params) ∧
        P (.calling .dlsym s params) ∧ P (.calling .dlerror e params) ∧
        P (.calling .dlclose sym.dlclose params))
    (hentry : ∀ a params, P (.calling .entry a params))
    (library function param : List UInt8) (regs : Regs) :
    Spec A P (Outcome E fun _ => True)
      (inject cfg sym fuel pid library function param regs).run := by
  unfold inject
  refine spec_bind_except (spec_lift hmmap) fun m hm => ?_
  refine spec_bind_except (spec_callOr hP (hE _) (hE _) (hlibc m _ hm) regs) fun regs _ => ?_
  refine spec_bind_except (spec_lift hdlopen) fun o ho => ?_
  refine spec_bind_except (spec_lift hdlsym) fun s hs => ?_
  refine spec_bind_except (spec_lift hdlclose) fun c hc => ?_
  refine spec_bind_except (spec_lift hdlerror) fun e he => ?_
  split
  · exact hE _
  · rename_i hnull
    simp only [not_or] at hnull
    have hcalling := hlinker o s c e ho hs hc he hnull.1 hnull.2.1 hnull.2.2.1 hnull.2.2.2
    refine spec_bind_except (spec_lift (spec_writedata hP _ _)) fun _ _ => ?_
    refine spec_bind_except (spec_callOr hP (hE _) (hE _) (hcalling _).1 regs) fun regs _ => ?_
    dsimp only
    split
    · exact spec_reportDlerror hP hE (hcalling _).2.2.1 regs _
    · refine spec_bind_except (spec_lift (spec_writedata hP _ _)) fun _ _ => ?_
      refine spec_bind_except (spec_callOr hP (hE _) (hE _) (hcalling _).2.1 regs) fun regs _ => ?_
      split
      · exact spec_reportDlerror hP hE (hcalling _).2.2.1 regs _
      · refine spec_bind_except (spec_lift (spec_writedata hP _ _)) fun _ _ => ?_
        refine spec_bind_except (spec_callOr hP (hE _) (hE _) (hentry _ _) regs) fun regs _ => ?_
        refine spec_bind_except (spec_callOr hP (hE _) (hE _) (hcalling _).2.2.2 regs) fun _ _ => ?_
        exact spec_pure trivial

omit hP

theorem spec_getModuleBase {q : Int32} {name : List UInt8} (hmaps : ∀ q, P (.maps q)) :
    Spec A P (fun _ => True) (getModuleBase q name) := by
  unfold getModuleBase
  exact spec_bind (spec_ask (hmaps _) fun _ _ => trivial) fun _ _ => spec_pure trivial

theorem spec_getRemoteAddr {arch : Arch} {name : List UInt8} {a : Word}
    (hmaps : ∀ q, P (.maps q)) :
    Spec A P (fun _ => True) (getRemoteAddr arch pid name a) := by
  unfold getRemoteAddr
  refine spec_bind (spec_getModuleBase hmaps) fun _ _ => ?_
  exact spec_bind (spec_getModuleBase hmaps) fun _ _ => spec_pure trivial

include hP in
/-- The calls of the whole function are those of its injection and the ones
around it. -/
theorem trace_spec {cfg : Config} {sym : Symbols} {library function param : List UInt8}
    (hmaps : ∀ q, P (.maps q)) (hattach : P (.ptrace pid .attach))
    (hdetach : P (.ptrace pid .detach))
    (hinject : ∀ regs, Spec A P (Outcome E fun _ => True)
      (inject cfg sym fuel pid library function param regs).run) :
    Spec A P (fun _ => True) (traceRemoteProcess cfg sym fuel pid library function param) := by
  have hdetached : Spec A P (fun _ => True) (ptraceDetach pid) :=
    spec_ask hdetach fun _ _ => trivial
  unfold traceRemoteProcess
  refine spec_bind (spec_getModuleBase hmaps) fun base _ => ?_
  split
  · exact spec_pure trivial
  refine spec_bind (R := fun _ => True) ?_ fun ok _ => ?_
  · refine spec_bind (spec_ask hattach fun _ _ => trivial) fun ok _ => ?_
    split
    · refine spec_bind (spec_ask (hP _ (.inl rfl)) fun _ _ => trivial) fun _ _ => ?_
      exact spec_pure trivial
    · exact spec_pure trivial
  split
  · refine spec_bind (spec_request hP .getregs (by simp)) fun regs _ => ?_
    cases regs with
    | none => exact spec_bind hdetached fun _ _ => spec_pure trivial
    | some regs =>
      refine spec_bind (hinject regs) fun r _ => ?_
      have hrestored : ∀ ret : Int32, Spec A P (fun _ => True) (do
          let _ ← ptraceSetregs pid regs
          let _ ← ptraceDetach pid
          return some ret : Io (Option Int32)) := fun ret =>
        spec_bind (spec_request hP (.setregs regs) (by simp)) fun _ _ =>
          spec_bind hdetached fun _ _ => spec_pure trivial
      cases r with
      | ok ret => exact hrestored ret
      | error e =>
        cases e with
        | waiting => exact spec_pure trivial
        | exitRegs ret => exact hrestored ret
  · exact spec_pure trivial

end Spec

/-! ## Waiting -/

section Waits

variable {α β : Type} {pid : Int32} {fuel : ℕ}

/-- The target stops `n + 1` times other than by returning, and is resumed
after all but the last. -/
inductive Stops (pid : Int32) : ℕ → Trace → Prop
  | last {stat : Option Word} : stat ≠ some 0xb7f → Stops pid 0 [⟨.waitpid pid, stat⟩]
  | resumed {stat : Option Word} {n : ℕ} {xs : Trace} : stat ≠ some 0xb7f → Stops pid n xs →
      Stops pid (n + 1) (⟨.waitpid pid, stat⟩ :: ⟨.ptrace pid .cont, true⟩ :: xs)

/-- A run that is left waiting ends in `fuel + 1` stops. -/
def Waits (pid : Int32) (fuel : ℕ) (c : Act α) : Prop :=
  ∀ xs, c.run.Makes xs (.error .waiting) → ∃ ys zs, xs = ys ++ zs ∧ Stops pid fuel zs

theorem waits_lift (c : Io α) : Waits pid fuel (liftM c : Act α) := by
  intro xs h
  obtain ⟨a, ha, -⟩ := makes_lift h
  cases ha

theorem waits_pure (a : α) : Waits pid fuel (pure a : Act α) := by
  rintro xs ⟨-, h⟩
  cases h

theorem waits_throw (ret : Int32) : Waits pid fuel (throw (.exitRegs ret) : Act α) := by
  rintro xs ⟨-, h⟩
  cases h

theorem waits_bind {c : Act α} {f : α → Act β} (hc : Waits pid fuel c)
    (hf : ∀ a, Waits pid fuel (f a)) : Waits pid fuel (c >>= f) := by
  intro xs h
  rcases makes_bind_error h with h | ⟨ys, a, zs, rfl, -, h⟩
  · exact hc xs h
  · obtain ⟨us, vs, rfl, hstops⟩ := hf a zs h
    exact ⟨ys ++ us, vs, (List.append_assoc _ _ _).symm, hstops⟩

theorem makes_ask {op : Op} {xs : Trace} {x : op.Ans} : (ask op).Makes xs x ↔ xs = [⟨op, x⟩] := by
  constructor
  · rintro ⟨x', ys, rfl, rfl, rfl⟩
    rfl
  · rintro rfl
    exact ⟨x, [], rfl, rfl, rfl⟩

/-- The wait loop is left waiting after as many stops as it has fuel for. -/
theorem awaitFault_stops : ∀ (fuel : ℕ) (stat : Word), stat ≠ 0xb7f → ∀ xs,
    (awaitFault pid fuel stat).run.Makes xs (.error .waiting) → Stops pid fuel xs := by
  intro fuel
  induction fuel with
  | zero =>
    intro stat hstat xs h
    unfold awaitFault at h
    obtain ⟨st, zs, rfl, hloop⟩ := makes_call_bind_except h
    dsimp only at hloop
    split at hloop
    · exact absurd hloop.2 (by simp)
    · rename_i hne
      obtain ⟨rfl, -⟩ := hloop
      exact .last (by rintro rfl; exact hne rfl)
  | succ fuel ih =>
    intro stat hstat xs h
    unfold awaitFault at h
    obtain ⟨st, zs, rfl, hloop⟩ := makes_call_bind_except h
    dsimp only at hloop
    split at hloop
    · exact absurd hloop.2 (by simp)
    · rename_i hne
      obtain ⟨b, ys, rfl, hagain⟩ := makes_call_bind_except hloop
      split at hagain
      · rename_i hb
        subst hb
        exact .resumed (by rintro rfl; exact hne rfl) (ih _ hne ys hagain)
      · exact absurd hagain.2 (by simp)

theorem awaitFault_waits : Waits pid fuel (awaitFault pid fuel 0) := fun xs h =>
  ⟨[], xs, rfl, awaitFault_stops fuel 0 (by decide) xs h⟩

theorem ptraceCall_waits (addr : Word) (params : List Word) (regs : Regs) :
    Waits pid fuel (ptraceCall pid fuel addr params regs) := by
  unfold ptraceCall
  refine waits_bind (waits_lift _) fun _ => ?_
  refine waits_bind (waits_lift _) fun b => ?_
  split
  · refine waits_bind (waits_lift _) fun b => ?_
    split
    · exact awaitFault_waits
    · exact waits_pure false
  · exact waits_pure false

theorem callOr_waits (error : Int32) (func : Func) (addr : Word) (params : List Word)
    (regs : Regs) : Waits pid fuel (callOr pid error fuel func addr params regs) := by
  unfold callOr ptraceCall2
  refine waits_bind ?_ fun r => ?_
  · refine waits_bind (waits_lift _) fun _ => ?_
    refine waits_bind (ptraceCall_waits addr params regs) fun b => ?_
    split
    · exact waits_lift _
    · exact waits_pure none
  · split
    · exact waits_pure _
    · exact waits_throw _

theorem reportDlerror_waits (addr : Word) (regs : Regs) (error : Int32) :
    Waits pid fuel (reportDlerror fuel pid addr regs error) := by
  unfold reportDlerror
  refine waits_bind (callOr_waits _ _ _ _ _) fun r => ?_
  exact waits_bind (waits_lift _) fun _ => waits_throw _

/-- **An injection that does not end has been stopped too often.** -/
theorem inject_waits (cfg : Config) (sym : Symbols) (library function param : List UInt8)
    (regs : Regs) : Waits pid fuel (inject cfg sym fuel pid library function param regs) := by
  unfold inject
  refine waits_bind (waits_lift _) fun _ => ?_
  refine waits_bind (callOr_waits _ _ _ _ _) fun regs => ?_
  refine waits_bind (waits_lift _) fun _ => ?_
  refine waits_bind (waits_lift _) fun _ => ?_
  refine waits_bind (waits_lift _) fun _ => ?_
  refine waits_bind (waits_lift _) fun _ => ?_
  split
  · exact waits_throw _
  · refine waits_bind (waits_lift _) fun _ => ?_
    refine waits_bind (callOr_waits _ _ _ _ _) fun regs => ?_
    dsimp only
    split
    · exact reportDlerror_waits _ _ _
    · refine waits_bind (waits_lift _) fun _ => ?_
      refine waits_bind (callOr_waits _ _ _ _ _) fun regs => ?_
      split
      · exact reportDlerror_waits _ _ _
      · refine waits_bind (waits_lift _) fun _ => ?_
        refine waits_bind (callOr_waits _ _ _ _ _) fun regs => ?_
        exact waits_bind (callOr_waits _ _ _ _ _) fun _ => waits_pure _

end Waits

/-! ## The whole run -/

section Run

variable {cfg : Config} {sym : Symbols} {fuel : ℕ} {pid : Int32}
variable {library function param : List UInt8}

/-- **Which exchanges `trace_remote_process` can make**, and what it then
returns. -/
inductive Traced (cfg : Config) (sym : Symbols) (fuel : ℕ) (pid : Int32)
    (library function param : List UInt8) : Trace → Option Int32 → Prop
  /-- The library is there already. -/
  | loaded {maps : Option (List UInt8)} : moduleBase maps library ≠ 0 →
      Traced cfg sym fuel pid library function param
        [⟨.maps (mapsFile pid), maps⟩] (some errorXloaderProcessLoaded)
  /-- The target cannot be attached to. -/
  | refused {maps : Option (List UInt8)} : moduleBase maps library = 0 →
      Traced cfg sym fuel pid library function param
        [⟨.maps (mapsFile pid), maps⟩, ⟨.ptrace pid .attach, false⟩]
        (some (-errorXloaderPtraceFailed))
  /-- Its registers cannot be read. -/
  | unread {maps : Option (List UInt8)} {stat : Option Word} {d : Bool} :
      moduleBase maps library = 0 →
      Traced cfg sym fuel pid library function param
        [⟨.maps (mapsFile pid), maps⟩, ⟨.ptrace pid .attach, true⟩,
          ⟨.waitpid pid, stat⟩, ⟨.ptrace pid .getregs, none⟩, ⟨.ptrace pid .detach, d⟩]
        (some (-errorXloaderPtraceFailed))
  /-- A remote call has not returned. -/
  | waiting {maps : Option (List UInt8)} {stat : Option Word} {regs : Regs} {ys : Trace} :
      moduleBase maps library = 0 →
      (inject cfg sym fuel pid library function param regs).run.Makes ys (.error .waiting) →
      Traced cfg sym fuel pid library function param
        ([⟨.maps (mapsFile pid), maps⟩, ⟨.ptrace pid .attach, true⟩,
          ⟨.waitpid pid, stat⟩, ⟨.ptrace pid .getregs, some regs⟩] ++ ys) none
  /-- The injection has ended, early or not. -/
  | ended {maps : Option (List UInt8)} {stat : Option Word} {regs : Regs} {ys : Trace}
      {r : Except Exit Int32} {ret : Int32} {s d : Bool} :
      moduleBase maps library = 0 →
      (inject cfg sym fuel pid library function param regs).run.Makes ys r →
      (r = .error (.exitRegs ret) ∨ r = .ok ret) →
      Traced cfg sym fuel pid library function param
        ([⟨.maps (mapsFile pid), maps⟩, ⟨.ptrace pid .attach, true⟩,
          ⟨.waitpid pid, stat⟩, ⟨.ptrace pid .getregs, some regs⟩] ++ ys ++
          [⟨.ptrace pid (.setregs regs), s⟩, ⟨.ptrace pid .detach, d⟩]) (some ret)

theorem makes_getModuleBase {name : List UInt8} {xs : Trace} {b : Word}
    (h : (getModuleBase pid name).Makes xs b) :
    ∃ maps, xs = [⟨.maps (mapsFile pid), maps⟩] ∧ b = moduleBase maps name := by
  obtain ⟨maps, ys, rfl, rfl, rfl⟩ := h
  exact ⟨maps, rfl, rfl⟩

theorem makes_ptraceAttach {xs : Trace} {b : Bool} (h : (ptraceAttach pid).Makes xs b) :
    (b = true ∧ ∃ stat, xs = [⟨.ptrace pid .attach, true⟩, ⟨.waitpid pid, stat⟩]) ∨
      (b = false ∧ xs = [⟨.ptrace pid .attach, false⟩]) := by
  obtain ⟨ok, ys, rfl, h⟩ := h
  cases ok with
  | true =>
    obtain ⟨stat, zs, rfl, rfl, rfl⟩ := h
    exact .inl ⟨rfl, stat, rfl⟩
  | false =>
    obtain ⟨rfl, rfl⟩ := h
    exact .inr ⟨rfl, rfl⟩

theorem traceRemoteProcess_traced {xs : Trace} {r : Option Int32}
    (h : (traceRemoteProcess cfg sym fuel pid library function param).Makes xs r) :
    Traced cfg sym fuel pid library function param xs r := by
  unfold traceRemoteProcess at h
  obtain ⟨_, base, ws, rfl, hbase, hfound⟩ := makes_bind.mp h
  obtain ⟨maps, rfl, rfl⟩ := makes_getModuleBase hbase
  split at hfound
  · rename_i hloaded
    obtain ⟨rfl, rfl⟩ := hfound
    exact .loaded hloaded
  rename_i hunloaded
  have hmaps : moduleBase maps library = 0 := of_not_not hunloaded
  obtain ⟨_, ok, xs, rfl, hattach, hattached⟩ := makes_bind.mp hfound
  obtain ⟨rfl, stat, rfl⟩ | ⟨rfl, rfl⟩ := makes_ptraceAttach hattach
  · obtain ⟨_, regs, ys, rfl, hregs, hread⟩ := makes_bind.mp hattached
    obtain rfl := makes_ask.mp hregs
    cases regs with
    | none =>
      obtain ⟨d, _, rfl, rfl, rfl⟩ := hread
      exact .unread hmaps
    | some regs =>
      obtain ⟨ys, result, zs, rfl, hinject, hend⟩ := makes_bind.mp hread
      cases result with
      | error e =>
        cases e with
        | waiting =>
          obtain ⟨rfl, rfl⟩ := hend
          rw [List.append_nil]
          exact .waiting hmaps hinject
        | exitRegs ret =>
          obtain ⟨s, _, rfl, d, _, rfl, rfl, rfl⟩ := hend
          exact .ended hmaps hinject (.inl rfl)
      | ok ret =>
        obtain ⟨s, _, rfl, d, _, rfl, rfl, rfl⟩ := hend
        exact .ended hmaps hinject (.inr rfl)
  · obtain ⟨rfl, rfl⟩ := hattached
    exact .refused hmaps

/-! ## The requests of a run -/

/-- A `ptrace` or `waitpid` request. -/
def Op.isRequest : Op → Bool
  | .ptrace .. => true
  | .waitpid _ => true
  | _ => false

def requests (xs : Trace) : Trace := xs.filter (·.1.isRequest)

/-- What the first `PTRACE_GETREGS` answers. -/
def captured : Trace → Option Regs
  | [] => none
  | ⟨.ptrace _ .getregs, regs⟩ :: _ => regs
  | _ :: xs => captured xs

/-- **The target is left as it was captured.** -/
structure Released (pid : Int32) (library : List UInt8) (xs : Trace) : Prop where
  /-- A target that was attached to is detached from once, and last. -/
  detached : ⟨.ptrace pid .attach, true⟩ ∈ xs →
    ∃ rs d, requests xs = rs ++ [⟨.ptrace pid .detach, d⟩] ∧ ∀ x ∈ rs, ∀ q, x.1 ≠ .ptrace q .detach
  /-- Right before, the registers captured first are put back. -/
  restored : ∀ regs, captured xs = some regs →
    ∃ rs s d, requests xs = rs ++ [⟨.ptrace pid (.setregs regs), s⟩, ⟨.ptrace pid .detach, d⟩]
  /-- A target that was not attached to is not touched. -/
  untouched : (⟨.ptrace pid .attach, false⟩ ∈ xs ∨
      ∃ maps ys, xs = ⟨.maps (mapsFile pid), maps⟩ :: ys ∧ moduleBase maps library ≠ 0) →
    ∀ x ∈ requests xs, x.1 = .ptrace pid .attach

/-- What an injection asks: it looks at `maps`, marks its calls and makes
requests to a target it keeps. -/
def Op.Injects (pid : Int32) (op : Op) : Prop := op.isRequest = true → op.Working pid

theorem inject_injects {regs : Regs} {ys : Trace} {r : Except Exit Int32}
    (h : (inject cfg sym fuel pid library function param regs).run.Makes ys r) :
    ∀ x ∈ ys, x.1.Injects pid := by
  have hP : ∀ op : Op, op.Working pid → op.Injects pid := fun op hop _ => hop
  have hcalling : ∀ (f : Func) (a : Word) (params : List Word),
      (Op.calling f a params).Injects pid := fun f a params h => by cases h
  have hmaps : ∀ q, (Op.maps q).Injects pid := fun q h => by cases h
  have haddr : ∀ (name : List UInt8) (a : Word),
      Spec (fun _ _ => True) (Op.Injects pid) (fun _ => True) (getRemoteAddr .arm pid name a) :=
    fun name a => spec_getRemoteAddr hmaps
  have hspec : Spec (fun _ _ => True) (Op.Injects pid) (Outcome (fun _ => True) fun _ => True)
      (inject cfg sym fuel pid library function param regs).run := by
    refine inject_spec hP (fun _ => trivial) (haddr _ _) (haddr _ _) (haddr _ _) (haddr _ _)
      (haddr _ _) (fun a params _ => hcalling _ a params) ?_ (fun a params => hcalling _ a params)
      library function param regs
    intro o s c e _ _ _ _ _ _ _ _ params
    exact ⟨hcalling _ _ _, hcalling _ _ _, hcalling _ _ _, hcalling _ _ _⟩
  exact (hspec.makes h fun _ _ => trivial).1

theorem Op.Injects.ne {op : Op} (h : op.Injects pid) (q : Int32) :
    op ≠ .ptrace q .attach ∧ op ≠ .ptrace q .detach := by
  constructor
  · rintro rfl
    obtain h | ⟨r, hr, hne, -⟩ := h rfl
    · cases h
    · cases hr
      exact hne rfl
  · rintro rfl
    obtain h | ⟨r, hr, -, hne⟩ := h rfl
    · cases h
    · cases hr
      exact hne rfl

/-- Every run that returns releases the target. -/
theorem Traced.released {xs : Trace} {ret : Int32}
    (h : Traced cfg sym fuel pid library function param xs (some ret)) :
    Released pid library xs := by
  cases h with
  | @loaded maps hloaded =>
    refine ⟨by simp, by simp [captured], fun _ x hx => by simp [requests, Op.isRequest] at hx⟩
  | @refused maps hmaps =>
    refine ⟨by simp, by simp [captured], fun _ x hx => ?_⟩
    have hx : x = ⟨.ptrace pid .attach, false⟩ := by simpa [requests, Op.isRequest] using hx
    rw [hx]
  | @unread maps stat d hmaps =>
    refine ⟨fun _ => ⟨[_, _, _], d, rfl, by simp⟩, by simp [captured], ?_⟩
    rintro (h | ⟨maps', ys, heq, hne⟩)
    · simp at h
    · cases heq
      exact absurd hmaps hne
  | @ended maps stat regs ys r _ s d hmaps hinject hr =>
    have hinj := inject_injects hinject
    have hreq : requests ([⟨.maps (mapsFile pid), maps⟩, ⟨.ptrace pid .attach, true⟩,
        ⟨.waitpid pid, stat⟩, ⟨.ptrace pid .getregs, some regs⟩] ++ ys ++
        [⟨.ptrace pid (.setregs regs), s⟩, ⟨.ptrace pid .detach, d⟩]) =
        [⟨.ptrace pid .attach, true⟩, ⟨.waitpid pid, stat⟩, ⟨.ptrace pid .getregs, some regs⟩] ++
          requests ys ++ [⟨.ptrace pid (.setregs regs), s⟩, ⟨.ptrace pid .detach, d⟩] := by
      simp [requests, Op.isRequest]
    refine ⟨fun _ => ?_, fun regs' hregs => ?_, ?_⟩
    · refine ⟨[⟨.ptrace pid .attach, true⟩, ⟨.waitpid pid, stat⟩,
        ⟨.ptrace pid .getregs, some regs⟩] ++ requests ys ++ [⟨.ptrace pid (.setregs regs), s⟩], d,
        by rw [hreq]; simp, fun x hx q => ?_⟩
      simp only [List.cons_append, List.nil_append, List.mem_cons, List.mem_append, List.not_mem_nil,
        or_false] at hx
      rcases hx with rfl | rfl | rfl | hx | rfl
      · simp
      · simp
      · simp
      · exact ((hinj x (List.mem_filter.mp hx).1).ne q).2
      · simp
    · obtain rfl : regs = regs' := Option.some.inj hregs
      exact ⟨_, s, d, hreq⟩
    · rintro (h | ⟨maps', ys', heq, hne⟩)
      · simp only [List.cons_append, List.nil_append, List.mem_cons, List.mem_append] at h
        rcases h with h | h | h | h | h | h | h
        · cases h
        · cases h
        · cases h
        · cases h
        · exact absurd rfl ((hinj _ h).ne pid).1
        · cases h
        · simp at h
      · cases heq
        exact absurd hmaps hne

/-- **The target is always released.** However its requests are answered,
`trace_remote_process` returns with the target as it was captured; as long
as it does not return, it is in a remote call and has been told of
`fuel + 1` stops in a row that are not its return. -/
theorem target_released {σ : Type} (kernel : σ → (op : Op) → op.Ans × σ) (s : σ) (cfg : Config)
    (sym : Symbols) (fuel : ℕ) (pid : Int32) (library function param : List UInt8) :
    let run := (traceRemoteProcess cfg sym fuel pid library function param).record kernel s
    (∃ ret, run.2 = some ret ∧ Released pid library run.1) ∨
      (run.2 = none ∧ ∃ xs stops, run.1 = xs ++ stops ∧ Stops pid fuel stops) := by
  intro run
  have hmakes : (traceRemoteProcess cfg sym fuel pid library function param).Makes run.1 run.2 :=
    record_makes _ s
  have hrun := traceRemoteProcess_traced hmakes
  generalize run.1 = xs at hrun
  generalize run.2 = r at hrun
  cases r with
  | some ret => exact .inl ⟨ret, rfl, hrun.released⟩
  | none =>
    cases hrun with
    | waiting hmaps hinject =>
      obtain ⟨us, vs, rfl, hstops⟩ := inject_waits cfg sym library function param _ _ hinject
      exact .inr ⟨rfl, _, vs, (List.append_assoc _ _ _).symm, hstops⟩

end Run

end Loader

end Dynamicloader
