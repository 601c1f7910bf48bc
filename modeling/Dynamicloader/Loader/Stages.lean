import Dynamicloader.Loader.Run
/-!
# Stages that fail

Each stage of an injection has its own way to fail: `mmap` returns -1 for an
address, `dlopen` and `dlsym` return null. The last two are checked, `dlopen`
in the debug build: the error is fetched and the injection ends. `mmap` is
not, so that the library's path is written to the end of the address space
and the linker is called with that, unless the linker seems not to be there.

`returned` reads off a run what a function has returned in the target, and
what the loader has done since.
-/

namespace Dynamicloader

namespace Loader

open Prog

/-! ## What has been returned -/

/-- The next registers that are read, and what follows. -/
def answered : Trace → Option (Regs × Trace)
  | [] => none
  | ⟨.ptrace _ .getregs, regs⟩ :: xs => Option.map (·, xs) regs
  | _ :: xs => answered xs

/-- The registers a function has come back with, and what follows. -/
def returned (f : Func) : Trace → Option (Regs × Trace)
  | [] => none
  | ⟨.calling g _ _, _⟩ :: xs => if g = f then answered xs else returned f xs
  | _ :: xs => returned f xs

/-- The answers when `maps` were read. -/
def mapsRead : Trace → List (Option (List UInt8))
  | [] => []
  | ⟨.maps _, maps⟩ :: xs => maps :: mapsRead xs
  | _ :: xs => mapsRead xs

/-- The addresses that come of reading `maps` twice for each symbol, of the
loader and of the target. -/
def translated (name : List UInt8) : List Word → List (Option (List UInt8)) → List Word
  | a :: as, own :: target :: maps =>
    (a + moduleBase target name - moduleBase own name) :: translated name as maps
  | _, _ => []

/-- Where the linker's functions are found in the target. -/
def linkerFound (sym : Symbols) (xs : Trace) : List Word :=
  translated linkerPath [sym.dlopen, sym.dlsym, sym.dlclose, sym.dlerror] (mapsRead xs)

/-- **A stage has failed**, by what it returned. -/
def StageFailed (cfg : Config) (regs : Regs) : Func → Prop
  | .mmap => ptraceRetval regs = 0xffffffff
  | .dlopen => cfg.debug = true ∧ ptraceRetval regs = 0
  | .dlsym => ptraceRetval regs = 0
  | _ => False

/-- No write to the target's memory, and no remote call but of `dlerror`. -/
def Op.Quiet : Op → Prop
  | .ptrace _ (.poketext ..) => False
  | .calling f _ _ => f = .dlerror
  | _ => True

/-- **The injection has stopped**: nothing more is done in the target, and a
negative code is returned, as soon as the query of the error comes back. -/
def Stopped (pid : Int32) (fuel : ℕ) (rest : Trace) (r : Option Int32) : Prop :=
  (∀ x ∈ rest, x.1.Quiet) ∧ ((∃ ret, r = some ret ∧ ret < 0) ∨
    (r = none ∧ ∃ ys stops, rest = ys ++ stops ∧ Stops pid fuel stops))

/-! ## Reading a run -/

section Trace

variable {f : Func} {ys zs : Trace}

def Op.Uncalled (f : Func) (op : Op) : Prop := ∀ a params, op ≠ .calling f a params

theorem returned_append (h : ∀ x ∈ ys, x.1.Uncalled f) : returned f (ys ++ zs) = returned f zs := by
  induction ys with
  | nil => rfl
  | cons x ys ih =>
    rw [List.forall_mem_cons] at h
    obtain ⟨op, ans⟩ := x
    cases op with
    | calling g a params =>
      have hg : g ≠ f := by
        rintro rfl
        exact h.1 a params rfl
      exact (if_neg hg).trans (ih h.2)
    | _ => exact ih h.2

theorem returned_eq_none (h : ∀ x ∈ ys, x.1.Uncalled f) : returned f ys = none := by
  rw [← List.append_nil ys, returned_append h]
  rfl

theorem answered_append (h : ∀ x ∈ ys, ∀ q, x.1 ≠ .ptrace q .getregs) :
    answered (ys ++ zs) = answered zs := by
  induction ys with
  | nil => rfl
  | cons x ys ih =>
    rw [List.forall_mem_cons] at h
    obtain ⟨op, ans⟩ := x
    cases op with
    | ptrace q r =>
      cases r with
      | getregs => exact absurd rfl (h.1 q)
      | _ => exact ih h.2
    | _ => exact ih h.2

theorem answered_append_tail (h : ∀ x ∈ zs, ∀ q, x.1 ≠ .ptrace q .getregs) :
    answered (ys ++ zs) = (answered ys).map fun p => (p.1, p.2 ++ zs) := by
  induction ys with
  | nil =>
    rw [List.nil_append, ← List.append_nil zs, answered_append h]
    rfl
  | cons x ys ih =>
    obtain ⟨op, ans⟩ := x
    cases op with
    | ptrace q r =>
      cases r with
      | getregs =>
        cases ans with
        | none => rfl
        | some regs => rfl
      | _ => exact ih
    | _ => exact ih

/-- What is done behind the injection is behind every function's return. -/
theorem returned_append_tail (hget : ∀ x ∈ zs, ∀ q, x.1 ≠ .ptrace q .getregs)
    (hcall : ∀ x ∈ zs, x.1.Uncalled f) :
    returned f (ys ++ zs) = (returned f ys).map fun p => (p.1, p.2 ++ zs) := by
  induction ys with
  | nil => exact returned_eq_none hcall
  | cons x ys ih =>
    obtain ⟨op, ans⟩ := x
    cases op with
    | calling g a params =>
      show (if g = f then answered (ys ++ zs) else returned f (ys ++ zs)) =
        (if g = f then answered ys else returned f ys).map _
      split
      · exact answered_append_tail hget
      · exact ih
    | _ => exact ih

theorem mapsRead_append (ys zs : Trace) : mapsRead (ys ++ zs) = mapsRead ys ++ mapsRead zs := by
  induction ys with
  | nil => rfl
  | cons x ys ih =>
    obtain ⟨op, ans⟩ := x
    cases op with
    | maps q => exact congrArg (ans :: ·) ih
    | _ => exact ih

end Trace

/-! ## A call and what follows -/

section After

variable {pid : Int32} {fuel : ℕ} {f : Func} {α : Type}

/-- A remote call marks itself. If it comes back, then with the registers
that are read next. -/
theorem makes_callOr {error : Int32} {addr : Word} {params : List Word} {r : Regs} {ys : Trace}
    {res : Except Exit Regs} (h : (callOr pid error fuel f addr params r).run.Makes ys res) :
    ∃ mid, ys = ⟨.calling f addr params, ()⟩ :: mid ∧
      ((∃ regs, res = .ok regs ∧ ∀ zs, answered (mid ++ zs) = some (regs, zs)) ∨
        ∃ e, res = .error e ∧ answered mid = none) := by
  unfold callOr ptraceCall2 at h
  rw [run_bind_except, makes_bind] at h
  obtain ⟨_, r₂, vs, rfl, hcall, hend⟩ := h
  obtain ⟨_, _, ws, rfl, hmark, hws⟩ := makes_lift_bind hcall
  obtain rfl := makes_ask.mp hmark
  rw [run_bind_except, makes_bind] at hws
  obtain ⟨cs, b, gs, rfl, hcs, hgs⟩ := hws
  -- `ptrace_call` reads no registers, so those that are read next stand behind it
  have hspec : Spec (fun _ _ => True) (fun op : Op => ∀ q, op ≠ .ptrace q .getregs)
      (Outcome (fun _ => True) fun _ => True) (ptraceCall pid fuel addr params r).run :=
    spec_ptraceCall_of (by simp) (by simp) (by simp) trivial addr
      (spec_writedata_of (by simp) (by simp) _) r
  have hmid : ∀ zs, answered (cs ++ zs) = answered zs := fun zs =>
    answered_append (hspec.makes hcs fun _ _ => trivial).1
  cases b with
  | error e =>
    obtain ⟨rfl, rfl⟩ := hgs
    obtain ⟨rfl, rfl⟩ := hend
    exact ⟨cs ++ [], by simp, .inr ⟨e, rfl, hmid []⟩⟩
  | ok b =>
    cases b with
    | false =>
      obtain ⟨rfl, rfl⟩ := hgs
      obtain ⟨rfl, rfl⟩ := hend
      exact ⟨cs ++ [], by simp, .inr ⟨_, rfl, hmid []⟩⟩
    | true =>
      obtain ⟨o, rfl, hread⟩ := makes_lift hgs
      obtain rfl := makes_ask.mp hread
      cases o with
      | none =>
        obtain ⟨rfl, rfl⟩ := hend
        exact ⟨cs ++ [⟨.ptrace pid .getregs, none⟩], by simp, .inr ⟨_, rfl, (hmid _).trans rfl⟩⟩
      | some regs =>
        obtain ⟨rfl, rfl⟩ := hend
        refine ⟨cs ++ [⟨.ptrace pid .getregs, some regs⟩], by simp, .inl ⟨regs, rfl, fun zs => ?_⟩⟩
        rw [List.append_assoc, hmid]
        rfl

/-- **Once `f` has come back**, and as long as the answers are within `A`, `Q`
holds of the registers, the rest of the run and its result. -/
def After (A : (op : Op) → op.Ans → Prop) (f : Func)
    (Q : Regs → Trace → Except Exit Int32 → Prop) (c : Act Int32) : Prop :=
  ∀ ys res, c.run.Makes ys res → (∀ y ∈ ys, A y.1 y.2) →
    ∀ regs rest, returned f ys = some (regs, rest) → Q regs rest res

variable {A : (op : Op) → op.Ans → Prop} {Q : Regs → Trace → Except Exit Int32 → Prop}

theorem after_of_uncalled {c : Act Int32}
    (hc : Spec A (Op.Uncalled f) (Outcome (fun _ => True) fun _ => True) c.run) :
    After A f Q c := by
  intro ys res h hA regs rest hret
  rw [returned_eq_none (hc.makes h hA).1] at hret
  cases hret

theorem after_bind {c : Act α} {k : α → Act Int32}
    (hc : Spec A (Op.Uncalled f) (Outcome (fun _ => True) fun _ => True) c.run)
    (hk : ∀ a, After A f Q (k a)) : After A f Q (c >>= k) := by
  intro ys res h hA regs rest hret
  rw [run_bind_except, makes_bind] at h
  obtain ⟨us, r, vs, rfl, hus, hvs⟩ := h
  rw [List.forall_mem_append] at hA
  rw [returned_append (hc.makes hus hA.1).1] at hret
  cases r with
  | error e =>
    obtain ⟨rfl, rfl⟩ := hvs
    cases hret
  | ok a => exact hk a vs res hvs hA.2 regs rest hret

/-- The call itself: the rest of the run is that of what follows it. -/
theorem after_call {error : Int32} {addr : Word} {params : List Word} {r : Regs}
    {k : Regs → Act Int32}
    (hk : ∀ regs zs res, (k regs).run.Makes zs res → (∀ z ∈ zs, A z.1 z.2) → Q regs zs res) :
    After A f Q (callOr pid error fuel f addr params r >>= k) := by
  intro ys res h hA regs rest hret
  rw [run_bind_except, makes_bind] at h
  obtain ⟨_, r, vs, rfl, hcall, hvs⟩ := h
  rw [List.forall_mem_append] at hA
  obtain ⟨mid, rfl, ⟨regs', rfl, hmid⟩ | ⟨e, rfl, hmid⟩⟩ := makes_callOr hcall
  · have hret : answered (mid ++ vs) = some (regs, rest) := (if_pos rfl).symm.trans hret
    rw [hmid] at hret
    cases hret
    exact hk _ _ _ hvs hA.2
  · obtain ⟨rfl, rfl⟩ := hvs
    have hret : answered (mid ++ []) = some (regs, rest) := (if_pos rfl).symm.trans hret
    rw [List.append_nil, hmid] at hret
    cases hret

theorem Op.Working.uncalled {op : Op} (h : op.Working pid) : op.Uncalled f := by
  rintro a params rfl
  obtain h | ⟨r, h, -⟩ := h
  · cases h
  · cases h

theorem after_getRemoteAddr {name : List UInt8} {a : Word} {k : Word → Act Int32}
    (hk : ∀ w, After A f Q (k w)) : After A f Q (liftM (getRemoteAddr .arm pid name a) >>= k) :=
  after_bind (spec_lift (spec_getRemoteAddr fun _ => by simp [Op.Uncalled])) hk

theorem after_writedata {dest : Word} {data : List UInt8} {k : Unit → Act Int32}
    (hk : ∀ u, After A f Q (k u)) : After A f Q (liftM (ptraceWritedata pid dest data) >>= k) :=
  after_bind (spec_lift (spec_writedata (fun _ => Op.Working.uncalled) data dest)) hk

/-- The call of another function. -/
theorem after_other {g : Func} (hg : g ≠ f) {error : Int32} {addr : Word} {params : List Word}
    {r : Regs} {k : Regs → Act Int32} (hk : ∀ regs, After A f Q (k regs)) :
    After A f Q (callOr pid error fuel g addr params r >>= k) :=
  after_bind (spec_callOr (fun _ => Op.Working.uncalled) trivial trivial
    (by simp [Op.Uncalled, hg]) r) hk

/-- The front of an injection calls `mmap` only. -/
theorem after_lookup (hf : f ≠ .mmap) {sym : Symbols} {r : Regs}
    {k : Regs → Word → Word → Word → Word → Act Int32}
    (hk : ∀ regs o s c e, After A f Q (k regs o s c e)) :
    After A f Q (lookup sym fuel pid r k) := by
  refine after_getRemoteAddr fun m => after_other hf.symm fun regs => ?_
  refine after_getRemoteAddr fun o => after_getRemoteAddr fun s => ?_
  refine after_getRemoteAddr fun c => after_getRemoteAddr fun e => ?_
  split
  · exact after_of_uncalled (spec_pure trivial)
  · exact hk regs o s c e

end After

/-! ## The stages -/

section Stages

variable {cfg : Config} {sym : Symbols} {fuel : ℕ} {pid : Int32}
variable {library function param : List UInt8}

/-- The injection has stopped, as its own run shows it. -/
def Halts (pid : Int32) (fuel : ℕ) (rest : Trace) (res : Except Exit Int32) : Prop :=
  (∀ x ∈ rest, x.1.Quiet) ∧
    ((∃ ret, (res = .error (.exitRegs ret) ∨ res = .ok ret) ∧ ret < 0) ∨
      (res = .error .waiting ∧ ∃ ys stops, rest = ys ++ stops ∧ Stops pid fuel stops))

theorem halts_iff {rest : Trace} {res : Except Exit Int32} {ret : Int32}
    (hres : res = .error (.exitRegs ret) ∨ res = .ok ret) :
    Halts pid fuel rest res ↔ (∀ x ∈ rest, x.1.Quiet) ∧ ret < 0 := by
  rcases hres with rfl | rfl
  · simp [Halts]
  · simp [Halts]

/-- An injection that is left with a negative code, or still waits. -/
def Exit.Failed : Exit → Prop
  | .waiting => True
  | .exitRegs code => code < 0

/-- **The error is fetched and the injection ends.** -/
theorem reportDlerror_halts {addr : Word} {regs : Regs} {error : Int32} (herror : -error < 0)
    {ys : Trace} {res : Except Exit Int32}
    (h : (reportDlerror fuel pid addr regs error).run.Makes ys res) : Halts pid fuel ys res := by
  have hcalling : (Op.calling .dlerror addr []).Quiet := rfl
  have hfailed : (Exit.exitRegs (-errorXloaderDlerrorFailed)).Failed := by
    show -errorXloaderDlerrorFailed < 0
    decide
  have hcall : Spec (fun _ _ => True) Op.Quiet (Outcome Exit.Failed fun _ => True)
      (callOr pid errorXloaderDlerrorFailed fuel .dlerror addr [] regs).run :=
    spec_callOr_of trivial trivial (fun _ => trivial) trivial trivial hfailed hcalling
      (fun _ => spec_pure trivial) regs
  have hspec : Spec (fun _ _ => True) Op.Quiet (Outcome Exit.Failed fun _ => False)
      (reportDlerror fuel pid addr regs error).run := by
    unfold reportDlerror
    refine spec_bind_except hcall fun r _ => ?_
    refine spec_bind_except (spec_lift (spec_readdata_of (fun _ => trivial) _ _)) fun _ _ => ?_
    exact herror
  obtain ⟨hquiet, hres⟩ := hspec.makes h fun _ _ => trivial
  cases res with
  | ok ret => exact hres.elim
  | error e =>
    cases e with
    | waiting => exact ⟨hquiet, .inr ⟨rfl, reportDlerror_waits addr regs error ys h⟩⟩
    | exitRegs ret => exact (halts_iff (.inl rfl)).mpr ⟨hquiet, hres⟩

theorem makes_getRemoteAddr {name : List UInt8} {a w : Word} {xs : Trace}
    (h : (getRemoteAddr .arm pid name a).Makes xs w) :
    ∃ own target, xs = [⟨.maps none, own⟩, ⟨.maps (mapsFile pid), target⟩] ∧
      w = a + moduleBase target name - moduleBase own name := by
  obtain ⟨own, _, rfl, target, _, rfl, rfl, rfl⟩ := h
  exact ⟨own, target, rfl, if_neg (not_i386 name)⟩

/-- A write that is not empty is a write. -/
theorem writedata_pokes {dest : Word} {data : List UInt8} (hdata : data ≠ []) {xs : Trace}
    (h : (ptraceWritedata pid dest data).Makes xs ()) :
    ∃ x ∈ xs, ¬ x.1.Quiet := by
  unfold ptraceWritedata at h
  split at h
  · exact absurd rfl hdata
  · obtain ⟨b, ys, rfl, -⟩ := h
    exact ⟨_, List.mem_cons_self, id⟩
  · obtain ⟨d, _, rfl, b, _, rfl, -⟩ := h
    exact ⟨_, List.mem_cons_of_mem _ List.mem_cons_self, id⟩

/-- What follows a failed `mmap`: the injection goes on unless the linker is
not found. -/
theorem inject_after_mmap (regs : Regs) :
    After (fun _ _ => True) .mmap
      (fun _ rest res => Halts pid fuel rest res ↔ 0 ∈ linkerFound sym rest)
      (inject cfg sym fuel pid library function param regs) := by
  unfold inject
  refine after_getRemoteAddr fun m => after_call fun regs zs res h _ => ?_
  obtain ⟨_, o, _, rfl, ho, h⟩ := makes_lift_bind h
  obtain ⟨_, s, _, rfl, hs, h⟩ := makes_lift_bind h
  obtain ⟨_, c, _, rfl, hc, h⟩ := makes_lift_bind h
  obtain ⟨_, e, zs, rfl, he, h⟩ := makes_lift_bind h
  obtain ⟨own₁, target₁, rfl, rfl⟩ := makes_getRemoteAddr ho
  obtain ⟨own₂, target₂, rfl, rfl⟩ := makes_getRemoteAddr hs
  obtain ⟨own₃, target₃, rfl, rfl⟩ := makes_getRemoteAddr hc
  obtain ⟨own₄, target₄, rfl, rfl⟩ := makes_getRemoteAddr he
  simp only [linkerFound, mapsRead, translated, List.cons_append, List.nil_append, List.mem_cons,
    List.not_mem_nil, or_false]
  split at h
  · rename_i hnull
    obtain ⟨rfl, rfl⟩ := h
    refine iff_of_true ⟨?_, .inl ⟨_, .inl rfl, by decide⟩⟩ (by simpa only [eq_comm] using hnull)
    simp [Op.Quiet]
  · rename_i hnull
    -- the path is written with its NUL, so there is a write whatever it is
    refine iff_of_false (fun hhalts => ?_) (by simpa only [eq_comm] using hnull)
    obtain ⟨us, _, vs, rfl, hwrite, -⟩ := makes_lift_bind h
    obtain ⟨x, hx, hloud⟩ := writedata_pokes (by simp) hwrite
    exact hloud (hhalts.1 x (by simp [hx]))

/-- A `dlopen` that returns null in the debug build ends the injection. -/
theorem inject_after_dlopen (regs : Regs) :
    After (fun _ _ => True) .dlopen
      (fun regs rest res => StageFailed cfg regs .dlopen → Halts pid fuel rest res)
      (inject cfg sym fuel pid library function param regs) := by
  unfold inject
  refine after_lookup (by decide) fun regs o s c e => ?_
  refine after_writedata fun _ => after_call fun regs zs res h _ hfailed => ?_
  have hnull : cfg.debug = true ∧ ptraceRetval regs = 0 := hfailed
  dsimp only at h
  rw [if_pos hnull] at h
  exact reportDlerror_halts (by decide) h

/-- A `dlsym` that returns null ends it. -/
theorem inject_after_dlsym (regs : Regs) :
    After (fun _ _ => True) .dlsym
      (fun regs rest res => StageFailed cfg regs .dlsym → Halts pid fuel rest res)
      (inject cfg sym fuel pid library function param regs) := by
  have hreport : ∀ e regs error, After (fun _ _ => True) .dlsym
      (fun regs rest res => StageFailed cfg regs .dlsym → Halts pid fuel rest res)
      (reportDlerror fuel pid e regs error) := fun e regs error =>
    after_of_uncalled (spec_reportDlerror (fun _ => Op.Working.uncalled) (fun _ => trivial)
      (by simp [Op.Uncalled]) regs error)
  unfold inject
  refine after_lookup (by decide) fun regs o s c e => ?_
  refine after_writedata fun _ => after_other (by decide) fun regs => ?_
  dsimp only
  split
  · exact hreport _ _ _
  · refine after_writedata fun _ => after_call fun regs zs res h _ hfailed => ?_
    have hnull : ptraceRetval regs = 0 := hfailed
    rw [if_pos hnull] at h
    exact reportDlerror_halts (by decide) h

theorem inject_after (f : Func) (regs : Regs) :
    After (fun _ _ => True) f (fun regs rest res => StageFailed cfg regs f →
        (Halts pid fuel rest res ↔ (f = .mmap → 0 ∈ linkerFound sym rest)))
      (inject cfg sym fuel pid library function param regs) := by
  intro ys res h hA regs' rest hret hfailed
  cases f with
  | mmap =>
    have hmmap : Halts pid fuel rest res ↔ 0 ∈ linkerFound sym rest :=
      inject_after_mmap regs ys res h hA regs' rest hret
    simpa using hmmap
  | dlopen =>
    exact iff_of_true (inject_after_dlopen regs ys res h hA regs' rest hret hfailed) (by simp)
  | dlsym =>
    exact iff_of_true (inject_after_dlsym regs ys res h hA regs' rest hret hfailed) (by simp)
  | dlclose => exact hfailed.elim
  | dlerror => exact hfailed.elim
  | entry => exact hfailed.elim

/-- What follows a function's return in a run that has ended: the rest of the
injection, and the target is released. -/
theorem returned_ended {f : Func} {maps : Option (List UInt8)} {stat : Option Word}
    {regs₀ regs : Regs} {ys rest : Trace} {b d : Bool}
    (h : returned f ([⟨.maps (mapsFile pid), maps⟩, ⟨.ptrace pid .attach, true⟩,
      ⟨.waitpid pid, stat⟩, ⟨.ptrace pid .getregs, some regs₀⟩] ++ ys ++
      [⟨.ptrace pid (.setregs regs₀), b⟩, ⟨.ptrace pid .detach, d⟩]) = some (regs, rest)) :
    ∃ rest', returned f ys = some (regs, rest') ∧
      rest = rest' ++ [⟨.ptrace pid (.setregs regs₀), b⟩, ⟨.ptrace pid .detach, d⟩] := by
  have hret : returned f (ys ++ [⟨.ptrace pid (.setregs regs₀), b⟩, ⟨.ptrace pid .detach, d⟩]) =
    some (regs, rest) := h
  rw [returned_append_tail (by simp) (by simp [Op.Uncalled]), Option.map_eq_some_iff] at hret
  obtain ⟨⟨regs', rest'⟩, hinjected, heq⟩ := hret
  cases heq
  exact ⟨rest', hinjected, rfl⟩

/-- **What a failed stage leads to.** Where `mmap` comes back with -1, or
`dlopen` or `dlsym` with null, nothing more is done in the target but for the
error's sake and a negative code is returned, unless it is `mmap` and the
linker is found. -/
theorem stopped_iff {σ : Type} (kernel : Kernel σ) (s : σ) (cfg : Config) (sym : Symbols)
    (fuel : ℕ) (pid : Int32) (library function param : List UInt8) {f : Func} {regs : Regs}
    {rest : Trace} :
    let run := (traceRemoteProcess cfg sym fuel pid library function param).record kernel s
    returned f run.1 = some (regs, rest) → StageFailed cfg regs f →
      (Stopped pid fuel rest run.2 ↔ (f = .mmap → 0 ∈ linkerFound sym rest)) := by
  intro run hret hfailed
  have hmakes : (traceRemoteProcess cfg sym fuel pid library function param).Makes run.1 run.2 :=
    record_makes _ s
  have hrun := traceRemoteProcess_traced hmakes
  generalize run.1 = xs at hret hrun
  generalize run.2 = r at hrun
  cases hrun with
  | loaded _ => cases hret
  | refused _ => cases hret
  | unread _ => cases hret
  | @waiting maps stat regs₀ ys _ hinject =>
    have hret : returned f ys = some (regs, rest) := hret
    rw [← inject_after f regs₀ ys _ hinject (fun _ _ => trivial) regs rest hret hfailed]
    simp [Stopped, Halts]
  | @ended maps stat regs₀ ys res ret b d _ hinject hres =>
    obtain ⟨rest', hinjected, rfl⟩ := returned_ended hret
    -- releasing the target neither looks at `maps` nor writes nor calls
    have hmaps : mapsRead (rest' ++
        [⟨.ptrace pid (.setregs regs₀), b⟩, ⟨.ptrace pid .detach, d⟩]) = mapsRead rest' := by
      simp [mapsRead_append, mapsRead]
    have hquiet : (∀ x ∈ rest' ++
        [⟨.ptrace pid (.setregs regs₀), b⟩, ⟨.ptrace pid .detach, d⟩], x.1.Quiet) ↔
        ∀ x ∈ rest', x.1.Quiet := by
      rw [List.forall_mem_append]
      exact and_iff_left (by simp [Op.Quiet])
    rw [linkerFound, hmaps, ← linkerFound,
      ← inject_after f regs₀ ys _ hinject (fun _ _ => trivial) regs rest' hinjected hfailed,
      halts_iff hres]
    rw [Stopped, hquiet]
    simp

/-- A run against a kernel that grants everything: the loader and the target
are mapped alike, and each remote call returns `r`. -/
def grantedRun (r : Word) : Trace × Option Int32 :=
  (traceRemoteProcess ⟨true, false⟩ ⟨0x40001000, 0x40002000, 0x40003000, 0x40004000, 0x40005000⟩ 0
    100 [47] [99] [0]).record (grantingKernel none none (Vector.replicate 18 r)) ()

/-- `mmap` fails, and `dlopen` is called with its -1 for a path. -/
theorem mmap_failure_ignored :
    ∃ regs rest, returned .mmap (grantedRun 0xffffffff).1 = some (regs, rest) ∧
      StageFailed ⟨true, false⟩ regs .mmap ∧
      ⟨.calling .dlopen 0x40002000 [0xffffffff, 2], ()⟩ ∈ rest ∧
      ¬ Stopped 100 0 rest (grantedRun 0xffffffff).2 := by
  refine ⟨_, _, rfl, rfl, List.mem_of_getElem? (i := 10) rfl, fun h => ?_⟩
  have hquiet : Func.dlopen = .dlerror :=
    h.1 ⟨.calling .dlopen 0x40002000 [0xffffffff, 2], ()⟩ (List.mem_of_getElem? (i := 10) rfl)
  cases hquiet

/-- `dlopen` fails, and the injection ends. -/
theorem dlopen_failure_stops :
    ∃ regs rest, returned .dlopen (grantedRun 0).1 = some (regs, rest) ∧
      StageFailed ⟨true, false⟩ regs .dlopen ∧ Stopped 100 0 rest (grantedRun 0).2 :=
  ⟨_, _, rfl, ⟨rfl, rfl⟩,
    (stopped_iff (grantingKernel none none (Vector.replicate 18 0)) () ⟨true, false⟩ _ 0 100 [47]
      [99] [0] (f := .dlopen) rfl ⟨rfl, rfl⟩).mpr nofun⟩

end Stages

end Loader

end Dynamicloader
