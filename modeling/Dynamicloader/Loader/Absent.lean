import Dynamicloader.Loader.Address
import Dynamicloader.Loader.Stages
/-!
# A target without libc or the linker

`get_module_base` says 0 for a module that no line mentions, and an address
is computed with this as with any base: what comes out is the function's
offset in the module. `mmap` is called there as it is. The addresses of the
linker's functions are checked for null first, but an offset is null only for
a function at the very front of the linker, so that a target without the
linker is as a rule taken for one with it.
-/

namespace Dynamicloader

namespace Loader

open Prog

/-- The modules that functions are called of. -/
inductive Module where
  | libc
  | linker
  deriving DecidableEq

namespace Module

def path : Module → List UInt8
  | .libc => libcPath
  | .linker => linkerPath

def functions : Module → List Func
  | .libc => [.mmap]
  | .linker => [.dlopen, .dlsym, .dlclose, .dlerror]

/-- The loader has a mapping of the module, and no line of the target's
`maps` mentions it. -/
structure Missing (m : Module) (own target : List UInt8) : Prop where
  mapped : ∃ line ∈ fgetsLines 1024 [] own, strstr line m.path = true
  absent : ∀ line ∈ fgetsLines 1024 [] target, strstr line m.path = false

theorem Missing.moduleBase_eq {m : Module} {own target : List UInt8} (h : m.Missing own target) :
    moduleBase (some target) m.path = 0 := by
  have hfind : (fgetsLines 1024 [] target).find? (strstr · m.path) = none := by
    rw [List.find?_eq_none]
    intro line hline
    simp [h.absent line hline]
  simp only [moduleBase, hfind]

end Module

/-- The loader's `maps` read `own`, the target's `target`. -/
def Mapped (own target : List UInt8) : (op : Op) → op.Ans → Prop
  | .maps none, maps => maps = some own
  | .maps (some _), maps => maps = some target
  | _, _ => True

/-- **The target is rejected for want of a module**, by a program that
injects: in every run with these `maps`, no function of the module is called
and a result is a negative code, of its own for the linker, once the target
has got as far. -/
structure Rejected (c : Io (Option Int32)) (own target : List UInt8) (m : Module) : Prop where
  uncalled : ∀ xs r, c.Makes xs r → (∀ x ∈ xs, Mapped own target x.1 x.2) →
    ∀ x ∈ xs, ∀ f ∈ m.functions, x.1.Uncalled f
  negative : ∀ xs ret, c.Makes xs (some ret) → (∀ x ∈ xs, Mapped own target x.1 x.2) → ret < 0
  code : m = .linker → ∀ xs r, c.Makes xs r → (∀ x ∈ xs, Mapped own target x.1 x.2) →
    (returned .mmap xs).isSome → r = some (-errorXloaderDlNotLoaded)

variable {cfg : Config} {sym : Symbols} {fuel : ℕ} {pid : Int32}
variable {library function param own target : List UInt8}

/-! ## The linker's functions at null -/

/-- Where the linker's functions stand in it, by what the loader finds. -/
def linkerOffsets (sym : Symbols) (own : List UInt8) : List Word :=
  [sym.dlopen, sym.dlsym, sym.dlclose, sym.dlerror].map (· - moduleBase (some own) linkerPath)

section Null

variable {P : Op → Prop} {E : Exit → Prop}

/-- Without the linker in the target its functions are looked for at their
offsets, and the injection ends if one of these is null. -/
theorem spec_notFound (hpid : 0 ≤ pid) (hmaps : ∀ q, P (.maps q))
    (htarget : moduleBase (some target) linkerPath = 0) (hnull : 0 ∈ linkerOffsets sym own)
    (hcode : E (.exitRegs (-errorXloaderDlNotLoaded)))
    {k : Word → Word → Word → Word → Act Int32} :
    Spec (Mapped own target) P (Outcome E fun _ => False) (do
      let dlopenAddr ← liftM (getRemoteAddr .arm pid linkerPath sym.dlopen)
      let dlsymAddr ← liftM (getRemoteAddr .arm pid linkerPath sym.dlsym)
      let dlcloseAddr ← liftM (getRemoteAddr .arm pid linkerPath sym.dlclose)
      let dlerrorAddr ← liftM (getRemoteAddr .arm pid linkerPath sym.dlerror)
      if dlopenAddr = 0 ∨ dlsymAddr = 0 ∨ dlcloseAddr = 0 ∨ dlerrorAddr = 0 then
        throw (.exitRegs (-errorXloaderDlNotLoaded))
      else k dlopenAddr dlsymAddr dlcloseAddr dlerrorAddr : Act Int32).run := by
  have hown : ∀ maps, Mapped own target (.maps none) maps →
      moduleBase maps linkerPath = moduleBase (some own) linkerPath := by
    rintro maps rfl
    rfl
  have hfound : ∀ maps, Mapped own target (.maps (some pid)) maps →
      moduleBase maps linkerPath = 0 := by
    rintro maps rfl
    exact htarget
  have haddr : ∀ a, Spec (Mapped own target) P (· = a + 0 - moduleBase (some own) linkerPath)
      (getRemoteAddr .arm pid linkerPath a) := spec_getRemoteAddr_found hpid hmaps hown hfound
  refine spec_bind_except (spec_lift (haddr _)) fun o ho => ?_
  refine spec_bind_except (spec_lift (haddr _)) fun s hs => ?_
  refine spec_bind_except (spec_lift (haddr _)) fun c hc => ?_
  refine spec_bind_except (spec_lift (haddr _)) fun e he => ?_
  -- a base of 0 leaves the offsets, of which one is null
  have hzero : o = 0 ∨ s = 0 ∨ c = 0 ∨ e = 0 := by
    rw [ho, hs, hc, he]
    simpa [linkerOffsets, eq_comm] using hnull
  rw [if_pos hzero]
  exact hcode

/-- The injection then calls `mmap` only. -/
theorem spec_inject_notFound (hpid : 0 ≤ pid) (hP : ∀ op : Op, op.Working pid → P op)
    (hmaps : ∀ q, P (.maps q)) (hmmap : ∀ a params, P (.calling .mmap a params))
    (htarget : moduleBase (some target) linkerPath = 0) (hnull : 0 ∈ linkerOffsets sym own)
    (regs : Regs) :
    Spec (Mapped own target) P (Outcome Exit.Failed fun _ => False)
      (inject cfg sym fuel pid library function param regs).run := by
  have hfailed : (Exit.exitRegs (-errorXloaderMmapFailed)).Failed := by
    show -errorXloaderMmapFailed < 0
    decide
  have hcode : (Exit.exitRegs (-errorXloaderDlNotLoaded)).Failed := by
    show -errorXloaderDlNotLoaded < 0
    decide
  unfold inject
  refine spec_bind_except (spec_lift (spec_getRemoteAddr hmaps)) fun m _ => ?_
  refine spec_bind_except (spec_callOr hP trivial hfailed (hmmap _ _) regs) fun regs _ => ?_
  exact spec_notFound hpid hmaps htarget hnull hcode

/-- Once `mmap` has come back, it ends with the linker's code. -/
theorem inject_after_notFound (hpid : 0 ≤ pid)
    (htarget : moduleBase (some target) linkerPath = 0) (hnull : 0 ∈ linkerOffsets sym own)
    (regs : Regs) :
    After (Mapped own target) .mmap
      (fun _ _ res => res = .error (.exitRegs (-errorXloaderDlNotLoaded)))
      (inject cfg sym fuel pid library function param regs) := by
  unfold inject
  refine after_getRemoteAddr fun m => after_call fun regs zs res h hA => ?_
  have hres := (Spec.makes (spec_notFound (P := fun _ => True)
    (E := (· = .exitRegs (-errorXloaderDlNotLoaded))) hpid (fun _ => trivial) htarget hnull rfl)
    h hA).2
  cases res with
  | ok ret => exact hres.elim
  | error e => exact congrArg Except.error hres

end Null

/-! ## The whole run -/

section NotFound

variable (hpid : 0 ≤ pid) (htarget : moduleBase (some target) linkerPath = 0)
variable (hnull : 0 ∈ linkerOffsets sym own)

include hpid htarget hnull

theorem inject_notFound {regs : Regs} {ys : Trace} {res : Except Exit Int32}
    (h : (inject cfg sym fuel pid library function param regs).run.Makes ys res)
    (hA : ∀ y ∈ ys, Mapped own target y.1 y.2) :
    (∀ y ∈ ys, ∀ f ∈ Module.linker.functions, y.1.Uncalled f) ∧
      Outcome Exit.Failed (fun _ => False) res := by
  refine Spec.makes (P := fun op => ∀ f ∈ Module.linker.functions, op.Uncalled f)
    (spec_inject_notFound hpid ?_ ?_ ?_ htarget hnull regs) h hA
  · exact fun op hop f _ => hop.uncalled
  · exact fun q f _ => by simp [Op.Uncalled]
  · intro a params f hf b params'
    rintro ⟨⟩
    simp [Module.functions] at hf

/-- Each way a run can go, where the library is not there. -/
theorem Traced.notFound (hlibrary : moduleBase (some target) library = 0) {xs : Trace}
    {r : Option Int32} (h : Traced cfg sym fuel pid library function param xs r)
    (hA : ∀ x ∈ xs, Mapped own target x.1 x.2) :
    (∀ x ∈ xs, ∀ f ∈ Module.linker.functions, x.1.Uncalled f) ∧
      (∀ ret, r = some ret → ret < 0) ∧
      ((returned .mmap xs).isSome → r = some (-errorXloaderDlNotLoaded)) := by
  cases h with
  | @loaded maps hloaded =>
    have hmaps : Mapped own target (.maps (mapsFile pid)) maps := hA _ List.mem_cons_self
    rw [mapsFile_of_nonneg hpid] at hmaps
    obtain rfl : maps = some target := hmaps
    exact absurd hlibrary hloaded
  | refused _ =>
    refine ⟨by simp [Op.Uncalled], ?_, fun hret => by cases hret⟩
    rintro _ ⟨⟩
    decide
  | unread _ =>
    refine ⟨by simp [Op.Uncalled], ?_, fun hret => by cases hret⟩
    rintro _ ⟨⟩
    decide
  | @waiting maps stat regs ys _ hmakes =>
    rw [List.forall_mem_append] at hA
    obtain ⟨hys, -⟩ := inject_notFound hpid htarget hnull hmakes hA.2
    refine ⟨?_, fun _ h => (by cases h), fun hret => ?_⟩
    · rw [List.forall_mem_append]
      exact ⟨by simp [Op.Uncalled], hys⟩
    · obtain ⟨⟨regs', rest⟩, hret⟩ := Option.isSome_iff_exists.mp hret
      cases inject_after_notFound hpid htarget hnull regs ys _ hmakes hA.2 regs' rest hret
  | @ended maps stat regs ys res ret s d _ hmakes hres =>
    rw [List.forall_mem_append, List.forall_mem_append] at hA
    obtain ⟨hys, hout⟩ := inject_notFound hpid htarget hnull hmakes hA.1.2
    refine ⟨?_, ?_, fun hret => ?_⟩
    · rw [List.forall_mem_append, List.forall_mem_append]
      exact ⟨⟨by simp [Op.Uncalled], hys⟩, by simp [Op.Uncalled]⟩
    · rintro _ ⟨⟩
      rcases hres with rfl | rfl
      · exact hout
      · exact hout.elim
    · obtain ⟨⟨regs', rest⟩, hret⟩ := Option.isSome_iff_exists.mp hret
      obtain ⟨rest', hinjected, -⟩ := returned_ended hret
      have hcode := inject_after_notFound hpid htarget hnull regs ys _ hmakes hA.1.2 _ _ hinjected
      rcases hres with rfl | rfl
      · cases hcode
        rfl
      · cases hcode

/-- Where one of the linker's functions seems to be at null and the library is
not there yet, the target is rejected. -/
theorem rejected_linker (hlibrary : moduleBase (some target) library = 0) :
    Rejected (traceRemoteProcess cfg sym fuel pid library function param) own target .linker where
  uncalled _ _ h hA :=
    (Traced.notFound hpid htarget hnull hlibrary (traceRemoteProcess_traced h) hA).1
  negative _ ret h hA :=
    (Traced.notFound hpid htarget hnull hlibrary (traceRemoteProcess_traced h) hA).2.1 ret rfl
  code _ _ _ h hA :=
    (Traced.notFound hpid htarget hnull hlibrary (traceRemoteProcess_traced h) hA).2.2

end NotFound

/-- A target that has the library is left with a positive code. -/
theorem makes_loaded {maps : Option (List UInt8)} (h : moduleBase maps library ≠ 0) :
    (traceRemoteProcess cfg sym fuel pid library function param).Makes
      [⟨.maps (mapsFile pid), maps⟩] (some errorXloaderProcessLoaded) := by
  refine ⟨maps, [], rfl, ?_⟩
  show Makes (if moduleBase maps library ≠ 0 then _ else _) _ _
  rw [if_pos h]
  exact ⟨rfl, rfl⟩

/-- What is asked where everything is granted is asked in a run with the
`maps`. -/
theorem exists_run_granting {regs : Regs} {c : Io (Option Int32)} {op : Op}
    (h : Asks (grantingKernel (some own) (some target) regs) c op) :
    ∃ xs r, c.Makes xs r ∧ (∀ x ∈ xs, Mapped own target x.1 x.2) ∧ ∃ x ∈ xs, x.1 = op := by
  obtain ⟨xs, r, hmakes, hanswer, hasked⟩ := h.exists_run ()
  refine ⟨xs, r, hmakes, fun x hx => ?_, hasked⟩
  obtain ⟨t, hans⟩ := hanswer x hx
  obtain ⟨op, ans⟩ := x
  cases op with
  | maps q =>
    cases q with
    | none => exact hans
    | some q => exact hans
  | _ => trivial

/-- **When a target without a module is rejected**: it is the linker that is
missing, the library is not in the target, and the loader takes one of the
linker's functions to stand at its very front. -/
theorem rejected_iff (cfg : Config) (sym : Symbols) (fuel : ℕ) {pid : Int32} (hpid : 0 ≤ pid)
    (library function param : List UInt8) {own target : List UInt8} {m : Module}
    (hm : m.Missing own target) :
    Rejected (traceRemoteProcess cfg sym fuel pid library function param) own target m ↔
      m = .linker ∧ moduleBase (some target) library = 0 ∧ 0 ∈ linkerOffsets sym own := by
  constructor
  · intro h
    have hread : Mapped own target (.maps (mapsFile pid)) (some target) := by
      rw [mapsFile_of_nonneg hpid]
      rfl
    have hlibrary : moduleBase (some target) library = 0 := by
      by_contra hloaded
      exact absurd (h.negative _ _ (makes_loaded hloaded) (by simpa using hread)) (by decide)
    have hgranting := granting_obliges (some own) (some target) (Vector.replicate 18 1)
    -- a function of the module is not called where everything is granted
    have huncalled : ∀ f ∈ m.functions, ∀ a params,
        ¬ Asks (grantingKernel (some own) (some target) (Vector.replicate 18 1))
          (inject cfg sym fuel pid library function param (Vector.replicate 18 1)).run
          (.calling f a params) := by
      intro f hf a params hasks
      obtain ⟨xs, r, hmakes, hA, x, hx, hop⟩ :=
        exists_run_granting (hgranting.trace_asks hpid hlibrary hasks)
      exact h.uncalled xs r hmakes hA x hx f hf a params hop
    cases m with
    | libc =>
      exact absurd (hgranting.asks_mmap hpid _) (huncalled .mmap (by simp [Module.functions]) _ _)
    | linker =>
      refine ⟨rfl, hlibrary, ?_⟩
      by_contra hnull
      refine huncalled .dlopen (by simp [Module.functions]) _ _ (hgranting.asks_dlopen hpid ?_ _)
      intro a ha hzero
      have htarget : moduleBase (some target) linkerPath = 0 := hm.moduleBase_eq
      have hoffset : a - moduleBase (some own) linkerPath = 0 := by simpa [htarget] using hzero
      exact hnull (List.mem_map.mpr ⟨a, ha, hoffset⟩)
  · rintro ⟨rfl, hlibrary, hnull⟩
    exact rejected_linker hpid hm.moduleBase_eq hnull hlibrary

/-- A target without any mapping lacks the linker. -/
theorem missing_of_mapsText (libc linker : Word) :
    Module.linker.Missing (mapsText libc linker) [] := by
  refine ⟨⟨mapping linker ++ linkerPath ++ [10], ?_, strstr_line (by decide)⟩, by simp [fgetsLines]⟩
  rw [mapsText_lines]
  exact List.mem_cons_of_mem _ List.mem_cons_self

theorem moduleBase_symbolsB0 :
    moduleBase (some (mapsText 0x40000000 0xb0000000)) linkerPath = 0xb0000000 :=
  (mapsText_shows _ _).2.1.moduleBase_eq

/-- The target has no linker, and `dlopen` is called at its offset. -/
theorem missing_linker_called :
    let c := traceRemoteProcess ⟨true, true⟩ symbolsB0 0 1 clientPathCurrent clientEntryFunc []
    Module.linker.Missing (mapsText 0x40000000 0xb0000000) [] ∧
      (∃ xs r, c.Makes xs r ∧ (∀ x ∈ xs, Mapped (mapsText 0x40000000 0xb0000000) [] x.1 x.2) ∧
        ∃ x ∈ xs, x.1 = .calling .dlopen 0x1000 [1, 2]) ∧
      ¬ Rejected c (mapsText 0x40000000 0xb0000000) [] .linker := by
  intro c
  have hgranting := granting_obliges (some (mapsText 0x40000000 0xb0000000)) (some [])
    (Vector.replicate 18 1)
  have hbase : moduleBase (some []) linkerPath = 0 := rfl
  have hoffset : symbolsB0.dlopen + moduleBase (some []) linkerPath -
      moduleBase (some (mapsText 0x40000000 0xb0000000)) linkerPath = 0x1000 := by
    rw [moduleBase_symbolsB0, hbase]
    decide
  have hrun : ∃ xs r, c.Makes xs r ∧
      (∀ x ∈ xs, Mapped (mapsText 0x40000000 0xb0000000) [] x.1 x.2) ∧
      ∃ x ∈ xs, x.1 = .calling .dlopen 0x1000 [1, 2] := by
    refine exists_run_granting (hgranting.trace_asks (by decide) rfl ?_)
    rw [← hoffset]
    refine hgranting.asks_dlopen (by decide) (fun a ha => ?_) _
    rw [moduleBase_symbolsB0, hbase]
    simp only [symbolsB0, List.mem_cons, List.not_mem_nil, or_false] at ha
    rcases ha with rfl | rfl | rfl | rfl
    all_goals decide
  refine ⟨missing_of_mapsText _ _, hrun, fun h => ?_⟩
  obtain ⟨xs, r, hmakes, hA, x, hx, hop⟩ := hrun
  exact h.uncalled xs r hmakes hA x hx .dlopen (by simp [Module.functions]) _ _ hop

/-- With `dlopen` at the very front of the linker, the target is rejected. -/
theorem missing_linker_rejected : (0 : Int32) ≤ 1 ∧
    Module.linker.Missing (mapsText 0x40000000 0xb0000000) [] ∧
    Rejected (traceRemoteProcess ⟨true, true⟩ ⟨0x40001000, 0xb0000000, 0xb0001100, 0xb0001200,
      0xb0001300⟩ 0 1 clientPathCurrent clientEntryFunc []) (mapsText 0x40000000 0xb0000000) []
      .linker := by
  refine ⟨by decide, missing_of_mapsText _ _, ?_⟩
  refine (rejected_iff _ _ _ (by decide) _ _ _ (missing_of_mapsText _ _)).mpr ⟨rfl, rfl, ?_⟩
  rw [linkerOffsets, moduleBase_symbolsB0]
  decide

end Loader

end Dynamicloader
