import Dynamicloader.Loader.I386
import Dynamicloader.Loader.Run
/-!
# The addresses of the remote calls

A function of a library stands in the target as far above the library's base
as in the loader. `get_remote_addr` computes this address, and every remote
call but one is made at the address it computes. `dlclose` is called at the
loader's own address, which is the right one only where the linker is mapped
at the same base in both processes. A base of 0x8000 is taken for none, so
the address is also wrong where it is the base in one of them. The i386 build
calls `mmap` two bytes behind the address, wherever libc is.
-/

namespace Dynamicloader

namespace Loader

open Prog

/-- Where a process has libc and the linker. -/
structure Layout where
  libc : Word
  linker : Word

/-- The file shows the layout. -/
def Layout.Shown (l : Layout) (maps : Option (List UInt8)) : Prop :=
  Shows maps libcPath l.libc ∧ Shows maps linkerPath l.linker

/-- The loader is laid out as `own`, the target as `target`, whenever their
`maps` are read. -/
def Laid (own target : Layout) : (op : Op) → op.Ans → Prop
  | .maps none, maps => own.Shown maps
  | .maps (some _), maps => target.Shown maps
  | _, _ => True

/-- A library function is called at its address in the target. -/
def Translated (sym : Symbols) (own target : Layout) : Op → Prop
  | .calling .mmap a _ => a = sym.mmap - own.libc + target.libc
  | .calling .dlopen a _ => a = sym.dlopen - own.linker + target.linker
  | .calling .dlsym a _ => a = sym.dlsym - own.linker + target.linker
  | .calling .dlclose a _ => a = sym.dlclose - own.linker + target.linker
  | .calling .dlerror a _ => a = sym.dlerror - own.linker + target.linker
  | _ => True

variable {cfg : Config} {sym : Symbols} {fuel : ℕ} {pid : Int32} {own target : Layout}
variable {library function param : List UInt8}

/-! ## What `get_remote_addr` computes -/

/-- A module whose bases the layouts show is translated by the bases that are
found. -/
theorem spec_getRemoteAddr_shown {P : Op → Prop} (hpid : 0 ≤ pid) (hmaps : ∀ q, P (.maps q))
    {name : List UInt8} {o t : Word} (hown : ∀ maps, own.Shown maps → Shows maps name o)
    (htarget : ∀ maps, target.Shown maps → Shows maps name t) (a : Word) :
    Spec (Laid own target) P (· = a + foundBase t - foundBase o) (getRemoteAddr .arm pid name a) :=
  spec_getRemoteAddr_found hpid hmaps (fun maps hm => (hown maps hm).moduleBase_eq)
    (fun maps hm => (htarget maps hm).moduleBase_eq) a

/-- A translation by the bases that are found is one by the real bases, if
0x8000 is the base in both processes or in none. -/
theorem translate_eq_iff (a o t : Word) :
    a + foundBase t - foundBase o = a - o + t ↔ (o = 0x8000 ↔ t = 0x8000) := by
  unfold foundBase
  split <;> split <;> bv_omega

/-! ## Every call at the right address -/

/-- The addresses at which the linker's functions are looked for. -/
def linkerAddrs (sym : Symbols) (own target : Layout) : List Word :=
  [sym.dlopen, sym.dlsym, sym.dlclose, sym.dlerror].map fun a =>
    a + foundBase target.linker - foundBase own.linker

/-- The calls are made at the right addresses where libc is not at 0x8000 in
one process only, and either the linker has one base or it is not called. -/
theorem spec_translated (hpid : 0 ≤ pid) (hlibc : own.libc = 0x8000 ↔ target.libc = 0x8000)
    (hlinker : own.linker = target.linker ∨ 0 ∈ linkerAddrs sym own target) :
    Spec (Laid own target) (Translated sym own target) (fun _ => True)
      (traceRemoteProcess cfg sym fuel pid library function param) := by
  have hmaps : ∀ q, Translated sym own target (.maps q) := fun _ => trivial
  have hP : ∀ op : Op, op.Working pid → Translated sym own target op := by
    rintro op (rfl | ⟨r, rfl, -⟩)
    · trivial
    · trivial
  have hmmap : ∀ a, Spec (Laid own target) (Translated sym own target)
      (· = a + foundBase target.libc - foundBase own.libc) (getRemoteAddr .arm pid libcPath a) :=
    spec_getRemoteAddr_shown hpid hmaps (fun _ h => h.1) fun _ h => h.1
  have hdl : ∀ a, Spec (Laid own target) (Translated sym own target)
      (· = a + foundBase target.linker - foundBase own.linker) (getRemoteAddr .arm pid linkerPath a) :=
    spec_getRemoteAddr_shown hpid hmaps (fun _ h => h.2) fun _ h => h.2
  refine trace_spec (E := fun _ => True) hP hmaps trivial trivial fun regs => ?_
  refine inject_spec hP (fun _ => trivial) (hmmap _) (hdl _) (hdl _) (hdl _) (hdl _) ?_ ?_
    (fun _ _ => trivial) library function param regs
  · rintro a params rfl
    exact (translate_eq_iff _ _ _).mpr hlibc
  · rintro o s c e rfl rfl rfl rfl ho hs hc he params
    rcases hlinker with hsame | hnull
    · rw [hsame]
      have htranslate : ∀ a : Word,
          a + foundBase target.linker - foundBase target.linker = a - target.linker + target.linker :=
        fun a => (translate_eq_iff _ _ _).mpr Iff.rfl
      refine ⟨?_, ?_, ?_, ?_⟩
      all_goals simp only [Translated, hsame]
      · exact htranslate _
      · exact htranslate _
      · exact htranslate _
      · exact (BitVec.sub_add_cancel _ _).symm
    · simp only [linkerAddrs, List.map_cons, List.map_nil, List.mem_cons, List.not_mem_nil,
        or_false] at hnull
      rcases hnull with h | h | h | h
      · exact absurd h.symm ho
      · exact absurd h.symm hs
      · exact absurd h.symm hc
      · exact absurd h.symm he

/-! ## Calls at wrong addresses -/

/-- A target that grants everything, for two layouts. -/
def obliging (own target : Layout) : Kernel Unit := fun s op =>
  (match op with
    | .maps none => some (mapsText own.libc own.linker)
    | .maps (some _) => some (mapsText target.libc target.linker)
    | .ptrace _ .attach => true
    | .ptrace _ .getregs => some (Vector.replicate 18 1)
    | .ptrace _ (.setregs _) => true
    | .ptrace _ .cont => true
    | .ptrace _ (.peektext _) => (0 : Word)
    | .ptrace _ (.poketext ..) => true
    | .ptrace _ .detach => true
    | .waitpid _ => some 0xb7f
    | .stat _ => true
    | .proc => none
    | .cmdline _ => none
    | .calling .. => (), s)

theorem obliging_obliges (own target : Layout) :
    Obliging (obliging own target) (some (mapsText own.libc own.linker))
      (some (mapsText target.libc target.linker)) (Vector.replicate 18 1) where
  mapsOwn _ := rfl
  mapsTarget _ _ := rfl
  attach _ _ := rfl
  setregs _ _ _ := rfl
  cont _ _ := rfl
  getregs _ _ := rfl
  waitpid _ _ := rfl

theorem obliging_laid (own target : Layout) (s : Unit) (op : Op) :
    Laid own target op (obliging own target s op).1 := by
  cases op with
  | maps q =>
    cases q with
    | none => exact ⟨(mapsText_shows _ _).1, (mapsText_shows _ _).2.1⟩
    | some q => exact ⟨(mapsText_shows _ _).1, (mapsText_shows _ _).2.1⟩
  | _ => trivial

/-- What the loader asks a target that grants everything, it asks in a run
that shows the layouts. -/
theorem exists_run_of_asks {op : Op}
    (h : Asks (obliging own target)
      (traceRemoteProcess cfg sym fuel pid library function param) op) :
    ∃ xs r, (traceRemoteProcess cfg sym fuel pid library function param).Makes xs r ∧
      (∀ x ∈ xs, Laid own target x.1 x.2) ∧ ∃ x ∈ xs, x.1 = op := by
  obtain ⟨xs, r, hmakes, hanswer, hasked⟩ := h.exists_run ()
  refine ⟨xs, r, hmakes, fun x hx => ?_, hasked⟩
  obtain ⟨u, hu⟩ := hanswer x hx
  rw [hu]
  exact obliging_laid own target u x.1

/-- `mmap` is called at the address its bases as found give. -/
theorem exists_run_mmap (hpid : 0 ≤ pid) :
    ∃ xs r, (traceRemoteProcess cfg sym fuel pid clientPathCurrent function param).Makes xs r ∧
      (∀ x ∈ xs, Laid own target x.1 x.2) ∧ ∃ x ∈ xs, x.1 =
        .calling .mmap (sym.mmap + foundBase target.libc - foundBase own.libc)
          [0, 0x4000, 7, 0x22, 0, 0] := by
  have h := obliging_obliges own target
  refine exists_run_of_asks (h.trace_asks hpid (mapsText_shows _ _).2.2 ?_)
  rw [← (mapsText_shows target.libc target.linker).1.moduleBase_eq,
    ← (mapsText_shows own.libc own.linker).1.moduleBase_eq]
  exact h.asks_mmap hpid _

/-- `dlclose` is called at the loader's own address. -/
theorem exists_run_dlclose (hpid : 0 ≤ pid) (hnull : 0 ∉ linkerAddrs sym own target) :
    ∃ xs r, (traceRemoteProcess cfg sym fuel pid clientPathCurrent function param).Makes xs r ∧
      (∀ x ∈ xs, Laid own target x.1 x.2) ∧ ∃ x ∈ xs, x.1 =
        .calling .dlclose sym.dlclose [1] := by
  have h := obliging_obliges own target
  refine exists_run_of_asks (h.trace_asks hpid (mapsText_shows _ _).2.2 ?_)
  refine (h.asks_last hpid (by decide) (fun a ha heq => hnull ?_) _).2
  rw [(mapsText_shows _ _).2.1.moduleBase_eq, (mapsText_shows _ _).2.1.moduleBase_eq] at heq
  exact List.mem_map.mpr ⟨a, ha, heq⟩

/-! ## The i386 build -/

namespace I386

/-- The layouts are shown whenever the `maps` are read. -/
def Laid (own target : Layout) : (op : Op) → op.Ans → Prop
  | .shared op, x => Loader.Laid own target op x
  | _, _ => True

/-- A library function is called at its address in the target. -/
def Translated (sym : Symbols) (own target : Layout) : Op → Prop
  | .shared op => Loader.Translated sym own target op
  | _ => True

/-- A target that grants everything, for two layouts. -/
def obliging (own target : Layout) : Unit → (op : Op) → op.Ans × Unit
  | s, .shared op => Loader.obliging own target s op
  | s, .getregs _ => (some ⟨1, 1, Vector.replicate 15 1⟩, s)
  | s, .setregs .. => (true, s)

theorem run_shared_obliging {α : Type} (c : Loader.Io α) (s : Unit) :
    (shared c).run (obliging own target) s = c.run (Loader.obliging own target) s :=
  run_relabel c s

theorem obliging_laid (own target : Layout) (s : Unit) (op : Op) :
    Laid own target op (obliging own target s op).1 := by
  cases op with
  | shared op => exact Loader.obliging_laid own target s op
  | getregs q => trivial
  | setregs q r => trivial

/-- The address of `mmap` is two bytes behind the one its bases give. -/
theorem run_getRemoteAddr_libc (hpid : 0 ≤ pid) (a : Word) (s : Unit) :
    ((getRemoteAddr pid libcPath a).run (obliging own target) s).1 =
      a + foundBase target.libc - foundBase own.libc + 2 := by
  have h := obliging_obliges own target
  unfold getRemoteAddr
  rw [run_shared_obliging, h.run_getRemoteAddr .i386 hpid,
    (mapsText_shows _ _).1.moduleBase_eq, (mapsText_shows _ _).1.moduleBase_eq]
  exact if_pos ⟨rfl, rfl⟩

theorem asks_mmap (hpid : 0 ≤ pid) (r : Regs) :
    Asks (obliging own target) (inject cfg sym fuel pid library function param r).run
      (.shared (.calling .mmap (sym.mmap + foundBase target.libc - foundBase own.libc + 2)
        [0, 0x4000, 7, 0x22, 0, 0])) := by
  unfold inject
  refine asks_lift_bind (run_getRemoteAddr_libc hpid _) ?_
  refine asks_bind_left ?_
  unfold callOr ptraceCall2
  exact asks_bind_left fun s => ⟨s, reaches_lift_bind.mpr (.inl (.inl ⟨rfl, rfl⟩))⟩

/-- `mmap` is called there. -/
theorem exists_run_mmap (hpid : 0 ≤ pid) :
    ∃ xs r, (traceRemoteProcess cfg sym fuel pid clientPathCurrent function param).Makes xs r ∧
      (∀ x ∈ xs, Laid own target x.1 x.2) ∧ ∃ x ∈ xs, x.1 =
        .shared (.calling .mmap (sym.mmap + foundBase target.libc - foundBase own.libc + 2)
          [0, 0x4000, 7, 0x22, 0, 0]) := by
  have h := obliging_obliges own target
  have hasks : Asks (obliging own target)
      (traceRemoteProcess cfg sym fuel pid clientPathCurrent function param)
      (.shared (.calling .mmap (sym.mmap + foundBase target.libc - foundBase own.libc + 2)
        [0, 0x4000, 7, 0x22, 0, 0])) := by
    unfold traceRemoteProcess
    refine asks_bind (a := 0) (fun s => ?_) ?_
    · rw [run_shared_obliging, h.run_getModuleBase hpid]
      exact (mapsText_shows _ _).2.2
    rw [if_neg (not_not.mpr rfl)]
    refine asks_bind (a := true) (fun s => ?_) ?_
    · rw [run_shared_obliging]
      exact h.run_ptraceAttach s
    refine asks_bind (a := some ⟨1, 1, Vector.replicate 15 1⟩) (fun _ => rfl) fun s => ?_
    obtain ⟨t, ht⟩ := asks_mmap hpid _ s
    exact ⟨t, reaches_bind.mpr (.inl ht)⟩
  obtain ⟨xs, r, hmakes, hanswer, hasked⟩ := hasks.exists_run ()
  refine ⟨xs, r, hmakes, fun x hx => ?_, hasked⟩
  obtain ⟨u, hu⟩ := hanswer x hx
  rw [hu]
  exact obliging_laid own target u x.1

/-- No layout makes up for the two bytes. -/
theorem translate_ne (a o t : Word) : a + foundBase t - foundBase o + 2 ≠ a - o + t := by
  unfold foundBase
  split <;> split <;> bv_omega

end I386

/-! ## Both builds -/

/-- In every run that shows the layouts, a build of the loader calls the
library functions at their addresses in the target. -/
def CallsTranslated (cfg : Config) (sym : Symbols) (fuel : ℕ) (pid : Int32)
    (function param : List UInt8) (own target : Layout) : Arch → Prop
  | .arm => ∀ xs r,
    (traceRemoteProcess cfg sym fuel pid clientPathCurrent function param).Makes xs r →
      (∀ x ∈ xs, Laid own target x.1 x.2) → ∀ x ∈ xs, Translated sym own target x.1
  | .i386 => ∀ xs r,
    (I386.traceRemoteProcess cfg sym fuel pid clientPathCurrent function param).Makes xs r →
      (∀ x ∈ xs, I386.Laid own target x.1 x.2) → ∀ x ∈ xs, I386.Translated sym own target x.1

theorem callsTranslated_arm_iff (hpid : 0 ≤ pid) :
    CallsTranslated cfg sym fuel pid function param own target .arm ↔
      (own.libc = 0x8000 ↔ target.libc = 0x8000) ∧
        (own.linker = target.linker ∨ 0 ∈ linkerAddrs sym own target) := by
  constructor
  · intro h
    refine ⟨?_, ?_⟩
    · obtain ⟨xs, r, hmakes, hlaid, x, hx, hop⟩ := exists_run_mmap hpid
      have := h xs r hmakes hlaid x hx
      rw [hop] at this
      exact (translate_eq_iff _ _ _).mp this
    · by_contra hlinker
      obtain ⟨hdiffer, hnull⟩ := not_or.mp hlinker
      obtain ⟨xs, r, hmakes, hlaid, x, hx, hop⟩ := exists_run_dlclose hpid hnull
      have : sym.dlclose = sym.dlclose - own.linker + target.linker := by
        have := h xs r hmakes hlaid x hx
        rwa [hop] at this
      exact hdiffer (by bv_omega)
  · rintro ⟨hlibc, hlinker⟩ xs r hmakes hlaid
    exact ((spec_translated hpid hlibc hlinker).makes hmakes hlaid).1

theorem not_callsTranslated_i386 (hpid : 0 ≤ pid) :
    ¬ CallsTranslated cfg sym fuel pid function param own target .i386 := by
  intro h
  obtain ⟨xs, r, hmakes, hlaid, x, hx, hop⟩ := I386.exists_run_mmap hpid
  have := h xs r hmakes hlaid x hx
  rw [hop] at this
  exact I386.translate_ne _ _ _ this

/-- **When every library function is called at its address in the target**:
the loader is built for ARM, libc is at 0x8000 in both processes or in none,
and the linker has the same base in both, or one of its functions seems to
stand at address 0 and none is called. -/
theorem calls_translated_iff (arch : Arch) (cfg : Config) (sym : Symbols) (fuel : ℕ) {pid : Int32}
    (hpid : 0 ≤ pid) (function param : List UInt8) (own target : Layout) :
    CallsTranslated cfg sym fuel pid function param own target arch ↔
      arch = .arm ∧ (own.libc = 0x8000 ↔ target.libc = 0x8000) ∧
        (own.linker = target.linker ∨ 0 ∈ linkerAddrs sym own target) := by
  cases arch with
  | arm => rw [callsTranslated_arm_iff hpid, eq_self, true_and]
  | i386 => exact iff_of_false (not_callsTranslated_i386 hpid) fun h => nomatch h.1

/-- Addresses in a loader with libc at 0x40000000 and the linker at
0xb0000000. -/
def symbolsB0 : Symbols where
  mmap := 0x40001000
  dlopen := 0xb0001000
  dlsym := 0xb0001100
  dlclose := 0xb0001200
  dlerror := 0xb0001300

/-- With the linker one page higher in the target, `dlclose` is called one
page below it. -/
theorem dlclose_untranslated : ∃ xs r,
    (traceRemoteProcess ⟨true, true⟩ symbolsB0 0 1 clientPathCurrent clientEntryFunc []).Makes xs r ∧
      (∀ x ∈ xs, Laid ⟨0x40000000, 0xb0000000⟩ ⟨0x40000000, 0xb0001000⟩ x.1 x.2) ∧
      ∃ x ∈ xs, x.1 = .calling .dlclose 0xb0001200 [1] ∧
        ¬ Translated symbolsB0 ⟨0x40000000, 0xb0000000⟩ ⟨0x40000000, 0xb0001000⟩ x.1 := by
  have hnull : 0 ∉ linkerAddrs symbolsB0 ⟨0x40000000, 0xb0000000⟩ ⟨0x40000000, 0xb0001000⟩ := by
    decide
  have hpid : (0 : Int32) ≤ 1 := by decide
  obtain ⟨xs, r, hmakes, hlaid, x, hx, hop⟩ := exists_run_dlclose hpid hnull
  refine ⟨xs, r, hmakes, hlaid, x, hx, hop, ?_⟩
  rw [hop]
  intro h
  exact absurd (show (0xb0001200 : Word) = 0xb0001200 - 0xb0000000 + 0xb0001000 from h) (by decide)

/-- With libc elsewhere and the linker at the same base, all calls of the ARM
build are made where they should be, and one of the i386 build is not. -/
theorem calls_translated_same_linker : (0 : Int32) ≤ 1 ∧
    CallsTranslated ⟨true, true⟩ symbolsB0 0 1 clientEntryFunc [] ⟨0x40000000, 0xb0000000⟩
      ⟨0x50000000, 0xb0000000⟩ .arm ∧
    ¬ CallsTranslated ⟨true, true⟩ symbolsB0 0 1 clientEntryFunc [] ⟨0x40000000, 0xb0000000⟩
      ⟨0x50000000, 0xb0000000⟩ .i386 := by
  have h := fun arch => calls_translated_iff arch ⟨true, true⟩ symbolsB0 0
    (show (0 : Int32) ≤ 1 by decide) clientEntryFunc [] ⟨0x40000000, 0xb0000000⟩ ⟨0x50000000, 0xb0000000⟩
  exact ⟨by decide, (h .arm).mpr ⟨rfl, by decide, .inl rfl⟩, fun hi => nomatch ((h .i386).mp hi).1⟩

end Loader

end Dynamicloader
