import Dynamicloader.Loader.Copy
import Dynamicloader.Loader.I386
/-!
# The set-up of a remote call

The target knows nothing of `ptrace_call`: when it is resumed it runs a
function that takes its parameters, its stack and its return address from
where the calling convention puts them. `Aapcs` and `I386.Cdecl` say where
this is, for the two builds, and that the caller's memory is left alone.
`ptraceCall_convention`: in the state in which the target is first resumed,
the convention is met.
-/

namespace Dynamicloader

namespace Loader

open Prog

variable {σ : Type}

/-! ## Words in memory -/

theorem word_byte (w : Word) : word (byte w 0) (byte w 1) (byte w 2) (byte w 3) = w := by
  have := w.isLt
  apply BitVec.eq_of_toNat_eq
  simp only [word, byte, UInt8.toNat_ofNat', BitVec.toNat_ofNat]
  omega

theorem length_flatMap_chars (ws : List Word) : (ws.flatMap chars).length = 4 * ws.length := by
  induction ws with
  | nil => rfl
  | cons w ws ih =>
    rw [List.flatMap_cons, List.length_append, ih, List.length_cons]
    show 4 + 4 * ws.length = _
    omega

namespace Mem

theorem peek_of_holds {m : Mem} {a w : Word} (h : m.Holds a (chars w)) : m.peek a = w := by
  have hlen : (chars w).length = 4 := rfl
  have h₀ : m (a + 0#32) = byte w 0 := h 0 (by omega)
  have h₁ : m (a + 1) = byte w 1 := h 1 (by omega)
  have h₂ : m (a + 2) = byte w 2 := h 2 (by omega)
  have h₃ : m (a + 3) = byte w 3 := h 3 (by omega)
  rw [BitVec.add_zero] at h₀
  rw [peek, h₀, h₁, h₂, h₃, word_byte]

/-- Words that are stored in a row are read at every fourth address. -/
theorem peek_of_holds_flatMap {m : Mem} {ws : List Word} {a : Word}
    (h : m.Holds a (ws.flatMap chars)) (i : ℕ) (hi : i < ws.length) :
    m.peek (a + BitVec.ofNat 32 (4 * i)) = ws[i] := by
  induction ws generalizing a i with
  | nil => exact absurd hi (Nat.not_lt_zero i)
  | cons w ws ih =>
    rw [List.flatMap_cons] at h
    obtain ⟨hw, hws⟩ := holds_append h
    cases i with
    | zero =>
      rw [Nat.mul_zero, BitVec.add_zero]
      exact peek_of_holds hw
    | succ i =>
      have hrest := ih hws i (Nat.lt_of_succ_lt_succ hi)
      rw [show (chars w).length = 4 from rfl, BitVec.add_assoc, ← BitVec.ofNat_add] at hrest
      rw [Nat.mul_succ, Nat.add_comm, hrest]
      rfl

end Mem

/-! ## The convention -/

/-- `long *params` with its `num_params`: an array has less than `2 ^ 32`
bytes, as everything in the loader's address space. -/
structure Params where
  toList : List Word
  fits : 4 * toList.length < 2 ^ 32

/-- **A call as the ARM convention has it.** Called with the registers `r₀`
and the memory `m₀`, the function at `addr` finds the registers `r` and the
memory `m`: the first four parameters in registers, the others on the stack,
the instruction set its address asks for, and the return address 0. -/
structure Aapcs (addr : Word) (params : List Word) (r₀ r : Regs) (m₀ m : Mem) : Prop where
  register : ∀ i : Fin 18, (h : i.val < params.length) → i.val < 4 → r.get i = params[i.val]
  stack : ∀ i, (h : i < params.length) → 4 ≤ i →
    m.peek (r.sp + BitVec.ofNat 32 (4 * (i - 4))) = params[i]
  sp : r.sp = r₀.sp - BitVec.ofNat 32 (4 * (params.length - 4))
  pc : r.pc = addr &&& ~~~1
  thumb : r.cpsr &&& cpsrTMask ≠ 0 ↔ addr &&& 1 ≠ 0
  lr : r.get 14 = 0
  others : ∀ i : Fin 18, i.val < 13 → params.length ≤ i ∨ 4 ≤ i.val → r.get i = r₀.get i
  frame : ∀ a, (∀ k < 4 * (params.length - 4), a ≠ r.sp + BitVec.ofNat 32 k) → m a = m₀ a

/-- **And as the i386 convention has it**: all parameters on the stack, and
the return address 0 below them. -/
structure I386.Cdecl (addr : Word) (params : List Word) (r₀ r : I386.Regs) (m₀ m : Mem) :
    Prop where
  stack : ∀ i, (h : i < params.length) → m.peek (r.esp + 4 + BitVec.ofNat 32 (4 * i)) = params[i]
  ret : m.peek r.esp = 0
  esp : r.esp = r₀.esp - BitVec.ofNat 32 (4 * params.length + 4)
  eip : r.eip = addr
  others : r.others = r₀.others
  frame : ∀ a, (∀ k < 4 * params.length + 4, a ≠ r.esp + BitVec.ofNat 32 k) → m a = m₀ a

/-! ## A target with registers -/

/-- A target that has the registers it was last given. -/
structure Tracee (σ : Type) extends Target σ where
  regs : σ → Regs
  setregs : ∀ s q r, (kernel s (.ptrace q (.setregs r))).1 = true →
    regs (kernel s (.ptrace q (.setregs r))).2 = r ∧
    mem (kernel s (.ptrace q (.setregs r))).2 = mem s

/-- The same for i386, whose registers are set apart. -/
structure I386.Tracee (σ : Type) extends Target σ where
  set : σ → Int32 → I386.Regs → Bool × σ
  regs : σ → I386.Regs
  setregs : ∀ s q r, (set s q r).1 = true → regs (set s q r).2 = r ∧ mem (set s q r).2 = mem s

/-- The answers of an i386 target. -/
def I386.Tracee.peer (T : I386.Tracee σ) (s : σ) : (op : I386.Op) → op.Ans × σ
  | .shared op => T.kernel s op
  | .getregs _ => (some (T.regs s), s)
  | .setregs q r => T.set s q r

/-- `PTRACE_CONT` -/
def Op.resumes : Op → Bool
  | .ptrace _ .cont => true
  | _ => false

def I386.Op.resumes : I386.Op → Bool
  | .shared op => op.resumes
  | .getregs _ => false
  | .setregs .. => false

/-! ## The registers of a call -/

theorem and_not_eq_self {w b : Word} (h : w &&& b = 0) : w &&& ~~~b = w := by
  ext i hi
  have hbit : (w &&& b)[i] = (0#32)[i] := by
    rw [h]
    rfl
  rw [BitVec.getElem_and, BitVec.getElem_zero, Bool.and_eq_false_iff] at hbit
  rw [BitVec.getElem_and, BitVec.getElem_not]
  rcases hbit with hw | hb
  · rw [hw, Bool.false_and]
  · rw [hb, Bool.not_false, Bool.and_true]

theorem or_and_mask (w b : Word) : (w ||| b) &&& b = b := by
  ext i hi
  rw [BitVec.getElem_and, BitVec.getElem_or]
  cases b[i] with
  | false => rw [Bool.and_false]
  | true => rw [Bool.or_true, Bool.and_true]

section CallRegs

variable (addr : Word) (params : List Word) (r : Regs)

/-- Below the stack pointer only the parameters are new. -/
theorem callRegs_get {i : Fin 18} (hi : i.val < 13) :
    (callRegs addr params r).get i = if i.val < 4 then params.getD i (r.get i) else r.get i := by
  show (callRegs addr params r)[i.val] = _
  unfold callRegs
  rw [Vector.getElem_set_ne _ _ (by omega), Vector.getElem_set_ne _ _ (by omega),
    Vector.getElem_set_ne _ _ (by omega), Vector.getElem_set_ne _ _ (by omega),
    Vector.getElem_ofFn]
  rfl

theorem callRegs_sp :
    (callRegs addr params r).sp = r.sp - BitVec.ofNat 32 (4 * (params.length - 4)) := by
  simp [callRegs, Regs.sp]

theorem callRegs_pc : (callRegs addr params r).pc = addr &&& ~~~1 := by
  have hpc : (callRegs addr params r).pc = if addr &&& 1 ≠ 0 then addr &&& ~~~1 else addr := by
    simp [callRegs, Regs.pc]
  rw [hpc]
  split
  · rfl
  · rename_i heven
    exact (and_not_eq_self (not_not.mp heven)).symm

theorem callRegs_thumb :
    (callRegs addr params r).cpsr &&& cpsrTMask ≠ 0 ↔ addr &&& 1 ≠ 0 := by
  have hcpsr : (callRegs addr params r).cpsr =
      if addr &&& 1 ≠ 0 then r.cpsr ||| cpsrTMask else r.cpsr &&& ~~~cpsrTMask := by
    simp [callRegs, Regs.cpsr]
  rw [hcpsr]
  split
  · rename_i hodd
    rw [or_and_mask]
    exact iff_of_true (by decide) hodd
  · rename_i heven
    rw [BitVec.and_assoc, BitVec.not_and_self]
    exact iff_of_false (not_not.mpr BitVec.and_zero) heven

theorem callRegs_lr : (callRegs addr params r).get 14 = 0 := by
  show (callRegs addr params r)[14] = 0
  simp [callRegs]

end CallRegs

/-! ## What the set-up leaves -/

theorem aapcs_callRegs (addr : Word) (params : Params) (r : Regs) (m : Mem) :
    Aapcs addr params.toList r (callRegs addr params.toList r) m
      (m.store (callRegs addr params.toList r).sp ((params.toList.drop 4).flatMap chars)) := by
  have hfits := params.fits
  have hlen : ((params.toList.drop 4).flatMap chars).length = 4 * (params.toList.length - 4) := by
    rw [length_flatMap_chars, List.length_drop]
  have hholds : (m.store (callRegs addr params.toList r).sp _).Holds _
      ((params.toList.drop 4).flatMap chars) := m.holds_store _ (by omega)
  refine ⟨fun i h h4 => ?_, fun i h h4 => ?_, callRegs_sp .., callRegs_pc .., callRegs_thumb ..,
    callRegs_lr .., fun i hi h => ?_, fun a ha => ?_⟩
  · rw [callRegs_get _ _ _ (by omega), if_pos h4, List.getD_eq_getElem?_getD,
      List.getElem?_eq_getElem h, Option.getD_some]
  · have hpeek := Mem.peek_of_holds_flatMap hholds (i - 4) (by rw [List.length_drop]; omega)
    rw [hpeek, List.getElem_drop]
    congr 1
    omega
  · rw [callRegs_get _ _ _ hi]
    split
    · rw [List.getD_eq_getElem?_getD, List.getElem?_eq_none (by omega), Option.getD_none]
    · rfl
  · refine m.store_of_outside fun k hk => ha k ?_
    rwa [hlen] at hk

/-- The return address is stored last, below the parameters: together they
are the words of one store. -/
theorem store_return (m : Mem) (top : Word) (params : List Word) :
    (m.store top (params.flatMap chars)).store (top - 4) (chars 0) =
      m.store (top - 4) ((0 :: params).flatMap chars) := by
  have htop : top - 4 + BitVec.ofNat 32 (chars 0).length = top := BitVec.sub_add_cancel top 4
  have hbelow := m.store_below (top - 4) (chars 0) (params.flatMap chars)
  rw [htop] at hbelow
  rw [hbelow, List.flatMap_cons]

theorem I386.cdecl_stored (addr : Word) (params : Params) (r : I386.Regs) (m : Mem) :
    let esp := r.esp - BitVec.ofNat 32 (4 * params.toList.length) - 4
    I386.Cdecl addr params.toList r ⟨esp, addr, r.others⟩ m
      (m.store esp ((0 :: params.toList).flatMap chars)) := by
  intro esp
  have hfits := params.fits
  have hlen : ((0 :: params.toList).flatMap chars).length = 4 * params.toList.length + 4 := by
    rw [length_flatMap_chars, List.length_cons, Nat.mul_succ]
  have hholds : (m.store esp _).Holds esp ((0 :: params.toList).flatMap chars) :=
    m.holds_store _ (by omega)
  refine ⟨fun i h => ?_, ?_, ?_, rfl, rfl, fun a ha => ?_⟩
  · -- behind the return address, parameter `i` is word `i + 1`
    have hpeek := Mem.peek_of_holds_flatMap hholds (i + 1) (Nat.succ_lt_succ h)
    rw [Nat.mul_succ, Nat.add_comm, BitVec.ofNat_add, ← BitVec.add_assoc] at hpeek
    exact hpeek
  · have hpeek := Mem.peek_of_holds_flatMap hholds 0 (Nat.succ_pos _)
    rw [Nat.mul_zero, BitVec.add_zero] at hpeek
    exact hpeek
  · show r.esp - BitVec.ofNat 32 (4 * params.toList.length) - 4 = _
    rw [BitVec.ofNat_add, BitVec.sub_sub]
    rfl
  · refine m.store_of_outside fun k hk => ha k ?_
    rwa [hlen] at hk

/-! ## Before the target is resumed -/

section Before

variable {Op : Type} {Ans : Op → Type} {ε : Type} {p : Op → Bool}
  {peer : σ → (op : Op) → Ans op × σ}

/-- The end of both set-ups: where the registers are set the target is
resumed, and nowhere else. -/
theorem before_resume {set cont : Prog Op Ans Bool} {rest : ExceptT ε (Prog Op Ans) Bool}
    (hset : ∀ s, set.before p peer s = none) (hcont : ∀ s, cont.before p peer s = some s) (s : σ) :
    (do if ← set then
          if ← cont then rest
          else return false
        else return false : ExceptT ε (Prog Op Ans) Bool).run.before p peer s =
      if (set.run peer s).1 then some (set.run peer s).2 else none := by
  rw [before_lift_bind, hset, Option.none_or]
  cases (set.run peer s).1 with
  | false => rfl
  | true =>
    show ((liftM cont : ExceptT ε (Prog Op Ans) Bool) >>= _).run.before p peer _ = _
    rw [before_lift_bind, hcont]
    rfl

end Before

variable (pid : Int32) (fuel : ℕ) (addr : Word)

theorem before_writedata (kernel : Kernel σ) (dest : Word) (data : List UInt8) (s : σ) :
    (ptraceWritedata pid dest data).before Op.resumes kernel s = none := by
  refine Spec.before_eq_none (R := fun _ => True) ?_ s
  exact spec_writedata_of (fun _ => rfl) (fun _ _ => rfl) data dest

/-- The parameters are stored, and the target is given its registers and
resumed. -/
theorem before_ptraceCall (params : Params) (T : Tracee σ) (r : Regs) (s : σ) :
    ∃ u, T.mem u = (T.mem s).store (callRegs addr params.toList r).sp
        ((params.toList.drop 4).flatMap chars) ∧
      (ptraceCall pid fuel addr params.toList r).run.before Op.resumes T.kernel s =
        let x := T.kernel u (.ptrace pid (.setregs (callRegs addr params.toList r)))
        if x.1 then some x.2 else none := by
  have hfits := params.fits
  refine ⟨_, T.mem_writedata pid _ _ s ?_, ?_⟩
  · rw [length_flatMap_chars, List.length_drop]
    omega
  · unfold ptraceCall
    rw [before_lift_bind, before_writedata, Option.none_or]
    exact before_resume (fun _ => rfl) (fun _ => rfl) _

namespace I386

theorem run_shared {α : Type} (T : Tracee σ) (c : Loader.Io α) (s : σ) :
    (shared c).run T.peer s = c.run T.kernel s :=
  run_relabel c s

theorem before_shared {α : Type} (T : Tracee σ) (c : Loader.Io α) (s : σ) :
    (shared c).before Op.resumes T.peer s = c.before Loader.Op.resumes T.kernel s :=
  before_relabel c s

theorem before_ptraceCall (params : Params) (T : Tracee σ) (r : Regs) (s : σ) :
    let top := r.esp - BitVec.ofNat 32 (4 * params.toList.length)
    ∃ u, T.mem u = (T.mem s).store (top - 4) ((0 :: params.toList).flatMap chars) ∧
      (ptraceCall pid fuel addr params.toList r).run.before Op.resumes T.peer s =
        let x := T.set u pid ⟨top - 4, addr, r.others⟩
        if x.1 then some x.2 else none := by
  intro top
  have hfits := params.fits
  have hparams := T.mem_writedata pid (params.toList.flatMap chars) top s
    (by rw [length_flatMap_chars]; omega)
  have hreturn := T.mem_writedata pid (chars 0) (top - 4)
    ((Loader.ptraceWritedata pid top (params.toList.flatMap chars)).run T.kernel s).2 (by decide)
  rw [hparams, store_return] at hreturn
  refine ⟨_, hreturn, ?_⟩
  unfold ptraceCall ptraceWritedata
  rw [before_lift_bind, before_shared, before_writedata, Option.none_or, run_shared,
    before_lift_bind, before_shared, before_writedata, Option.none_or, run_shared]
  exact before_resume (fun _ => rfl) (fun _ => rfl) _

end I386

/-- Setting the registers can fail. -/
def Tracee.Refuses (T : Tracee σ) (pid : Int32) : Prop :=
  ∃ s r, (T.kernel s (.ptrace pid (.setregs r))).1 = false

def I386.Tracee.Refuses (T : I386.Tracee σ) (pid : Int32) : Prop :=
  ∃ s r, (T.set s pid r).1 = false

theorem resumed_or_not {o : Option σ} {x : Bool × σ} {C : σ → Prop}
    (ho : o = if x.1 then some x.2 else none) (hC : x.1 = true → C x.2) :
    (∃ t, o = some t ∧ C t) ∨ (o = none ∧ x.1 = false) := by
  cases hx : x.1 with
  | false =>
    rw [hx] at ho
    exact .inr ⟨ho, rfl⟩
  | true =>
    rw [hx] at ho
    exact .inl ⟨x.2, ho, hC hx⟩

theorem aapcs_of_resumed (params : Params) (T : Tracee σ) (r : Regs) (s : σ) :
    (∃ t, (ptraceCall pid fuel addr params.toList r).run.before Op.resumes T.kernel s = some t ∧
      Aapcs addr params.toList r (T.regs t) (T.mem s) (T.mem t)) ∨
    ((ptraceCall pid fuel addr params.toList r).run.before Op.resumes T.kernel s = none ∧
      T.Refuses pid) := by
  obtain ⟨u, hmem, hbefore⟩ := before_ptraceCall pid fuel addr params T r s
  refine (resumed_or_not hbefore fun hset => ?_).imp_right (And.imp_right fun h => ⟨u, _, h⟩)
  obtain ⟨hregs, hkept⟩ := T.setregs u pid _ hset
  rw [hregs, hkept, hmem]
  exact aapcs_callRegs addr params r (T.mem s)

theorem I386.cdecl_of_resumed (params : Params) (T : I386.Tracee σ) (r : I386.Regs) (s : σ) :
    (∃ t, (I386.ptraceCall pid fuel addr params.toList r).run.before I386.Op.resumes T.peer s =
        some t ∧ I386.Cdecl addr params.toList r (T.regs t) (T.mem s) (T.mem t)) ∨
    ((I386.ptraceCall pid fuel addr params.toList r).run.before I386.Op.resumes T.peer s = none ∧
      T.Refuses pid) := by
  obtain ⟨u, hmem, hbefore⟩ := I386.before_ptraceCall pid fuel addr params T r s
  refine (resumed_or_not hbefore fun hset => ?_).imp_right (And.imp_right fun h => ⟨u, _, h⟩)
  obtain ⟨hregs, hkept⟩ := T.setregs u pid _ hset
  rw [hregs, hkept, hmem]
  exact I386.cdecl_stored addr params r (T.mem s)

/-- **The set-up follows the calling convention**, whatever is called, with
whatever parameters and from whatever registers: where the target is first
resumed it finds what the convention promises. It is not resumed only if it
does not take the registers. -/
theorem ptraceCall_convention (params : Params) :
    (∀ {σ : Type} (T : Tracee σ) (r : Regs) (s : σ),
      (∃ t, (ptraceCall pid fuel addr params.toList r).run.before Op.resumes T.kernel s = some t ∧
        Aapcs addr params.toList r (T.regs t) (T.mem s) (T.mem t)) ∨
      ((ptraceCall pid fuel addr params.toList r).run.before Op.resumes T.kernel s = none ∧
        T.Refuses pid)) ∧
    (∀ {σ : Type} (T : I386.Tracee σ) (r : I386.Regs) (s : σ),
      (∃ t, (I386.ptraceCall pid fuel addr params.toList r).run.before I386.Op.resumes T.peer s =
          some t ∧ I386.Cdecl addr params.toList r (T.regs t) (T.mem s) (T.mem t)) ∨
      ((I386.ptraceCall pid fuel addr params.toList r).run.before I386.Op.resumes T.peer s = none ∧
        T.Refuses pid)) :=
  ⟨fun T r s => aapcs_of_resumed pid fuel addr params T r s,
    fun T r s => I386.cdecl_of_resumed pid fuel addr params T r s⟩

/-- A target whose memory and registers are all it has, and which takes every
request. -/
def lenientTracee : Tracee (Regs × Mem) where
  kernel s op := match op with
    | .ptrace _ (.setregs r) => (true, r, s.2)
    | op => ((lenient s.2 op).1, s.1, (lenient s.2 op).2)
  mem := Prod.snd
  peek _ _ _ := ⟨rfl, rfl⟩
  poke _ _ _ _ := rfl
  regs := Prod.fst
  setregs _ _ _ _ := ⟨rfl, rfl⟩

def I386.lenientTracee : I386.Tracee (I386.Regs × Mem) where
  kernel s op := ((lenient s.2 op).1, s.1, (lenient s.2 op).2)
  mem := Prod.snd
  peek _ _ _ := ⟨rfl, rfl⟩
  poke _ _ _ _ := rfl
  set s _ r := (true, r, s.2)
  regs := Prod.fst
  setregs _ _ _ _ := ⟨rfl, rfl⟩

/-- The six parameters of `mmap`, two of them on the stack for ARM. -/
theorem ptraceCall_convention_mmap :
    (∃ t, (ptraceCall 1 0 0x40001001 [0, 0x4000, 7, 0x22, 0, 0]
        (Vector.replicate 18 0x100)).run.before Op.resumes lenientTracee.kernel
          (Vector.replicate 18 0x100, fun _ => 1) = some t ∧
      Aapcs 0x40001001 [0, 0x4000, 7, 0x22, 0, 0] (Vector.replicate 18 0x100) t.1
        (fun _ => 1) t.2) ∧
    (∃ t, (I386.ptraceCall 1 0 0x40001001 [0, 0x4000, 7, 0x22, 0, 0]
        ⟨0x100, 0, Vector.replicate 15 0⟩).run.before I386.Op.resumes I386.lenientTracee.peer
          (⟨0x100, 0, Vector.replicate 15 0⟩, fun _ => 1) = some t ∧
      I386.Cdecl 0x40001001 [0, 0x4000, 7, 0x22, 0, 0] ⟨0x100, 0, Vector.replicate 15 0⟩ t.1
        (fun _ => 1) t.2) := by
  obtain ⟨harm, hi386⟩ := ptraceCall_convention 1 0 0x40001001
    ⟨[0, 0x4000, 7, 0x22, 0, 0], by decide⟩
  constructor
  · rcases harm lenientTracee (Vector.replicate 18 0x100) (Vector.replicate 18 0x100, fun _ => 1)
      with h | ⟨-, _, _, h⟩
    · exact h
    · cases h
  · rcases hi386 I386.lenientTracee ⟨0x100, 0, Vector.replicate 15 0⟩
      (⟨0x100, 0, Vector.replicate 15 0⟩, fun _ => 1) with h | ⟨-, _, _, h⟩
    · exact h
    · cases h

end Loader

end Dynamicloader
