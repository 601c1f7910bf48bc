import Dynamicloader.Loader.Run
/-!
# Whether a remote call has returned

The loader plants the return address 0 and takes the next stop of the target
with the status `0xb7f`, a segmentation fault, for the return. It does not
look at the program counter, though it has it logged: a fault in the called
function is taken for its return, and whatever the register holds for its
result.

`Behaviour` is what the target does, stop by stop, and what the requests for
it are answered meanwhile.
-/

namespace Dynamicloader

namespace Loader

open Prog

/-- A stop of the target, by a signal or for good: its status, if `waitpid`
tells one, whether it can be resumed, and its registers, if they can be
read. -/
structure Stop where
  stat : Option Word
  resumed : Bool
  regs : Option Regs

/-- The stops of the target, the one it is called in first. -/
abbrev Behaviour := ℕ → Stop

/-- The target takes its stops one by one, as it is waited for. Other calls
are answered as `other` says. -/
def Behaviour.kernel (B : Behaviour) (other : (op : Op) → op.Ans) : Kernel ℕ := fun n op =>
  match op with
  | .waitpid _ => ((B (n + 1)).stat, n + 1)
  | .ptrace _ .cont => ((B n).resumed, n)
  | .ptrace _ .getregs => ((B n).regs, n)
  | op => (other op, n)

/-- **The first fault** behind the stop `n` is the stop `m`, and the target
gets there. -/
structure FaultAfter (B : Behaviour) (n m : ℕ) : Prop where
  lt : n < m
  fault : (B m).stat = some 0xb7f
  resumed : ∀ k, n ≤ k → k < m → (B k).resumed = true
  before : ∀ k, n < k → k < m → (B k).stat ≠ some 0xb7f

section Run

variable {B : Behaviour} {other : (op : Op) → op.Ans} {pid : Int32}

theorem getD_eq_fault_iff {o : Option Word} {stat : Word} (h : stat ≠ 0xb7f) :
    o.getD stat = 0xb7f ↔ o = some 0xb7f := by
  cases o with
  | none => exact iff_of_false h (by simp)
  | some s => exact Option.some_inj.symm

theorem FaultAfter.step {n m : ℕ} (h : FaultAfter B (n + 1) m) (hcont : (B n).resumed = true)
    (hne : (B (n + 1)).stat ≠ some 0xb7f) : FaultAfter B n m := by
  have hlt := h.lt
  refine ⟨by omega, h.fault, fun k hnk hkm => ?_, fun k hnk hkm => ?_⟩
  · rcases Nat.eq_or_lt_of_le hnk with rfl | hlt'
    · exact hcont
    · exact h.resumed k hlt' hkm
  · rcases Nat.eq_or_lt_of_le (Nat.succ_le_of_lt hnk) with rfl | hlt'
    · exact hne
    · exact h.before k hlt' hkm

theorem FaultAfter.next {n : ℕ} (hcont : (B n).resumed = true)
    (hfault : (B (n + 1)).stat = some 0xb7f) : FaultAfter B n (n + 1) := by
  refine ⟨by omega, hfault, fun k hnk hkm => ?_, fun k hnk hkm => by omega⟩
  obtain rfl : k = n := by omega
  exact hcont

/-- The target stops, and the wait is over. -/
theorem run_awaitFault_fault {n : ℕ} (h : (B (n + 1)).stat = some 0xb7f) (fuel : ℕ) (stat : Word) :
    (awaitFault pid fuel stat).run.run (B.kernel other) n = (.ok true, n + 1) := by
  have hwait : (ask (.waitpid pid)).run (B.kernel other) n = (some 0xb7f, n + 1) :=
    congrArg (·, n + 1) h
  rw [awaitFault, run_lift_bind, hwait]
  rfl

/-- It stops otherwise, and is resumed as long as there is fuel. -/
theorem run_awaitFault_other {stat : Word} (hstat : stat ≠ 0xb7f) {n : ℕ}
    (h : (B (n + 1)).stat ≠ some 0xb7f) (fuel : ℕ) :
    (awaitFault pid 0 stat).run.run (B.kernel other) n = (.error .waiting, n + 1) ∧
      (awaitFault pid (fuel + 1) stat).run.run (B.kernel other) n =
        if (B (n + 1)).resumed then
          (awaitFault pid fuel ((B (n + 1)).stat.getD stat)).run.run (B.kernel other) (n + 1)
        else (.ok false, n + 1) := by
  have hwait : (ask (.waitpid pid)).run (B.kernel other) n = ((B (n + 1)).stat, n + 1) := rfl
  have hcont : (ptraceContinue pid).run (B.kernel other) (n + 1) = ((B (n + 1)).resumed, n + 1) :=
    rfl
  have hne : (B (n + 1)).stat.getD stat ≠ 0xb7f := (getD_eq_fault_iff hstat).not.mpr h
  constructor
  · rw [awaitFault, run_lift_bind, hwait]
    dsimp only
    rw [if_neg hne]
    rfl
  · rw [awaitFault, run_lift_bind, hwait]
    dsimp only
    rw [if_neg hne, run_lift_bind, hcont]
    dsimp only
    split
    · rfl
    · rfl

/-- **The wait ends at the first fault**, if it ends well. -/
theorem awaitFault_sound (fuel : ℕ) {stat : Word} (hstat : stat ≠ 0xb7f) {n m : ℕ}
    (hcont : (B n).resumed = true)
    (h : (awaitFault pid fuel stat).run.run (B.kernel other) n = (.ok true, m)) :
    FaultAfter B n m ∧ m ≤ n + fuel + 1 := by
  induction fuel generalizing stat n with
  | zero =>
    by_cases hfault : (B (n + 1)).stat = some 0xb7f
    · rw [run_awaitFault_fault hfault] at h
      cases h
      exact ⟨.next hcont hfault, by omega⟩
    · rw [(run_awaitFault_other hstat hfault 0).1] at h
      cases h
  | succ fuel ih =>
    by_cases hfault : (B (n + 1)).stat = some 0xb7f
    · rw [run_awaitFault_fault hfault] at h
      cases h
      exact ⟨.next hcont hfault, by omega⟩
    · rw [(run_awaitFault_other hstat hfault fuel).2] at h
      split at h
      case isFalse => cases h
      case isTrue hresumed =>
        have hne : (B (n + 1)).stat.getD stat ≠ 0xb7f := (getD_eq_fault_iff hstat).not.mpr hfault
        obtain ⟨hafter, hle⟩ := ih hne hresumed h
        exact ⟨hafter.step hcont hfault, by omega⟩

/-- **It gets there**, given fuel. -/
theorem awaitFault_complete (fuel : ℕ) {stat : Word} (hstat : stat ≠ 0xb7f) {n m : ℕ}
    (h : FaultAfter B n m) (hm : m ≤ n + fuel + 1) :
    (awaitFault pid fuel stat).run.run (B.kernel other) n = (.ok true, m) := by
  induction fuel generalizing stat n with
  | zero =>
    obtain rfl : m = n + 1 := by
      have := h.lt
      omega
    exact run_awaitFault_fault h.fault 0 stat
  | succ fuel ih =>
    rcases Nat.eq_or_lt_of_le (Nat.succ_le_of_lt h.lt) with rfl | hlt
    · exact run_awaitFault_fault h.fault _ stat
    · have hfault := h.before (n + 1) (Nat.lt_succ_self n) hlt
      have hne : (B (n + 1)).stat.getD stat ≠ 0xb7f := (getD_eq_fault_iff hstat).not.mpr hfault
      rw [(run_awaitFault_other hstat hfault fuel).2, if_pos (h.resumed (n + 1) (by omega) hlt)]
      refine ih hne ⟨hlt, h.fault, fun k hk => h.resumed k (by omega), fun k hk => ?_⟩ (by omega)
      exact h.before k (by omega)

/-- Writing the target's memory, it is not waited for. -/
theorem run_writedata (dest : Word) (data : List UInt8) (n : ℕ) :
    (ptraceWritedata pid dest data).run (B.kernel other) n = ((), n) := by
  fun_induction ptraceWritedata pid dest data with
  | case1 => rfl
  | case2 dest b₀ b₁ b₂ b₃ data ih =>
    rw [run_bind]
    exact ih
  | case3 dest data =>
    rw [run_bind, run_bind]
    rfl

theorem run_ptraceCall (fuel : ℕ) (addr : Word) (params : List Word) (r : Regs) :
    (ptraceCall pid fuel addr params r).run.run (B.kernel other) 0 =
      if other (.ptrace pid (.setregs (callRegs addr params r))) = true ∧ (B 0).resumed = true then
        (awaitFault pid fuel 0).run.run (B.kernel other) 0
      else (.ok false, 0) := by
  have hset : (ptraceSetregs pid (callRegs addr params r)).run (B.kernel other) 0 =
      (other (.ptrace pid (.setregs (callRegs addr params r))), 0) := rfl
  have hcont : (ptraceContinue pid).run (B.kernel other) 0 = ((B 0).resumed, 0) := rfl
  rw [ptraceCall]
  simp only [run_lift_bind, run_writedata, hset]
  cases other (.ptrace pid (.setregs (callRegs addr params r))) with
  | false => rfl
  | true =>
    simp only [if_true, run_lift_bind, hcont, true_and]
    split
    · rfl
    · rfl

/-- What a remote call comes to: the registers where the wait has ended. -/
theorem run_ptraceCall2 (fuel : ℕ) (func : Func) (addr : Word) (params : List Word) (r : Regs) :
    ((ptraceCall2 pid fuel func addr params r).run.run (B.kernel other) 0).1 =
      match (ptraceCall pid fuel addr params r).run.run (B.kernel other) 0 with
      | (.ok true, m) => .ok (B m).regs
      | (.ok false, _) => .ok none
      | (.error e, _) => .error e := by
  have hcalling : (ask (.calling func addr params)).run (B.kernel other) 0 = ((), 0) := rfl
  rw [ptraceCall2, run_lift_bind, hcalling, run_bind_except, run_bind]
  obtain ⟨result, m⟩ := (ptraceCall pid fuel addr params r).run.run (B.kernel other) 0
  cases result with
  | error e => rfl
  | ok b =>
    cases b with
    | false => rfl
    | true => rfl

/-- **When a remote call is taken to have returned**: its registers are set,
and the target gets to a fault, whose registers are read. -/
theorem ptraceCall2_some_iff {fuel : ℕ} {func : Func} {addr : Word} {params : List Word}
    {r regs : Regs} :
    ((ptraceCall2 pid fuel func addr params r).run.run (B.kernel other) 0).1 = .ok (some regs) ↔
      other (.ptrace pid (.setregs (callRegs addr params r))) = true ∧
        ∃ m ≤ fuel + 1, FaultAfter B 0 m ∧ (B m).regs = some regs := by
  have hzero : (0 : Word) ≠ 0xb7f := by decide
  rw [run_ptraceCall2, run_ptraceCall]
  constructor
  · intro h
    split at h
    case h_1 m hrun =>
      split at hrun
      case isFalse => cases hrun
      case isTrue hgranted =>
        obtain ⟨hfault, hm⟩ := awaitFault_sound fuel hzero hgranted.2 hrun
        exact ⟨hgranted.1, m, by omega, hfault, Except.ok.inj h⟩
    case h_2 => cases h
    case h_3 => cases h
  · rintro ⟨hset, m, hm, hfault, hregs⟩
    rw [if_pos ⟨hset, hfault.resumed 0 (Nat.le_refl 0) hfault.lt⟩,
      awaitFault_complete fuel hzero hfault (by omega)]
    exact congrArg Except.ok hregs

/-- **When a remote call that is taken to have returned has done so**: the
first fault of the target, if it gets to one, is at the return address. -/
theorem returned_iff (B : Behaviour) (other : (op : Op) → op.Ans) (pid : Int32) (func : Func)
    (addr : Word) (params : List Word) (r : Regs) :
    (∀ fuel regs,
        ((ptraceCall2 pid fuel func addr params r).run.run (B.kernel other) 0).1 = .ok (some regs) →
        regs.pc = 0) ↔
      (other (.ptrace pid (.setregs (callRegs addr params r))) = true →
        ∀ m regs, FaultAfter B 0 m → (B m).regs = some regs → regs.pc = 0) := by
  constructor
  · intro h hset m regs hfault hregs
    exact h m regs (ptraceCall2_some_iff.mpr ⟨hset, m, Nat.le_succ m, hfault, hregs⟩)
  · intro h fuel regs hrun
    obtain ⟨hset, m, -, hfault, hregs⟩ := ptraceCall2_some_iff.mp hrun
    exact h hset m regs hfault hregs

end Run

/-- A target that faults in the function it is called in, at 0x40001004. -/
def faulting : Behaviour := fun n =>
  { stat := if n = 1 then some 0xb7f else none
    resumed := true
    regs := some ((Vector.replicate 18 (0 : Word)).setIfInBounds 0 0xbad |>.setIfInBounds 15
      0x40001004) }

/-- The fault is taken for the return, and what the register holds for the
base of the mapping. -/
theorem fault_taken_for_return : ∃ regs,
    ((ptraceCall2 1 0 .mmap 0x40001000 [0, 0x4000, 7, 0x22, 0, 0]
      (Vector.replicate 18 0)).run.run
        (faulting.kernel (granting none none (Vector.replicate 18 0))) 0).1 = .ok (some regs) ∧
      regs.pc = 0x40001004 ∧ ptraceRetval regs = 0xbad :=
  ⟨_, rfl, rfl, rfl⟩

end Loader

end Dynamicloader
