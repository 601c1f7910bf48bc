import Dynamicloader.Loader.Block
/-!
# Copying to and from the target

`ptrace_writedata` and `ptrace_readdata` move a number of bytes word by word.
Where the number is no multiple of four, the last word is treated apart: a
write reads it first and puts back what it does not replace, a read takes its
front. `copy_exact` says that nothing of this shows: a write is a store of
the bytes, a read loads them, and what was written is read back.
-/

namespace Dynamicloader

namespace Loader

open Prog

namespace Mem

/-- The `n` bytes from `a` on. -/
def load (m : Mem) (a : Word) (n : ℕ) : List UInt8 :=
  (List.range n).map fun i => m (a + BitVec.ofNat 32 i)

@[simp] theorem length_load (m : Mem) (a : Word) (n : ℕ) : (m.load a n).length = n := by
  rw [load, List.length_map, List.length_range]

/-- What is loaded at once is loaded in two parts. -/
theorem load_add (m : Mem) (a : Word) (k n : ℕ) :
    m.load a (k + n) = m.load a k ++ m.load (a + BitVec.ofNat 32 k) n := by
  unfold load
  rw [List.range_add, List.map_append, List.map_map]
  refine congrArg (_ ++ ·) (List.map_congr_left fun i _ => ?_)
  rw [Function.comp_apply, BitVec.ofNat_add, BitVec.add_assoc]

theorem take_load (m : Mem) (a : Word) {k n : ℕ} (h : k ≤ n) :
    (m.load a n).take k = m.load a k := by
  obtain ⟨d, rfl⟩ := Nat.exists_eq_add_of_le h
  rw [load_add, List.take_left' (m.length_load a k)]

theorem chars_peek_eq_load (m : Mem) (a : Word) : chars (m.peek a) = m.load a 4 := by
  rw [chars_peek]
  show _ = [m (a + 0#32), m (a + 1), m (a + 2), m (a + 3)]
  rw [BitVec.add_zero]

theorem load_eq_of_holds {m : Mem} {a : Word} {data : List UInt8} (h : m.Holds a data) :
    m.load a data.length = data := by
  refine List.ext_getElem (m.length_load a _) fun i _ hi => ?_
  simp only [load, List.getElem_map, List.getElem_range]
  exact h i hi

/-- A store leaves the bytes it does not cover. -/
theorem store_of_outside (m : Mem) {a b : Word} {data : List UInt8}
    (h : ∀ i < data.length, b ≠ a + BitVec.ofNat 32 i) : m.store a data b = m b := by
  have hout : data.length ≤ (b - a).toNat := by
    by_contra hlt
    exact h _ (by omega) (eq_add_toNat_sub a b)
  rw [store, List.getD_eq_getElem?_getD, List.getElem?_eq_none hout, Option.getD_none]

end Mem

/-! ## Reading through requests -/

variable {σ : Type}

/-- **`ptrace_readdata` loads its bytes** and leaves the memory as it is. -/
theorem Target.run_readdata (T : Target σ) (pid : Int32) (size : ℕ) :
    ∀ (src : Word) (s : σ), ((ptraceReaddata pid src size).run T.kernel s).1 =
        (T.mem s).load src size ∧
      T.mem ((ptraceReaddata pid src size).run T.kernel s).2 = T.mem s := by
  intro src
  fun_induction ptraceReaddata pid src size with
  | case1 src =>
    intro s
    exact ⟨rfl, rfl⟩
  | case2 src size ih =>
    intro s
    obtain ⟨hpeek, hmem⟩ := T.peek s pid src
    obtain ⟨hrest, hstate⟩ := ih (T.kernel s (.ptrace pid (.peektext src))).2
    refine ⟨?_, ?_⟩
    · rw [run_bind, run_bind]
      show chars (T.kernel s (.ptrace pid (.peektext src))).1 ++ _ = _
      have hsplit := (T.mem s).load_add src 4 size
      rw [Nat.add_comm 4 size] at hsplit
      rw [hpeek, Mem.chars_peek_eq_load, hsplit]
      exact congrArg (_ ++ ·) (hrest.trans (by rw [hmem]; rfl))
    · rw [run_bind, run_bind]
      exact hstate.trans hmem
  | case3 src remain hzero hlong =>
    intro s
    obtain ⟨hpeek, hmem⟩ := T.peek s pid src
    have hle : remain ≤ 4 := by
      by_contra hgt
      exact hlong (remain - 4) (by omega)
    refine ⟨?_, hmem⟩
    show (chars (T.kernel s (.ptrace pid (.peektext src))).1).take remain = _
    rw [hpeek, Mem.chars_peek_eq_load, Mem.take_load _ _ hle]

/-- **Copies are exact**: a write puts its data where it should and changes
no other byte, a read returns as many bytes as it should, those that are there,
and what was written is read back. -/
theorem copy_exact (T : Target σ) (pid : Int32) (dest : Word) {data : List UInt8}
    (hsize : data.length < 2 ^ 32) (s : σ) :
    (T.mem ((ptraceWritedata pid dest data).run T.kernel s).2).Holds dest data ∧
    (∀ a, (∀ i < data.length, a ≠ dest + BitVec.ofNat 32 i) →
      T.mem ((ptraceWritedata pid dest data).run T.kernel s).2 a = T.mem s a) ∧
    (∀ src size, ((ptraceReaddata pid src size).run T.kernel s).1.length = size ∧
      (T.mem s).Holds src ((ptraceReaddata pid src size).run T.kernel s).1 ∧
      T.mem ((ptraceReaddata pid src size).run T.kernel s).2 = T.mem s) ∧
    ((do ptraceWritedata pid dest data
         ptraceReaddata pid dest data.length : Io (List UInt8)).run T.kernel s).1 = data := by
  have hstore := T.mem_writedata pid data dest s (Nat.le_of_lt hsize)
  have hholds := (T.mem s).holds_store dest (Nat.le_of_lt hsize)
  refine ⟨?_, fun a ha => ?_, fun src size => ?_, ?_⟩
  · rw [hstore]
    exact hholds
  · rw [hstore]
    exact (T.mem s).store_of_outside ha
  · obtain ⟨hread, hmem⟩ := T.run_readdata pid size src s
    rw [hread]
    refine ⟨Mem.length_load _ _ _, fun i hi => ?_, hmem⟩
    simp only [Mem.load, List.getElem_map, List.getElem_range]
  · rw [run_bind, (T.run_readdata pid _ dest _).1, hstore]
    exact Mem.load_eq_of_holds hholds

/-- Five bytes across the end of the address space. -/
theorem copy_exact_five :
    ([1, 2, 3, 4, 5] : List UInt8).length < 2 ^ 32 ∧
    ((do ptraceWritedata 1 0xfffffffe [1, 2, 3, 4, 5]
         ptraceReaddata 1 0xfffffffe 5 : Io (List UInt8)).run lenient fun _ => 0).1 =
      [1, 2, 3, 4, 5] :=
  ⟨by decide, (copy_exact lenientTarget 1 0xfffffffe (by decide) fun _ => 0).2.2.2⟩

end Loader

end Dynamicloader
