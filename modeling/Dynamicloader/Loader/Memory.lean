import Dynamicloader.Loader.Run
/-!
# The memory of the target

The target's memory is a byte at each of the 2^32 addresses, and a `Target`
is a kernel under which `PTRACE_POKETEXT` and `PTRACE_PEEKTEXT` write and
read words of it. `ptrace_writedata` then stores its data and nothing else
(`Target.mem_writedata`): the words come one after the other, and the last
one is read first where the data do not fill it.
-/

namespace Dynamicloader

namespace Loader

open Prog

/-- A byte at each address. -/
abbrev Mem := Word → UInt8

namespace Mem

/-- The word at `a`. -/
def peek (m : Mem) (a : Word) : Word := word (m a) (m (a + 1)) (m (a + 2)) (m (a + 3))

/-- Writing a word. -/
def poke (m : Mem) (a w : Word) : Mem := fun b =>
  if (b - a).toNat < 4 then byte w (b - a).toNat else m b

/-- Writing bytes from `a` on. -/
def store (m : Mem) (a : Word) (data : List UInt8) : Mem := fun b =>
  data.getD (b - a).toNat (m b)

/-- The bytes at `a` are `data`. -/
def Holds (m : Mem) (a : Word) (data : List UInt8) : Prop :=
  ∀ i, (h : i < data.length) → m (a + BitVec.ofNat 32 i) = data[i]

theorem toNat_add_sub {i : ℕ} (h : i < 2 ^ 32) (a : Word) :
    (a + BitVec.ofNat 32 i - a).toNat = i := by
  rw [BitVec.toNat_sub, BitVec.toNat_add, BitVec.toNat_ofNat]
  have := a.isLt
  omega

theorem eq_add_toNat_sub (a b : Word) : b = a + BitVec.ofNat 32 (b - a).toNat := by
  rw [BitVec.ofNat_toNat, BitVec.setWidth_eq, BitVec.add_comm, BitVec.sub_add_cancel]

theorem holds_store (m : Mem) (a : Word) {data : List UInt8} (h : data.length ≤ 2 ^ 32) :
    (m.store a data).Holds a data := by
  intro i hi
  rw [store, toNat_add_sub (by omega), List.getD_eq_getElem?_getD, List.getElem?_eq_getElem hi,
    Option.getD_some]

theorem holds_append {m : Mem} {a : Word} {d₁ d₂ : List UInt8} (h : m.Holds a (d₁ ++ d₂)) :
    m.Holds a d₁ ∧ m.Holds (a + BitVec.ofNat 32 d₁.length) d₂ := by
  refine ⟨fun i hi => ?_, fun i hi => ?_⟩
  · rw [h i (by rw [List.length_append]; omega), List.getElem_append_left hi]
  · have := h (d₁.length + i) (by rw [List.length_append]; omega)
    rw [BitVec.ofNat_add, ← BitVec.add_assoc] at this
    rw [this, List.getElem_append_right (by omega)]
    simp

/-- How far `b` is from an address `n` bytes further on. -/
theorem toNat_sub_add (a b : Word) (n : ℕ) :
    (b - (a + BitVec.ofNat 32 n)).toNat = (2 ^ 32 + (b - a).toNat - n % 2 ^ 32) % 2 ^ 32 := by
  simp only [BitVec.toNat_sub, BitVec.toNat_add, BitVec.toNat_ofNat]
  omega

/-- Two stores in a row are one. -/
theorem store_append (m : Mem) (a : Word) {d₁ d₂ : List UInt8}
    (h : d₁.length + d₂.length ≤ 2 ^ 32) :
    (m.store a d₁).store (a + BitVec.ofNat 32 d₁.length) d₂ = m.store a (d₁ ++ d₂) := by
  funext b
  have hlt := (b - a).isLt
  unfold store
  rw [toNat_sub_add]
  generalize (b - a).toNat = k at hlt
  simp only [List.getD_eq_getElem?_getD]
  rcases Nat.lt_or_ge k d₁.length with hin | hout
  · -- behind the first part the second has wrapped around
    rw [List.getElem?_append_left hin, List.getElem?_eq_none (by omega), Option.getD_none]
  · rw [List.getElem?_append_right hout, List.getElem?_eq_none hout, Option.getD_none]
    have hk : (2 ^ 32 + k - d₁.length % 2 ^ 32) % 2 ^ 32 = k - d₁.length := by omega
    rw [hk]

/-- And so are two of which the second lies right below the first. -/
theorem store_below (m : Mem) (a : Word) (d₁ d₂ : List UInt8) :
    (m.store (a + BitVec.ofNat 32 d₁.length) d₂).store a d₁ = m.store a (d₁ ++ d₂) := by
  funext b
  have hlt := (b - a).isLt
  unfold store
  rw [toNat_sub_add]
  generalize (b - a).toNat = k at hlt
  simp only [List.getD_eq_getElem?_getD]
  rcases Nat.lt_or_ge k d₁.length with hin | hout
  · rw [List.getElem?_append_left hin, List.getElem?_eq_getElem hin, Option.getD_some,
      Option.getD_some]
  · rw [List.getElem?_append_right hout, List.getElem?_eq_none hout, Option.getD_none]
    have hk : (2 ^ 32 + k - d₁.length % 2 ^ 32) % 2 ^ 32 = k - d₁.length := by omega
    rw [hk]

theorem poke_eq_store (m : Mem) (a w : Word) : m.poke a w = m.store a (chars w) := by
  funext b
  unfold poke store chars
  split
  · rename_i hlt
    generalize (b - a).toNat = k at hlt
    rcases k with _ | _ | _ | _ | k
    · rfl
    · rfl
    · rfl
    · rfl
    · omega
  · rename_i hge
    rw [List.getD_eq_getElem?_getD, List.getElem?_eq_none (by simpa using hge), Option.getD_none]

end Mem

theorem chars_word (b₀ b₁ b₂ b₃ : UInt8) : chars (word b₀ b₁ b₂ b₃) = [b₀, b₁, b₂, b₃] := by
  have h₀ := b₀.toNat_lt
  have h₁ := b₁.toNat_lt
  have h₂ := b₂.toNat_lt
  have h₃ := b₃.toNat_lt
  simp only [chars, byte, word, List.cons.injEq, and_true, ← UInt8.toNat_inj, UInt8.toNat_ofNat',
    BitVec.toNat_ofNat]
  omega

namespace Mem

theorem chars_peek (m : Mem) (a : Word) : chars (m.peek a) = [m a, m (a + 1), m (a + 2), m (a + 3)] :=
  chars_word _ _ _ _

/-- A word read, overwritten in front and written back is a store of what it
was overwritten with. -/
theorem poke_patch (m : Mem) (a : Word) {data : List UInt8} (h : data.length ≤ 4) :
    m.poke a (patch (m.peek a) data) = m.store a data := by
  obtain ⟨h₀, h₁, h₂, h₃, -⟩ :
      byte (m.peek a) 0 = m a ∧ byte (m.peek a) 1 = m (a + 1) ∧ byte (m.peek a) 2 = m (a + 2) ∧
        byte (m.peek a) 3 = m (a + 3) ∧ True := by simpa [chars] using m.chars_peek a
  rw [poke_eq_store, patch, chars_word, h₀, h₁, h₂, h₃]
  funext b
  have hb := eq_add_toNat_sub a b
  unfold store
  generalize hk : (b - a).toNat = k at hb
  rcases k with _ | _ | _ | _ | k
  · rw [hb, BitVec.ofNat_eq_ofNat, BitVec.add_zero]
    rfl
  · rw [hb]
    rfl
  · rw [hb]
    rfl
  · rw [hb]
    rfl
  · simp only [List.getD_eq_getElem?_getD]
    rw [List.getElem?_eq_none (by simp), List.getElem?_eq_none (by omega)]

end Mem

/-! ## Writing through requests -/

/-- A kernel under which the target has a memory, and the requests for it
succeed. -/
structure Target (σ : Type) where
  kernel : Kernel σ
  mem : σ → Mem
  peek : ∀ s q a, (kernel s (.ptrace q (.peektext a))).1 = (mem s).peek a ∧
    mem (kernel s (.ptrace q (.peektext a))).2 = mem s
  poke : ∀ s q a w, mem (kernel s (.ptrace q (.poketext a w))).2 = (mem s).poke a w

/-- **`ptrace_writedata` stores its data.** -/
theorem Target.mem_writedata {σ : Type} (T : Target σ) (pid : Int32) (data : List UInt8) :
    ∀ (dest : Word) (s : σ), data.length ≤ 2 ^ 32 →
      T.mem ((ptraceWritedata pid dest data).run T.kernel s).2 = (T.mem s).store dest data := by
  intro dest
  fun_induction ptraceWritedata pid dest data with
  | case1 dest =>
    intro s _
    rfl
  | case2 dest b₀ b₁ b₂ b₃ data ih =>
    intro s hlen
    simp only [List.length_cons] at hlen
    rw [run_bind, ih _ (by omega)]
    have hpoke : T.mem ((ask (.ptrace pid (.poketext dest (word b₀ b₁ b₂ b₃)))).run T.kernel s).2 =
        (T.mem s).store dest [b₀, b₁, b₂, b₃] := by
      rw [← chars_word, ← Mem.poke_eq_store]
      exact T.poke s pid dest _
    rw [hpoke]
    have hroom : [b₀, b₁, b₂, b₃].length + data.length ≤ 2 ^ 32 := by
      rw [show [b₀, b₁, b₂, b₃].length = 4 from rfl]
      omega
    exact Mem.store_append (T.mem s) dest hroom
  | case3 dest data hnil hlong =>
    intro s _
    have hlen : data.length ≤ 4 := by
      rcases data with _ | ⟨b₀, _ | ⟨b₁, _ | ⟨b₂, _ | ⟨b₃, data⟩⟩⟩⟩
      · simp
      · simp
      · simp
      · simp
      · exact absurd rfl (hlong b₀ b₁ b₂ b₃ data)
    obtain ⟨hpeek, hmem⟩ := T.peek s pid dest
    calc T.mem ((T.kernel (T.kernel s (.ptrace pid (.peektext dest))).2 (.ptrace pid
          (.poketext dest (patch (T.kernel s (.ptrace pid (.peektext dest))).1 data)))).2)
        = (T.mem s).poke dest (patch ((T.mem s).peek dest) data) := by rw [T.poke, hmem, hpeek]
      _ = (T.mem s).store dest data := Mem.poke_patch _ _ hlen

end Loader

end Dynamicloader
