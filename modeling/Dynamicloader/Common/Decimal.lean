import Mathlib.Algebra.Ring.Int.Defs
import Mathlib.Algebra.Ring.Nat
import Mathlib.Data.List.Basic
import Mathlib.Data.Int.Notation
/-!
# Decimal numerals

What `%d` prints and what a reader of signed decimal numerals makes of it.
The reader is parametric in the digit test, since a platform may accept
more digits than the ten that are printed.
-/

namespace Dynamicloader

namespace Decimal

/-- The numeral of `i`: a minus sign where needed, then the digits without
leading zeros. -/
def decimal (i : ℤ) : List Char :=
  (if i < 0 then ['-'] else []) ++ Nat.toDigits 10 i.natAbs

/-- The value of a run of digits read after `acc`. -/
def readDigits (digit : Char → Option ℕ) : ℕ → List Char → Option ℕ
  | acc, [] => some acc
  | acc, c :: cs => (digit c).bind fun d => readDigits digit (10 * acc + d) cs

/-- At least one digit. -/
def readNat (digit : Char → Option ℕ) (cs : List Char) : Option ℕ :=
  if cs = [] then none else readDigits digit 0 cs

/-- An optional sign, then at least one digit. -/
def readInt (digit : Char → Option ℕ) : List Char → Option ℤ
  | '-' :: cs => (readNat digit cs).map fun n : ℕ => -(n : ℤ)
  | '+' :: cs => (readNat digit cs).map fun n : ℕ => (n : ℤ)
  | cs => (readNat digit cs).map fun n : ℕ => (n : ℤ)

variable {digit : Char → Option ℕ}

/-- The digit test knows the ten characters that are printed. -/
def KnowsDigits (digit : Char → Option ℕ) : Prop :=
  ∀ c : Char, c.isDigit → digit c = some (c.toNat - '0'.toNat)

theorem readDigits_eq (hd : KnowsDigits digit) {cs : List Char} (hcs : ∀ c ∈ cs, c.isDigit) :
    ∀ acc, readDigits digit acc cs = some (Nat.ofDigitChars 10 cs acc) := by
  induction cs with
  | nil => simp [readDigits]
  | cons c cs ih =>
    intro acc
    have hc : c.isDigit := hcs c (by simp)
    rw [readDigits, hd c hc, Option.bind_some, ih (fun b hb => hcs b (by simp [hb])),
      Nat.ofDigitChars_cons]

theorem readNat_toDigits (hd : KnowsDigits digit) (n : ℕ) :
    readNat digit (Nat.toDigits 10 n) = some n := by
  rw [readNat, if_neg Nat.toDigits_ne_nil,
    readDigits_eq hd (fun c hc => Nat.isDigit_of_mem_toDigits (by decide) (by decide) hc),
    Nat.ofDigitChars_ten_toDigits]

/-- A numeral without a sign is read as a natural number. -/
theorem readInt_of_isDigit {c : Char} {cs : List Char} (hc : c.isDigit) :
    readInt digit (c :: cs) = (readNat digit (c :: cs)).map fun n : ℕ => (n : ℤ) := by
  unfold readInt
  split
  · rename_i heq
    obtain ⟨rfl, -⟩ := List.cons.inj heq
    exact absurd hc (by decide)
  · rename_i heq
    obtain ⟨rfl, -⟩ := List.cons.inj heq
    exact absurd hc (by decide)
  · rfl

/-- **Reading undoes printing.** -/
theorem readInt_decimal (hd : KnowsDigits digit) (i : ℤ) :
    readInt digit (decimal i) = some i := by
  rcases Int.lt_or_le i 0 with hneg | hpos
  · have hi : decimal i = '-' :: Nat.toDigits 10 i.natAbs := by simp [decimal, hneg]
    rw [hi, readInt, readNat_toDigits hd]
    simp only [Option.map_some, Option.some.injEq]
    omega
  · have hi : decimal i = Nat.toDigits 10 i.natAbs := by
      simp [decimal, Int.not_lt.mpr hpos]
    obtain ⟨c, cs, hcs⟩ := List.exists_cons_of_ne_nil (Nat.toDigits_ne_nil (b := 10) (n := i.natAbs))
    have hc : c.isDigit :=
      Nat.isDigit_of_mem_toDigits (b := 10) (n := i.natAbs) (by decide) (by decide) (by simp [hcs])
    rw [hi, hcs, readInt_of_isDigit hc, ← hcs, readNat_toDigits hd]
    simp only [Option.map_some, Option.some.injEq]
    omega

theorem decimal_ne_nil (i : ℤ) : decimal i ≠ [] := by
  simp [decimal, Nat.toDigits_ne_nil]

/-- Eleven characters are enough for 32 bits. -/
theorem length_decimal_le {i : ℤ} (hlo : -2 ^ 31 ≤ i) (hhi : i < 2 ^ 31) :
    (decimal i).length ≤ 11 := by
  have hdigits : (Nat.toDigits 10 i.natAbs).length ≤ 10 :=
    (Nat.length_toDigits_le_iff (by decide) (by decide)).mpr (by omega)
  rw [decimal, List.length_append]
  split <;> simp <;> omega

/-- The characters printed are printable ASCII. -/
theorem mem_decimal {i : ℤ} {c : Char} (hc : c ∈ decimal i) : c = '-' ∨ c.isDigit := by
  rw [decimal, List.mem_append] at hc
  rcases hc with hc | hc
  · left
    split at hc <;> simp_all
  · exact Or.inr (Nat.isDigit_of_mem_toDigits (by decide) (by decide) hc)

end Decimal

end Dynamicloader
