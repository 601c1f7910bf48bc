import Dynamicloader.Common.Stream
import Mathlib.Algebra.Ring.Nat
/-!
# Helpers — the MD5 sum of a file

`getMD5Sum` feeds a file to a digest, makes a number of its 16 bytes and
prints the number in base 16. A number is printed without leading zeros, so
the text is the usual one for those digests whose first digit is not 0
(`getMD5Sum_iff`). The digest is any function to 16 bytes.
-/

namespace Dynamicloader

namespace Helpers

/-! ## The model -/

/-- An opened file: what is read from it, and whether it can be closed. -/
structure FileInputStream where
  reads : Reads UInt8
  closes : Bool

/-- The loop of `getMD5Sum`, while `is.read(buffer) > 0`; the bytes the digest has
been given. -/
def updateAll (given : List UInt8) : Reads UInt8 → Except IOException (List UInt8)
  | .done => .ok given
  | .fails => .error .failed
  | .piece buffer rest => if buffer.length > 0 then updateAll (given ++ buffer) rest else .ok given

/-- `new BigInteger(1, bytes)` -/
def bigInteger (bytes : List UInt8) : ℕ := bytes.foldl (fun n b => 256 * n + b.toNat) 0

/-- **`getMD5Sum`.** `md5` is what `MessageDigest.getInstance` returns, `none` where
there is no such algorithm; `file` is `none` where it cannot be opened. -/
def getMD5Sum (md5 : Option (List UInt8 → Vector UInt8 16)) (file : Option FileInputStream) :
    Except IOException String :=
  match md5 with
  | none => .ok ""
  | some md5 =>
    match file with
    | none => .error .fileNotFound
    | some is => do
      let given ← updateAll [] is.reads
      if is.closes then
        let md5sum := md5 given
        return String.ofList (Nat.toDigits 16 (bigInteger md5sum.toList))
      else throw .failed

/-! ## Digits -/

/-- The two digits of a byte. -/
def hexPair (b : UInt8) : List Char := [Nat.digitChar (b.toNat / 16), Nat.digitChar (b.toNat % 16)]

/-- **How a digest is usually printed**: two digits for each byte, in order. -/
def hexText (bytes : List UInt8) : String := String.ofList (bytes.flatMap hexPair)

theorem length_flatMap_hexPair (bytes : List UInt8) :
    (bytes.flatMap hexPair).length = 2 * bytes.length := by
  induction bytes with
  | nil => rfl
  | cons b bytes ih =>
    rw [List.flatMap_cons, List.length_append, ih, List.length_cons]
    show 2 + 2 * bytes.length = _
    omega

/-- A byte behind a number that is not 0 adds two digits. -/
theorem toDigits_byte {n : ℕ} (hn : 0 < n) (b : UInt8) :
    Nat.toDigits 16 (256 * n + b.toNat) = Nat.toDigits 16 n ++ hexPair b := by
  have hb := b.toNat_lt
  have hhigh : Nat.toDigits 16 n ++ Nat.toDigits 16 (b.toNat / 16) =
      Nat.toDigits 16 (16 * n + b.toNat / 16) :=
    Nat.toDigits_append_toDigits (by decide) hn (by omega)
  have hlow : Nat.toDigits 16 (16 * n + b.toNat / 16) ++ Nat.toDigits 16 (b.toNat % 16) =
      Nat.toDigits 16 (16 * (16 * n + b.toNat / 16) + b.toNat % 16) :=
    Nat.toDigits_append_toDigits (by decide) (by omega) (by omega)
  have hsplit : 256 * n + b.toNat = 16 * (16 * n + b.toNat / 16) + b.toNat % 16 := by omega
  have hfirst : Nat.toDigits 16 (b.toNat / 16) = [Nat.digitChar (b.toNat / 16)] :=
    Nat.toDigits_of_lt_base (by omega)
  have hsecond : Nat.toDigits 16 (b.toNat % 16) = [Nat.digitChar (b.toNat % 16)] :=
    Nat.toDigits_of_lt_base (by omega)
  rw [hsplit, ← hlow, ← hhigh, hfirst, hsecond, List.append_assoc]
  rfl

/-- **Bytes behind a number that is not 0** add two digits each. -/
theorem toDigits_foldl (bytes : List UInt8) {n : ℕ} (hn : 0 < n) :
    Nat.toDigits 16 (bytes.foldl (fun n b => 256 * n + b.toNat) n) =
      Nat.toDigits 16 n ++ bytes.flatMap hexPair := by
  induction bytes generalizing n with
  | nil => simp
  | cons b bytes ih =>
    rw [List.foldl_cons, ih (by omega), toDigits_byte hn, List.flatMap_cons, List.append_assoc]

theorem foldl_lt (bytes : List UInt8) {n k : ℕ} (hn : n < 16 ^ k) :
    bytes.foldl (fun n b => 256 * n + b.toNat) n < 16 ^ (k + 2 * bytes.length) := by
  induction bytes generalizing n k with
  | nil => exact hn
  | cons b bytes ih =>
    have hb := b.toNat_lt
    have hstep : 256 * n + b.toNat < 16 ^ (k + 2) := by
      rw [Nat.pow_add]
      omega
    have := ih hstep
    rw [List.foldl_cons, List.length_cons]
    calc _ < 16 ^ (k + 2 + 2 * bytes.length) := this
      _ = 16 ^ (k + 2 * (bytes.length + 1)) := by congr 1; omega

/-- **The digits of the number are those of the bytes** exactly where the first of
them is not 0. -/
theorem toDigits_bigInteger_iff (b : UInt8) (bytes : List UInt8) :
    Nat.toDigits 16 (bigInteger (b :: bytes)) = (b :: bytes).flatMap hexPair ↔ 16 ≤ b.toNat := by
  have hb := b.toNat_lt
  have hnumber : bigInteger (b :: bytes) =
      bytes.foldl (fun n b => 256 * n + b.toNat) b.toNat := by
    rw [bigInteger, List.foldl_cons, Nat.mul_zero, Nat.zero_add]
  rw [hnumber]
  constructor
  · -- a leading 0 would be missing from the number's digits
    intro heq
    by_contra hlt
    have hsmall := foldl_lt bytes (n := b.toNat) (k := 1) (by omega)
    have hlen := (Nat.length_toDigits_le_iff (b := 16) (by decide) (by omega)).mpr hsmall
    rw [heq, length_flatMap_hexPair, List.length_cons] at hlen
    omega
  · intro hge
    rw [toDigits_foldl bytes (by omega), List.flatMap_cons,
      Nat.toDigits_of_base_le (by decide) hge, Nat.toDigits_of_lt_base (by omega)]
    rfl

/-! ## The sum of a file -/

/-- **The digest is given the whole file** if no read fails. -/
theorem updateAll_eq {size : ℕ} {r : Reads UInt8} {content : List UInt8}
    (hof : r.Of size content) (hends : r.Ends) (given : List UInt8) :
    updateAll given r = .ok (given ++ content) := by
  induction r generalizing given content with
  | done =>
    obtain rfl : content = [] := hof
    rw [updateAll, List.append_nil]
  | fails => exact hends.elim
  | piece buffer rest ih =>
    obtain ⟨hne, -, left, rfl, hleft⟩ := hof
    rw [updateAll, if_pos (List.length_pos_of_ne_nil hne), ih hleft hends, List.append_assoc]

/-- **The text is the usual one if and only if** the first digit of the sum is
not 0. -/
theorem getMD5Sum_iff (md5 : List UInt8 → Vector UInt8 16) {content : List UInt8}
    {is : FileInputStream} (hof : is.reads.Of 8192 content) (hends : is.reads.Ends)
    (hcloses : is.closes = true) :
    getMD5Sum (some md5) (some is) = .ok (hexText (md5 content).toList) ↔
      16 ≤ (md5 content)[0].toNat := by
  have hsum : getMD5Sum (some md5) (some is) =
      .ok (String.ofList (Nat.toDigits 16 (bigInteger (md5 content).toList))) := by
    unfold getMD5Sum
    dsimp only
    rw [updateAll_eq hof hends, List.nil_append, hcloses]
    rfl
  obtain ⟨b, bytes, hbytes⟩ : ∃ b bytes, (md5 content).toList = b :: bytes :=
    List.exists_cons_of_length_pos (by simp)
  have hfirst : (md5 content)[0] = b := by
    have : (md5 content).toList[0]? = some b := by rw [hbytes]; rfl
    simpa using this
  rw [hsum, hexText, hfirst, hbytes, Except.ok.injEq, String.ofList_inj]
  exact toDigits_bigInteger_iff b bytes

/-- A digest that begins with `0c`: the one of a file with the letter a alone. -/
def leadingZero : List UInt8 → Vector UInt8 16 := fun _ =>
  #v[0x0c, 0xc1, 0x75, 0xb9, 0xc0, 0xf1, 0xb6, 0xa8, 0x31, 0xc3, 0x99, 0xe2, 0x69, 0x77, 0x26, 0x61]

/-- The file with the letter a alone. -/
def letterA : FileInputStream := ⟨.piece [97] .done, true⟩

/-- **The sum is printed one digit short.** -/
theorem getMD5Sum_short :
    getMD5Sum (some leadingZero) (some letterA) =
        .ok "cc175b9c0f1b6a831c399e269772661" ∧
      hexText (leadingZero [97]).toList = "0cc175b9c0f1b6a831c399e269772661" := by
  constructor
  · rfl
  · rfl

/-- A digest that begins with `10`. -/
def leadingOne : List UInt8 → Vector UInt8 16 := fun _ => Vector.replicate 16 0x10

theorem getMD5Sum_full :
    getMD5Sum (some leadingOne) (some letterA) =
      .ok (hexText (leadingOne [97]).toList) := by
  have hof : letterA.reads.Of 8192 [97] := ⟨by decide, by decide, [], rfl, rfl⟩
  have hends : letterA.reads.Ends := trivial
  exact (getMD5Sum_iff leadingOne hof hends rfl).mpr (by decide)

end Helpers

end Dynamicloader
