import Mathlib.Data.List.Basic
/-!
# Arrays by reference

The arrays a program has made, in the order it made them; a reference is the
place of one. An array that was just made holds nulls, an access out of its
bounds throws, and so does one through a reference to nothing.

What is proved is about the array made last, which no one else has yet: a
write to it leaves the others as they are. The facts say so by their form,
`A ++ [m]` before the write and `A ++ [m']` behind it.
-/

namespace Dynamicloader

/-- What an access to an array throws. -/
inductive ArrayException
  | nullPointer
  | negativeArraySize
  | indexOutOfBounds
deriving DecidableEq, Repr

/-- The arrays by their references. -/
abbrev Arrays (α : Type*) := List (List (Option α))

namespace Arrays

variable {α : Type*}

/-- The array behind a reference. -/
def deref (A : Arrays α) (r : ℕ) : Except ArrayException (List (Option α)) :=
  match A[r]? with
  | some l => .ok l
  | none => .error .nullPointer

/-- `new Object[n]` -/
def alloc (A : Arrays α) (n : Int) : Except ArrayException (ℕ × Arrays α) :=
  if n < 0 then .error .negativeArraySize
  else .ok (A.length, A ++ [List.replicate n.toNat none])

/-- `a[i] = e` -/
def store (A : Arrays α) (r : ℕ) (i : Int) (e : Option α) : Except ArrayException (Arrays α) := do
  let l ← A.deref r
  if 0 ≤ i ∧ i < l.length then return List.set A r (l.set i.toNat e)
  else throw .indexOutOfBounds

/-- `System.arraycopy` -/
def arraycopy (A : Arrays α) (src : ℕ) (srcPos : Int) (dst : ℕ) (dstPos length : Int) :
    Except ArrayException (Arrays α) := do
  let s ← A.deref src
  let d ← A.deref dst
  if 0 ≤ srcPos ∧ 0 ≤ dstPos ∧ 0 ≤ length ∧ srcPos + length ≤ s.length ∧
      dstPos + length ≤ d.length then
    return List.set A dst (d.take dstPos.toNat ++ (s.drop srcPos.toNat).take length.toNat ++
      d.drop (dstPos + length).toNat)
  else throw .indexOutOfBounds

/-! ## The array made last -/

theorem deref_eq {A : Arrays α} {r : ℕ} {l : List (Option α)} (h : A[r]? = some l) :
    A.deref r = .ok l := by
  rw [deref, h]

theorem deref_last (A : Arrays α) (m : List (Option α)) : deref (A ++ [m]) A.length = .ok m :=
  deref_eq List.getElem?_concat_length

theorem getElem?_append {A : Arrays α} {r : ℕ} {l : List (Option α)} (h : A[r]? = some l)
    (B : Arrays α) : (A ++ B)[r]? = some l := by
  obtain ⟨hr, -⟩ := List.getElem?_eq_some_iff.mp h
  rw [List.getElem?_append_left hr, h]

theorem set_last (A : Arrays α) (m m' : List (Option α)) :
    List.set (A ++ [m]) A.length m' = A ++ [m'] := by
  rw [List.set_append_right _ _ (Nat.le_refl _), Nat.sub_self, List.set_cons_zero]

theorem alloc_eq (A : Arrays α) (n : ℕ) :
    A.alloc n = .ok (A.length, A ++ [List.replicate n none]) := by
  rw [alloc, if_neg (by omega), Int.toNat_natCast]

theorem store_last (A : Arrays α) {m : List (Option α)} {i : ℕ} (hi : i < m.length)
    (e : Option α) : store (A ++ [m]) A.length i e = .ok (A ++ [m.set i e]) := by
  simp only [store, deref_last, bind, Except.bind]
  rw [if_pos (by omega), Int.toNat_natCast, set_last]
  rfl

/-- Copying from another array to the one made last, behind what that holds
already. -/
theorem arraycopy_last {A : Arrays α} {s : List (Option α)} {src : ℕ} (hsrc : A[src]? = some s)
    (m : List (Option α)) {srcPos length n : ℕ} (hs : srcPos + length ≤ s.length)
    (hn : length ≤ n) :
    arraycopy (A ++ [m ++ List.replicate n none]) src srcPos A.length m.length length =
      .ok (A ++ [m ++ (s.drop srcPos).take length ++ List.replicate (n - length) none]) := by
  have hlen : (m ++ List.replicate n (none : Option α)).length = m.length + n := by
    rw [List.length_append, List.length_replicate]
  have hdrop : (m ++ List.replicate n (none : Option α)).drop (m.length + length) =
      List.replicate (n - length) none := by
    rw [List.drop_append, List.drop_replicate, List.drop_of_length_le (by omega), List.nil_append,
      Nat.add_sub_cancel_left]
  simp only [arraycopy, deref_eq (getElem?_append hsrc _), deref_last, bind, Except.bind]
  rw [if_pos (by omega), ← Int.natCast_add, set_last]
  simp only [Int.toNat_natCast, List.take_left, hdrop]
  rfl

end Arrays

end Dynamicloader
