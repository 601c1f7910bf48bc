import Mathlib.Data.List.Basic
/-!
# Streams read in pieces

What the successive reads of a stream return: pieces of its content, and then
its end or a failure. How the content is cut is up to the stream; `Of` says
that the pieces are those of a content and fit a buffer.
-/

namespace Dynamicloader

variable {α : Type*}

/-- What opening, reading, writing or closing can throw. -/
inductive IOException where
  | fileNotFound
  | failed
  deriving DecidableEq

/-- **The reads of a stream**, in order. -/
inductive Reads (α : Type*) where
  | done
  | fails
  | piece (items : List α) (rest : Reads α)

namespace Reads

/-- The reads are of a stream with this content, into a buffer of `size`. -/
def Of (size : ℕ) : Reads α → List α → Prop
  | done, content => content = []
  | fails, _ => True
  | piece items rest, content =>
    items ≠ [] ∧ items.length ≤ size ∧ ∃ left, content = items ++ left ∧ rest.Of size left

/-- No read fails. -/
def Ends : Reads α → Prop
  | done => True
  | fails => False
  | piece _ rest => rest.Ends

end Reads

end Dynamicloader
