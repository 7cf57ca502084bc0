/-
Layouts: a size and an alignment that go together.

A layout is one that could be laid out in memory: its alignment is a power of two, and its
size, rounded up to that alignment, still fits into the signed words.
-/
import PageArena.Word

namespace PageArena

/-- A size with an alignment. -/
structure Layout where
  size : Nat
  align : Nat
  deriving DecidableEq, Repr

namespace Layout

/-- The first size that is no signed word, two to the 63. -/
def signedLimit : Nat := 0x8000000000000000

/-- The layout of a size and an alignment, if there is one. -/
def of? (size align : Nat) : Option Layout :=
  if Word.isPowerOfTwo align ∧ size + align ≤ signedLimit then some ⟨size, align⟩ else none

end Layout

end PageArena
