/-
What a raw allocation is: where it starts, and which of two primitives made it.

The primitive matters when the memory is given back, because each has its own counterpart.
Memory of every alignment up to `naturalAlign` comes from the plain primitive.
-/

namespace PageArena

/-- The primitive that made an allocation and so the one that frees it. -/
inductive Primitive where
  | plain
  | aligned
  deriving DecidableEq, Repr

namespace Primitive

/-- The alignment that every plain allocation has. -/
def naturalAlign : Nat := 16

/-- The primitive for an alignment. -/
def forAlignment (align : Nat) : Primitive :=
  if align ≤ naturalAlign then .plain else .aligned

/-- The kind as a plain word. -/
def word : Primitive → String
  | .plain => "plain"
  | .aligned => "aligned"

/-- The kind as one of its kind. -/
def describe : Primitive → String
  | .plain => "Plain"
  | .aligned => "Aligned"

end Primitive

/-- An address together with the primitive that must free it. -/
structure Allocation where
  address : Nat
  kind : Primitive
  deriving DecidableEq, Repr

end PageArena
