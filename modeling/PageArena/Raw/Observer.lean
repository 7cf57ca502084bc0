/-
A raw memory backend that is watched.

It passes its calls on to the heap, numbers the allocations that succeed from zero, and
writes every call down under these numbers.  Its allocations can be made to fail: from a
point on, all of them, until that is changed.
-/
import PageArena.Error.Host
import PageArena.Raw.Allocation

namespace PageArena

/-- A call of the watched backend, as it was written down. -/
inductive Observer.Call where
  | allocate (size : Nat) (result : Except HostError Nat)
  | allocateAligned (size align : Nat) (result : Except HostError Nat)
  | releaseBatch (entries : List (Primitive × Nat))
  | release (id : Nat)
  | releaseAligned (id : Nat)

/-- The kind of error that failing allocations answer with. -/
inductive Observer.FailureKind where
  | refused
  | alignment
  | platform
  | system
  deriving DecidableEq, Repr

/-- The state of the watched backend. -/
structure Observer where
  /-- The number of the next allocation. -/
  nextId : Nat := 0
  /-- The numbers of the allocations in use, by their addresses. -/
  ids : List (Nat × Nat) := []
  /-- How many more allocations succeed before all fail, and how they fail. -/
  failing : Option (Nat × Observer.FailureKind) := none
  /-- The calls made, in their order. -/
  calls : List Observer.Call := []

namespace Observer

/-- The error of a failing allocation of some alignment. -/
def FailureKind.error (kind : FailureKind) (align : Nat) : HostError :=
  match kind with
  | .refused => .allocationFailed 0 0
  | .alignment => .invalidAlignment align
  | .platform => .platform "injected" (some 5)
  | .system => .unsupportedOs "injected"

/-- Whether the next allocation has to fail, and with what error; if not, it counts as one
of those that succeed. -/
def screen (o : Observer) (align : Nat) : Option HostError × Observer :=
  match o.failing with
  | none => (none, o)
  | some (0, kind) => (some (kind.error align), o)
  | some (n + 1, kind) => (none, { o with failing := some (n, kind) })

/-- Writes a call down. -/
def record (o : Observer) (call : Call) : Observer :=
  { o with calls := o.calls ++ [call] }

/-- Numbers a new allocation. -/
def enrol (o : Observer) (address : Nat) : Nat × Observer :=
  (o.nextId, { o with nextId := o.nextId + 1, ids := (address, o.nextId) :: o.ids })

/-- The number of an allocation in use. -/
def idOf (o : Observer) (address : Nat) : Nat :=
  (o.ids.lookup address).getD 0

/-- Forgets an allocation that was given back. -/
def strikeOff (o : Observer) (address : Nat) : Observer :=
  { o with ids := o.ids.eraseP (·.1 == address) }

end Observer

end PageArena
