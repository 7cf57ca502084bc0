/-
The raw memory surface.

Memory comes from one of two sources: the heap itself, or the watched backend, which asks
the heap in turn.  Both answer the same calls.  There are two primitives, one for memory of
the natural alignment and one for every power of two, and each allocation goes back the way
it came; a batch may mix them.

A request for no bytes is a request for one, so every allocation has an address of its own.
Growing or shrinking an allocation that fails gives the allocation up: its owner holds
nothing afterwards.
-/
import PageArena.World

namespace PageArena

/-- Where raw memory comes from. -/
inductive RawSource where
  | heap
  | observer
  deriving DecidableEq, Repr

namespace RawSource

variable {ε σ : Type}

/-- The least alignment that the heap is asked for by the aligning primitive. -/
def leastAlign : Nat := 8

/-- The answer to a request as a value or as the refusal of what was asked. -/
def granted (size align : Nat) (start : Option Nat) : Act HostError σ Nat :=
  match start with
  | some address => pure address
  | none => Act.fail (.allocationFailed size align)

namespace FromHeap

/-- Memory of the natural alignment. -/
def allocate (size : Nat) : Act HostError σ Nat := do
  granted size Primitive.naturalAlign
    (← Act.heap (RawHeap.obtain? · (max size 1) Primitive.naturalAlign))

/-- Memory of an alignment that must be a power of two. -/
def allocateAligned (size align : Nat) : Act HostError σ Nat := do
  if Word.isPowerOfTwo align then
    granted size align (← Act.heap (RawHeap.obtain? · (max size 1) (max align leastAlign)))
  else
    Act.emit (.alignmentRejected align)
    Act.fail (.invalidAlignment align)

/-- Gives an allocation back, whichever primitive it came from. -/
def release (address : Nat) : Act ε σ Unit :=
  Act.heap fun h => ((), h.free address)

/-- Moves an allocation of the natural alignment into one of another size. -/
def resize (address size : Nat) : Act HostError σ Nat := do
  match ← Act.heap (RawHeap.reallocate? · address (max size 1) Primitive.naturalAlign)
  with
  | some moved => return moved
  | none =>
    release address
    Act.fail (.allocationFailed size Primitive.naturalAlign)

end FromHeap

namespace FromObserver

/-- Passes an allocation on to the heap, unless it has to fail, and writes it down. -/
def watch (align : Nat) (call : Except HostError Nat → Observer.Call)
    (request : Act HostError σ Nat) : Act HostError σ Nat := do
  let answer : Except HostError Nat ←
    match ← Act.observer (Observer.screen · align) with
    | some error => pure (.error error)
    | none => Act.attempt request
  match answer with
  | .ok address =>
    let id ← Act.observer (Observer.enrol · address)
    Act.observer fun o => ((), o.record (call (.ok id)))
    return address
  | .error error =>
    Act.observer fun o => ((), o.record (call (.error error)))
    Act.fail error

/-- Memory of the natural alignment. -/
def allocate (size : Nat) : Act HostError σ Nat :=
  watch Primitive.naturalAlign (.allocate size) (FromHeap.allocate size)

/-- Memory of an alignment that must be a power of two. -/
def allocateAligned (size align : Nat) : Act HostError σ Nat :=
  watch align (.allocateAligned size align) (FromHeap.allocateAligned size align)

/-- Gives an allocation back by the primitive that matches it. -/
def release (a : Allocation) : Act ε σ Unit := do
  Act.observer fun o =>
    let id := o.idOf a.address
    let call := match a.kind with
      | .plain => Observer.Call.release id
      | .aligned => Observer.Call.releaseAligned id
    ((), (o.record call).strikeOff a.address)
  FromHeap.release a.address

end FromObserver

/-- Asks for memory of an alignment by the primitive that serves it. -/
def allocate (source : RawSource) (size align : Nat) : Act HostError σ Allocation := do
  let address ← match source, Primitive.forAlignment align with
    | .heap, .plain => FromHeap.allocate size
    | .heap, .aligned => FromHeap.allocateAligned size align
    | .observer, .plain => FromObserver.allocate size
    | .observer, .aligned => FromObserver.allocateAligned size align
  return ⟨address, Primitive.forAlignment align⟩

/-- Gives an allocation back by the primitive that matches it. -/
def release (source : RawSource) (a : Allocation) : Act ε σ Unit :=
  match source with
  | .heap => FromHeap.release a.address
  | .observer => FromObserver.release a

/-- Gives allocations back one after another. -/
def releaseAll (source : RawSource) : List Allocation → Act ε σ Unit
  | [] => pure ()
  | a :: rest => do
    source.release a
    source.releaseAll rest

/-- Gives a batch of allocations back in one call. -/
def releaseBatch (source : RawSource) (entries : List Allocation) : Act ε σ Unit := do
  match source with
  | .heap => source.releaseAll entries
  | .observer =>
    Act.observer fun o =>
      ((), o.record (.releaseBatch (entries.map fun a => (a.kind, o.idOf a.address))))
    source.releaseAll entries

end RawSource

/-! ### Bytes

The functions on bytes take addresses in the heap.  Copying is for ranges that do not
overlap, and that is a condition its caller must meet: `copy?` answers nothing when the
starts of the ranges are closer together than their length.  It is a debugging assertion that
looks at this.  A library that is built without assertions does not look, and of ranges that
overlap nothing is said then.
-/

namespace RawBytes

/-- Three-way comparison of two rows of bytes: the first difference decides, and bytes
count as numbers from 0 to 255. -/
def compareBytes : List UInt8 → List UInt8 → Ordering
  | a :: as, b :: bs => if a < b then .lt else if b < a then .gt else compareBytes as bs
  | _, _ => .eq

/-- Compares the bytes of two ranges of one length. -/
def compare (m : Memory) (a b length : Nat) : Ordering :=
  compareBytes (m.load a length).toList (m.load b length).toList

/-- How far two addresses lie apart. -/
def distance (a b : Nat) : Nat := (a - b) + (b - a)

/-- Moves the bytes of a range to another; they may overlap. -/
def move (m : Memory) (target source length : Nat) : Memory :=
  m.transfer target source length

/-- Copies the bytes of a range to another that it does not overlap, with assertions on. -/
def copy? (m : Memory) (target source length : Nat) : Option Memory :=
  if length ≤ distance target source then some (move m target source length) else none

/-- Where in a range a byte first occurs. -/
def find? (m : Memory) (start : Nat) (byte : UInt8) (length : Nat) : Option Nat :=
  (m.load start length).toList.findIdx? (· == byte)

end RawBytes

end PageArena
