/-
The heap of the C library.

The heap hands out blocks of memory and takes them back.  Which address a block gets, and
whether a request is granted at all, is the heap's own affair: `place` decides it, from the
number of the request, the blocks that are in use, and the size and alignment asked for.
What a sound heap owes its callers — alignment, and no overlap with a block in use — is a
property of `place`, and everything else is fixed here.

The bytes of a fresh block are whatever its place held before.

Whoever frees a block must have it, and the heap does not check that.  So it writes down all
that is asked of it, and a block that is freed twice shows there if it does not show in the
blocks.
-/
import PageArena.Memory

namespace PageArena

/-- A block in use. -/
structure RawHeap.Block where
  start : Nat
  size : Nat
  deriving DecidableEq, Repr

/-- What the heap can be asked for. -/
inductive RawHeap.Demand where
  | obtain (size align : Nat)
  | reallocate (start size align : Nat)
  | free (start : Nat)
  deriving DecidableEq, Repr

namespace RawHeap

/-- The first address behind a block. -/
def Block.stop (b : Block) : Nat := b.start + b.size

/-- Requests of this size or alignment, two to the 62, and beyond are never granted. -/
def requestLimit : Nat := 0x4000000000000000

/-- Where the heap begins. -/
def bottom : Nat := 0x10000

/-- The first address behind all blocks in use. -/
def top (blocks : List Block) : Nat :=
  blocks.foldl (fun t b => max t b.stop) bottom

/-- Grants every request below the limit, at the next aligned address behind all blocks in
use. -/
def behindAll (_request : Nat) (blocks : List Block) (size align : Nat) : Option Nat :=
  if requestLimit ≤ size ∨ requestLimit ≤ align then none
  else some ((top blocks + (align - 1)) / align * align)

end RawHeap

/-- The state of the heap. -/
structure RawHeap where
  /-- Where the next block goes, or that it is refused. -/
  place : Nat → List RawHeap.Block → Nat → Nat → Option Nat := RawHeap.behindAll
  /-- How many requests there have been. -/
  requests : Nat := 0
  /-- The blocks in use, the newest first. -/
  blocks : List RawHeap.Block := []
  /-- What the heap's addresses hold. -/
  memory : Memory := Memory.zero
  /-- All that was asked of the heap, in its order. -/
  demands : List RawHeap.Demand := []

namespace RawHeap

/-- Writes a demand down. -/
def note (h : RawHeap) (demand : Demand) : RawHeap :=
  { h with demands := h.demands ++ [demand] }

/-- Asks for a block. -/
def obtain? (h : RawHeap) (size align : Nat) : Option Nat × RawHeap :=
  let h' := { h.note (.obtain size align) with requests := h.requests + 1 }
  match h.place h.requests h.blocks size align with
  | none => (none, h')
  | some start => (some start, { h' with blocks := ⟨start, size⟩ :: h.blocks })

/-- The blocks in use but for the one at an address. -/
def besides (h : RawHeap) (start : Nat) : List Block :=
  h.blocks.eraseP (·.start == start)

/-- Takes back the block at an address.  Where none is in use there is none to take back, and
only the record tells of it. -/
def free (h : RawHeap) (start : Nat) : RawHeap :=
  { h.note (.free start) with blocks := h.besides start }

/-- The block in use at an address. -/
def blockAt? (h : RawHeap) (start : Nat) : Option Block :=
  h.blocks.find? (·.start == start)

/-- Turns a block into one of another size, with as many of its bytes as both have.  The
place of the new block is chosen as if the old one were gone, so it may well be the same.
If the request is refused the old block stays in use. -/
def reallocate? (h : RawHeap) (start size align : Nat) : Option Nat × RawHeap :=
  let kept := ((h.blockAt? start).map Block.size).getD 0
  let others := h.besides start
  let h' := { h.note (.reallocate start size align) with requests := h.requests + 1 }
  match h.place h.requests others size align with
  | none => (none, h')
  | some target =>
    (some target,
      { h' with
        blocks := ⟨target, size⟩ :: others
        memory := h.memory.transfer target start (min kept size) })

end RawHeap

end PageArena
