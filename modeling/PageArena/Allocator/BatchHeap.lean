/-
Allocation from the raw memory surface, freed in one batch.

A batch heap keeps a log of what it handed out, and closing it gives the whole log back in
one call.  It is used once: after it was closed it neither allocates nor closes again.

The log holds exactly the allocations in use, oldest first, so the batch frees each of them
once and by the primitive that made it.
-/
import PageArena.Raw.Surface
import PageArena.Region.Basic
import PageArena.Text.Form
import PageArena.Tuning

namespace PageArena

/-- An allocator that frees everything at once. -/
structure BatchHeap where
  source : RawSource
  /-- What was handed out, the oldest first. -/
  entries : List Allocation := []
  closed : Bool := false
  deriving DecidableEq, Repr

namespace BatchHeap

variable {σ : Type}

/-- A batch heap that has handed out nothing, if its log can have its room. -/
def fresh? (source : RawSource) (tuning : HeapTuning) : Option BatchHeap :=
  if tuning.fits then some { source := source } else none

/-- A batch heap over a source, if the tuning makes sense and the log can have its room. -/
def ofSource (source : RawSource) (tuning : HeapTuning) :
    Act ArenaError σ (Option BatchHeap) := do
  Act.settle tuning.validate
  return fresh? source tuning

/-- Allocates `size` bytes aligned to `align`.

A refusal of the memory itself is told in the caller's own numbers; any other failure of
the source is passed on as it is. -/
def allocate (size align : Nat) : Act ArenaError BatchHeap Span := do
  Act.settle (Checked.alignment align)
  let heap ← Act.self
  if heap.closed then Act.raise (.invalidState StateFault.heapClosed)
  else
    match ← Act.attempt (heap.source.allocate size align) with
    | .ok entry =>
      Act.emit (.heapAllocated size align entry.kind)
      Act.update fun heap => { heap with entries := heap.entries ++ [entry] }
      return ⟨entry.address, size⟩
    | .error (.allocationFailed _ _) => Act.raise (.allocationFailed size align)
    | .error error => Act.fail (.host error)

/-- Allocates and sets every byte to zero. -/
def allocateZeroed (size align : Nat) : Act ArenaError BatchHeap Span := do
  let span ← allocate size align
  Act.heap fun h => ((), { h with memory := h.memory.fill span.start span.length 0 })
  return span

/-- Frees everything in one batch, if there is anything, and ends the heap's use. -/
def close : Act ArenaError BatchHeap Unit := do
  let heap ← Act.self
  if heap.closed then Act.raise (.invalidState StateFault.heapAlreadyClosed)
  else
    Act.update fun heap => { heap with closed := true, entries := [] }
    if heap.entries = [] then return () else heap.source.releaseBatch heap.entries

/-- Ends a heap that nobody holds any more; if it was not closed, it is now. -/
def discard : Act Empty BatchHeap Unit := do
  let heap ← Act.self
  if heap.closed then return ()
  else
    if heap.entries ≠ [] then Act.emit (.heapDropped heap.entries.length)
    let _ ← Act.attempt close
    return ()

/-- The heap written out: how many allocations are in use, and whether it is closed. -/
def describe (style : Text.Style) (heap : BatchHeap) : String :=
  Text.record style "HeapAllocator"
    [("len", toString heap.entries.length), ("closed", toString heap.closed)] true

end BatchHeap

end PageArena
