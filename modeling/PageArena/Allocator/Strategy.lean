/-
The two strategies of allocation, and the choice between them.

Where a region is at hand, memory comes from it; otherwise it comes from a batch heap.  A
factory makes that choice for each allocator it creates, and an allocator keeps what was
chosen for it.  The tuning of a factory is for the batch heaps it makes; a pool has none.
-/
import PageArena.Allocator.BatchHeap
import PageArena.Allocator.Pool
import PageArena.Scope

namespace PageArena

/-- An allocator of one of the two strategies. -/
inductive Strategy where
  | heap (heap : BatchHeap)
  | pool (pool : Pool) (region : RegionId)
  deriving DecidableEq, Repr

namespace Strategy

/-- Whether the allocator was closed. -/
def isClosed : Strategy → Bool
  | .heap h => h.closed
  | .pool p _ => p.isClosed

/-- The region beneath the allocator, if it slices from one. -/
def region? : Strategy → Option RegionId
  | .heap _ => none
  | .pool _ region => some region

/-- Whether memory comes from the heap. -/
def isHeap : Strategy → Bool
  | .heap _ => true
  | .pool _ _ => false

/-- The name of the strategy. -/
def strategyName : Strategy → String
  | .heap _ => "vmarena_memory::allocator::heap::HeapAllocator"
  | .pool _ _ => "vmarena_memory::allocator::pool::PoolAllocator"

end Strategy

/-- An allocator, which may be known by its own strategy or only as one of the two. -/
structure Allocator where
  strategy : Strategy
  either : Bool := false
  deriving DecidableEq, Repr

/-- A maker of allocators. -/
structure Factory where
  /-- Where its heap allocators get memory. -/
  source : RawSource := .heap
  tuning : HeapTuning := {}
  deriving DecidableEq, Repr

namespace Factory

variable {σ : Type}

/-- A factory whose heap allocators use a source, if the tuning makes sense. -/
def ofSource (source : RawSource) (tuning : HeapTuning) : Act ArenaError σ Factory := do
  Act.settle tuning.validate
  return { source := source, tuning := tuning }

/-- An allocator over the region, or over the heap if there is none.  A batch heap is made
only if its log can have its room. -/
def makeOver (f : Factory) : Option RegionId → Option Allocator
  | some region => some { strategy := .pool .fresh region, either := true }
  | none =>
    (BatchHeap.fresh? f.source f.tuning).map fun heap =>
      { strategy := .heap heap, either := true }

/-- What is made is a batch heap exactly when there is no region. -/
theorem isHeap_of_makeOver {f : Factory} {region : Option RegionId} {a : Allocator}
    (h : f.makeOver region = some a) : a.strategy.isHeap = region.isNone := by
  cases region with
  | some r =>
    obtain rfl := Option.some.inj h
    rfl
  | none =>
    obtain ⟨heap, -, rfl⟩ := Option.map_eq_some_iff.1 h
    rfl

end Factory

end PageArena
