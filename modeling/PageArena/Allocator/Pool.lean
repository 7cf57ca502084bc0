/-
Allocation from a region, freed by one rollback.

A pool shares a region with others.  It takes a checkpoint when it first allocates, slices
everything out of the region, and rolls the region back when it is closed.  So pools of one
region must be closed in the reverse order of their first allocations; one that is closed
out of turn finds its checkpoint buried, and the region is left as it is.

A pool that has not allocated has no checkpoint, and its end does not touch the region.
-/
import PageArena.Region.Operations

namespace PageArena

/-- Where a pool stands between its first allocation and its end. -/
inductive Pool where
  | fresh
  | active (handle : Handle)
  | closed
  deriving DecidableEq, Repr

/-- A pool together with the region that it slices from. -/
structure Tenancy where
  pool : Pool
  region : Region
  deriving DecidableEq, Repr

namespace Pool

/-- The place of the pool's checkpoint on the region's stack, while it has one. -/
def handle? : Pool → Option Handle
  | .active handle => some handle
  | _ => none

/-- Whether the pool is closed. -/
def isClosed : Pool → Bool
  | .closed => true
  | _ => false

variable {ε α : Type}

/-- An act on the region beneath the pool. -/
def onRegion (act : Act ε Region α) : Act ε Tenancy α :=
  act.within Tenancy.region fun region t => { t with region := region }

/-- Sets where the pool stands. -/
def become (pool : Pool) : Act ε Tenancy Unit :=
  Act.update fun t => { t with pool := pool }

/-- Allocates `size` bytes aligned to `align` from the region; the first time, a checkpoint
is taken before, and it stays even if the slice then fails. -/
def allocate (size align : Nat) : Act ArenaError Tenancy Span := do
  match (← Act.self).pool with
  | .closed => Act.raise (.invalidState StateFault.poolClosed)
  | .active _ => onRegion (Region.slice size align)
  | .fresh =>
    let handle ← onRegion Region.checkpoint
    become (.active handle)
    onRegion (Region.slice size align)

/-- Allocates and sets every byte to zero. -/
def allocateZeroed (size align : Nat) : Act ArenaError Tenancy Span := do
  let span ← allocate size align
  Act.kernel fun k => ((), { k with memory := k.memory.fill span.start span.length 0 })
  return span

/-- Frees everything by rolling the region back, if there is anything to roll back, and
ends the pool's use, even if the rollback fails. -/
def close : Act ArenaError Tenancy Unit := do
  let t ← Act.self
  become .closed
  match t.pool with
  | .closed => Act.raise (.invalidState StateFault.poolAlreadyClosed)
  | .fresh => return ()
  | .active handle => onRegion (Region.rollback handle)

/-- Ends a pool that nobody holds any more; if it was not closed, it is now. -/
def discard : Act Empty Tenancy Unit := do
  let t ← Act.self
  if t.pool.isClosed then return ()
  else
    match ← Act.attempt close with
    | .ok () => return ()
    | .error error => Act.emit (.rollbackFailedOnDrop error)

/-- Where the pool stands, written out. -/
def describeState (style : Text.Style) : Pool → String
  | .fresh => "Fresh"
  | .active handle =>
    Text.tuple style "Active" [Text.tuple style "Checkpoint" [toString handle.index]]
  | .closed => "Closed"

end Pool

namespace Tenancy

/-- The pool written out, with the bookkeeping of its region. -/
def describe (style : Text.Style) (t : Tenancy) : String :=
  Text.record style "PoolAllocator"
    [("state", t.pool.describeState style), ("region", t.region.snapshot.describe style)] false

end Tenancy

end PageArena
