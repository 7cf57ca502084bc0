/-
What one thread holds.

A session names the objects of a thread by numbers: its regions, the handles of their
checkpoints, its allocators and factories, the guards of its scopes, and the memory it was
given.  Regions are shared: a pool, a guard and the binding of the thread each hold a region
as well as the thread's own reference does, and a region ends when the last of them lets go.

`holds` says whether anybody still holds a region; it looks at the holders themselves, so
there is no count to go wrong.
-/
import PageArena.Allocator.Layout
import PageArena.Allocator.Strategy
import PageArena.Session.Slots

namespace PageArena

namespace Session

/-- A region that exists, and whether the thread itself still refers to it. -/
structure RegionCell where
  region : Region
  named : Bool := true
  deriving DecidableEq, Repr

/-- Through what a span was obtained. -/
inductive Source where
  | slice (region : RegionId)
  | pool (allocator : Nat) (region : RegionId)
  | heap (allocator : Nat)
  deriving DecidableEq, Repr

/-- A span that the thread was given. -/
structure Lease where
  span : Span
  source : Source
  deriving DecidableEq, Repr

end Session

/-- What one thread holds. -/
structure Session where
  regions : Slots Session.RegionCell := {}
  handles : Slots Handle := {}
  allocators : Slots Allocator := {}
  factories : Slots Factory := {}
  guards : Slots Guard := {}
  leases : Slots Session.Lease := {}
  /-- Address space that was reserved without a region. -/
  blocks : Slots Span := {}
  /-- The region that is bound to the thread. -/
  bound : Option RegionId := none

namespace Session

/-- Whether an allocator, a guard, the binding or the thread itself still holds a region. -/
def holds (s : Session) (id : RegionId) : Bool :=
  ((s.regions.find? id).map RegionCell.named).getD false
    || s.allocators.held.any (·.strategy.region? == some id)
    || s.guards.held.any (·.previous == some id)
    || s.bound == some id

/-- The region of a number, as long as it exists. -/
def region? (s : Session) (id : RegionId) : Option Region :=
  (s.regions.find? id).map RegionCell.region

/-- The region that the thread itself refers to by a number. -/
def named? (s : Session) (id : RegionId) : Option Region :=
  match s.regions.find? id with
  | some ⟨region, true⟩ => some region
  | _ => none

/-- The session with a region changed. -/
def setRegion (s : Session) (id : RegionId) (region : Region) : Session :=
  match s.regions.find? id with
  | some cell => { s with regions := s.regions.put id (some { cell with region := region }) }
  | none => s

/-- The session with the strategy of an allocator changed. -/
def setStrategy (s : Session) (a : Nat) (strategy : Strategy) : Session :=
  match s.allocators.find? a with
  | some old =>
    { s with allocators := s.allocators.put a (some { old with strategy := strategy }) }
  | none => s

/-! ### Memory that can be read and written -/

/-- The largest region whose addresses stand for bytes: 64 mebibytes. -/
def contentsLimit : Nat := 0x4000000

/-- Whether the addresses of a region stand for bytes here.  Very large regions and those
placed outside the usual range have bookkeeping only. -/
def hasContents (r : Region) : Bool :=
  match r.base? with
  | none => false
  | some base =>
    r.total ≤ contentsLimit && base % r.backend.pageSize == 0 && r.backend.pageSize % 4096 == 0
      && 0x100000000000 ≤ base && base < 0x500000000000

/-- Whether bytes of a span in a region can be reached: the region is open and they lie
below its commit boundary. -/
def reaches (r : Region) (span : Span) (offset length : Nat) : Bool :=
  match r.base? with
  | none => false
  | some base => hasContents r && span.start - base + offset + length ≤ r.committed

/-- Whether a part of a lease can still be read and written. -/
def accessible (s : Session) (lease : Lease) (offset length : Nat) : Bool :=
  offset + length ≤ lease.span.length &&
    match lease.source with
    | .slice id => ((s.named? id).map (reaches · lease.span offset length)).getD false
    | .pool a id =>
      (s.allocators.find? a).isSome
        && ((s.region? id).map (reaches · lease.span offset length)).getD false
    | .heap a => ((s.allocators.find? a).map (!·.strategy.isClosed)).getD false

end Session

end PageArena
