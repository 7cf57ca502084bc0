/-
Regions: what they are, how one is made, and how one is described.

A region is one stretch of address space from which memory is taken in order.  It begins
without address space; the first use reserves it, and closing releases it for good.  What
is in use lies below the cursor, what is accessible below the commit boundary, both counted
from the base.  Checkpoints are cursors put by on a stack, and a handle is a place on that
stack, counted from its bottom.
-/
import PageArena.Host.Inquiry
import PageArena.Text.Form
import PageArena.Tuning

namespace PageArena

/-- A handle of a checkpoint: its place on the stack of the region. -/
structure Handle where
  index : Nat
  deriving DecidableEq, Repr

/-- A stretch of memory that was handed out. -/
structure Span where
  start : Nat
  length : Nat
  deriving DecidableEq, Repr

/-- Where a region stands between its first use and its end. -/
inductive Region.Phase where
  | unreserved
  | reserved (base : Nat)
  | closed
  deriving DecidableEq, Repr

/-- A stretch of address space from which memory is taken in order. -/
structure Region where
  tuning : RegionTuning
  backend : Backend
  /-- Bytes of address space: the size asked for, rounded up to a whole reservation. -/
  total : Nat
  phase : Region.Phase := .unreserved
  /-- Bytes in use. -/
  cursor : Nat := 0
  /-- Accessible bytes. -/
  committed : Nat := 0
  /-- The saved cursors, the newest first. -/
  saved : List Nat := []
  /-- When pages were last given back, or else when the space was reserved. -/
  lastTrim : Nat
  deriving DecidableEq, Repr

namespace Region

/-- The bookkeeping of a region at one moment. -/
structure Snapshot where
  base : Option Nat
  cursor : Nat
  committed : Nat
  total : Nat
  depth : Nat
  closed : Bool
  deriving DecidableEq, Repr

/-- The base, while the region has address space. -/
def base? (r : Region) : Option Nat :=
  match r.phase with
  | .reserved base => some base
  | _ => none

/-- Whether the region is closed. -/
def isClosed (r : Region) : Bool :=
  r.phase == .closed

/-- The number of checkpoints on the stack. -/
def depth (r : Region) : Nat := r.saved.length

/-- The bookkeeping of the region. -/
def snapshot (r : Region) : Snapshot :=
  { base := r.base?, cursor := r.cursor, committed := r.committed, total := r.total,
    depth := r.depth, closed := r.isClosed }

/-- Whether what is in use is accessible and what is accessible is reserved. -/
def Snapshot.isConsistent (s : Snapshot) : Bool :=
  s.cursor ≤ s.committed && s.committed ≤ s.total

/-! ### Making a region -/

variable {σ : Type}

/-- A region of at least `size` bytes on a backend, if its stack of checkpoints can have
its room.  It has no address space yet.

The room is looked at last: a tuning or a size that is refused is refused first. -/
def onBackend (size : Nat) (tuning : RegionTuning) (backend : Backend) :
    Act ArenaError σ (Option Region) := do
  Act.settle tuning.validate
  if size = 0 then Act.raise (.invalidLayout LayoutFault.emptyRegion)
  else
    let total ← Act.settle (Checked.roundUp size backend.granularity)
    if tuning.fits then
      let time ← Act.now
      return some { tuning := tuning, backend := backend, total := total, lastTrim := time }
    else return none

/-- A region of at least `size` bytes on the backend of the running system. -/
def tuned (size : Nat) (tuning : RegionTuning) : Act ArenaError σ (Option Region) := do
  onBackend size tuning (← Host.current)

/-- A region of at least `size` bytes with the usual tuning. -/
def ofSize (size : Nat) : Act ArenaError σ (Option Region) :=
  tuned size {}

/-! ### Written forms -/

/-- The bookkeeping written out with its parts. -/
def Snapshot.describe (style : Text.Style) (s : Snapshot) : String :=
  Text.record style "RegionSnapshot"
    [("base", Text.optional style (s.base.map toString)),
     ("cursor", toString s.cursor),
     ("committed", toString s.committed),
     ("total_size", toString s.total),
     ("checkpoint_depth", toString s.depth),
     ("closed", toString s.closed)] false

/-- The region written out: its backend and its bookkeeping, and that there is more. -/
def describe (style : Text.Style) (r : Region) : String :=
  Text.record style "ReservedRegion"
    [("platform", Text.quoted r.backend.name), ("snapshot", r.snapshot.describe style)] true

end Region

end PageArena
