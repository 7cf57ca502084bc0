/-
The steps of a session and what is answered to them.

A step names what it works on by numbers.  Steps that make something take the next number
of its kind, whether they succeed or not, so later steps mean the same thing either way.
-/
import PageArena.Session.Basic

namespace PageArena

namespace Session

/-- The kinds of numbered things. -/
inductive Kind where
  | region
  | handle
  | allocator
  | factory
  | guard
  | lease
  | block
  deriving DecidableEq, Repr

/-- How a region is made. -/
inductive RegionOrigin where
  /-- With the usual tuning. -/
  | standard
  | tuned (tuning : RegionTuning)
  /-- On the backend as it is first got ready. -/
  | onBackend (tuning : RegionTuning)
  deriving DecidableEq, Repr

/-- How a batch heap or a factory is made. -/
inductive HeapOrigin where
  /-- Over the heap, with the usual tuning. -/
  | standard
  | tuned (tuning : HeapTuning)
  /-- Over the watched backend. -/
  | watched (tuning : HeapTuning)
  deriving DecidableEq, Repr

/-- In what words an allocation is asked for. -/
inductive Manner where
  | plain
  | zeroed
  | layout
  deriving DecidableEq, Repr

/-- One step of a session. -/
inductive Step where
  | region (size : Nat) (origin : RegionOrigin)
  | checkpoint (r : RegionId)
  | rollback (r : RegionId) (handle : Nat)
  | sameHandle (x y : Nat)
  | slice (r : RegionId) (size align : Nat)
  | close (r : RegionId)
  | dropRegion (r : RegionId)
  /-- Only shows the bookkeeping of a region, if there is one of that number. -/
  | state (r : Option RegionId)
  | describeRegion (r : RegionId) (style : Text.Style)
  | heap (origin : HeapOrigin)
  | pool (r : RegionId)
  | factory (origin : HeapOrigin)
  | makeBound (factory : Nat)
  | makeOver (factory : Nat) (r : Option RegionId)
  | intoEither (a : Nat)
  | allocate (a : Nat) (size align : Nat) (manner : Manner)
  | closeAllocator (a : Nat)
  /-- Closes and then asks whether the allocator is closed. -/
  | closeAndAsk (a : Nat)
  | dropAllocator (a : Nat)
  | info (a : Nat)
  | strategyName (a : Nat)
  | describeAllocator (a : Nat) (style : Text.Style)
  | enter (r : RegionId)
  | exit (guard : Nat)
  | bound
  | reserve (size : Nat)
  | commit (block offset length : Nat)
  | uncommit (block offset length : Nat)
  | release (block : Nat)
  | write (lease offset length : Nat) (byte : UInt8)
  | read (lease offset length : Nat)
  | advance (time : Nat)
  | failNext (failure : Kernel.Failure)
  | placeNext (address : Nat)
  /-- Allocations of the watched backend fail once so many more have succeeded. -/
  | failAllocations (after : Option Nat) (kind : Observer.FailureKind)
  /-- A step that cannot be understood, with what it would have made and what it names. -/
  | malformed (makes : Option Kind) (r : Option RegionId) (a : Option Nat)
  deriving DecidableEq, Repr

namespace Step

/-- What a step makes. -/
def makes : Step → Option Kind
  | .region .. => some .region
  | .checkpoint .. => some .handle
  | .slice .. => some .lease
  | .heap .. | .pool .. | .makeBound .. | .makeOver .. => some .allocator
  | .factory .. => some .factory
  | .allocate .. => some .lease
  | .enter .. => some .guard
  | .reserve .. => some .block
  | .malformed makes _ _ => makes
  | _ => none

/-- The region that a step names by its own number. -/
def namesRegion : Step → Option RegionId
  | .checkpoint r | .rollback r _ | .slice r _ _ | .close r | .dropRegion r => some r
  | .describeRegion r _ | .pool r | .enter r => some r
  | .state r | .makeOver _ r => r
  | .malformed _ r _ => r
  | _ => none

/-- The allocator that a step names. -/
def namesAllocator : Step → Option Nat
  | .intoEither a | .allocate a _ _ _ | .closeAllocator a | .closeAndAsk a => some a
  | .dropAllocator a | .info a | .strategyName a | .describeAllocator a _ => some a
  | .malformed _ none a => a
  | _ => none

end Step

/-- What is said about an allocator. -/
structure Info where
  closed : Bool
  /-- What a heap holds, by kind and oldest first; nothing for a pool. -/
  entries : Option (List Primitive)
  /-- The place of a pool's checkpoint, while it has one. -/
  checkpoint : Option Nat
  /-- Whether the allocator is known only as one of the two strategies. -/
  either : Bool
  deriving DecidableEq, Repr

/-- Which region is bound to the thread. -/
inductive Bound where
  | nothing
  | region (id : RegionId)
  /-- A region that the thread itself no longer refers to. -/
  | unnamed
  deriving DecidableEq, Repr

/-- What a step answers when it succeeds. -/
inductive Value where
  | nothing
  | region (number : Nat) (snapshot : Region.Snapshot)
  | handle (number index : Nat)
  | truth (value : Bool)
  | lease (number length : Nat) (address : Option Nat)
  | text (value : String)
  | allocator (number : Option Nat) (info : Info)
  | factory (number : Nat)
  | guard (number : Nat)
  | bound (bound : Bound) (elsewhere : Bool)
  | block (number address : Nat)
  | bytes (values : Array UInt8)
  deriving DecidableEq, Repr

/-- Why a step did not succeed. -/
inductive Failure where
  /-- The step names something that is not there, or may not be done; nothing was done. -/
  | refused
  /-- The step asks for room that no object can have; nothing was made. -/
  | oversized
  | error (error : ArenaError)
  deriving DecidableEq, Repr

/-- What is answered to a step. -/
structure Answer where
  outcome : Except Failure Value
  /-- The bookkeeping of the region that the step was about. -/
  state : Option Region.Snapshot
  calls : List OsCall.Record
  raw : List Observer.Call
  log : List Event

end Session

end PageArena
