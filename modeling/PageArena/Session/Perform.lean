/-
How a session carries out its steps.

Each step is an act on the session.  It first looks up what it names and refuses if that is
not there, so a refused step has done nothing.  Acts on a region or an allocator are done
within the session: the object is taken out of its place and put back as it was left.

Letting go of a region is the one place where regions end: whoever held it gives up its
hold first, and if nobody holds the region then, it is discarded.
-/
import PageArena.Session.Step

namespace PageArena

namespace Session

variable {ε α : Type}

/-- A step at work. -/
abbrev Work (α : Type) : Type := Act Failure Session α

/-- Refuses the step. -/
def refuse : Work α := Act.fail .refused

/-- What is there, or a refusal. -/
def need (x : Option α) : Work α :=
  match x with
  | some value => pure value
  | none => refuse

/-- What was made, unless it asked for room that no object can have. -/
def made (x : Option α) : Work α :=
  match x with
  | some value => pure value
  | none => Act.fail .oversized

/-- An act of the library as part of a step. -/
def call (act : Act ArenaError Session α) : Work α := act.mapError .error

/-- An act that cannot fail as part of a step. -/
def calm (act : Act Empty Session α) : Act ε Session α := act.mapError Empty.elim

/-! ### Acts on the things of a session -/

/-- An act on a region. -/
def onRegion (id : RegionId) (region : Region) (act : Act ε Region α) : Act ε Session α :=
  act.within (fun _ => region) fun region s => s.setRegion id region

/-- An act on a batch heap. -/
def onHeap (a : Nat) (heap : BatchHeap) (act : Act ε BatchHeap α) : Act ε Session α :=
  act.within (fun _ => heap) fun heap s => s.setStrategy a (.heap heap)

/-- An act on a pool and its region. -/
def onPool (a : Nat) (pool : Pool) (id : RegionId) (region : Region) (act : Act ε Tenancy α) :
    Act ε Session α :=
  act.within (fun _ => ⟨pool, region⟩) fun t s =>
    (s.setRegion id t.region).setStrategy a (.pool t.pool id)

/-! ### Taking places -/

/-- Takes the next number of some places. -/
def take {β : Type} (get : Session → Slots β) (put : Slots β → Session → Session)
    (x : Option β) : Act ε Session Nat := do
  let places := get (← Act.self)
  Act.update (put (places.push x))
  return places.next

/-- Takes the next number of regions. -/
def addRegion : Option RegionCell → Act ε Session Nat :=
  take Session.regions fun regions s => { s with regions := regions }

/-- Takes the next number of handles. -/
def addHandle : Option Handle → Act ε Session Nat :=
  take Session.handles fun handles s => { s with handles := handles }

/-- Takes the next number of allocators. -/
def addAllocator : Option Allocator → Act ε Session Nat :=
  take Session.allocators fun allocators s => { s with allocators := allocators }

/-- Takes the next number of factories. -/
def addFactory : Option Factory → Act ε Session Nat :=
  take Session.factories fun factories s => { s with factories := factories }

/-- Takes the next number of guards. -/
def addGuard : Option Guard → Act ε Session Nat :=
  take Session.guards fun guards s => { s with guards := guards }

/-- Takes the next number of leases. -/
def addLease : Option Lease → Act ε Session Nat :=
  take Session.leases fun leases s => { s with leases := leases }

/-- Takes the next number of blocks. -/
def addBlock : Option Span → Act ε Session Nat :=
  take Session.blocks fun blocks s => { s with blocks := blocks }

/-- Takes the next number of a kind and leaves its place empty. -/
def skip : Kind → Act ε Session Nat
  | .region => addRegion none
  | .handle => addHandle none
  | .allocator => addAllocator none
  | .factory => addFactory none
  | .guard => addGuard none
  | .lease => addLease none
  | .block => addBlock none

/-! ### The ends of things -/

/-- Discards a region that nobody holds any more. -/
def discardUnheld (id : RegionId) : Act ε Session Unit := do
  let s ← Act.self
  match s.region? id with
  | some region =>
    if s.holds id then return ()
    else
      calm (onRegion id region Region.discard)
      Act.update fun s => { s with regions := s.regions.put id none }
  | none => return ()

/-- Ends an allocator and lets go of its region. -/
def dropAllocator (a : Nat) (allocator : Allocator) : Act ε Session Unit := do
  match allocator.strategy with
  | .heap heap =>
    calm (onHeap a heap BatchHeap.discard)
    Act.update fun s => { s with allocators := s.allocators.put a none }
  | .pool pool id =>
    match (← Act.self).region? id with
    | some region => calm (onPool a pool id region Pool.discard)
    | none => pure ()
    Act.update fun s => { s with allocators := s.allocators.put a none }
    discardUnheld id

/-- Leaves the scope of a guard: what was bound before is bound again, and what was bound
until now is let go. -/
def leave (g : Nat) (guard : Guard) : Act ε Session Unit := do
  let s ← Act.self
  Act.update fun s =>
    { s with guards := s.guards.put g none, bound := guard.restored }
  match s.bound with
  | some id => discardUnheld id
  | none => return ()

/-- Gives up the thread's own reference to a region. -/
def dropRegion (id : RegionId) : Act ε Session Unit := do
  match (← Act.self).regions.find? id with
  | some cell =>
    Act.update fun s =>
      { s with regions := s.regions.put id (some { cell with named := false }) }
    discardUnheld id
  | none => return ()

/-- Ends the thread's binding. -/
def unbind : Act ε Session Unit := do
  match (← Act.self).bound with
  | some id =>
    Act.update fun s => { s with bound := none }
    discardUnheld id
  | none => return ()

/-- Ends what is at each of some places. -/
def dropEach {β : Type} (places : Session → Slots β) (drop : Nat → β → Act ε Session Unit) :
    List Nat → Act ε Session Unit
  | [] => pure ()
  | i :: rest => do
    match (places (← Act.self)).find? i with
    | some x => drop i x
    | none => pure ()
    dropEach places drop rest

/-- Ends everything that is still held: allocators, then guards, then regions, each from
the newest to the oldest, and the binding last. -/
def dropAll : Act ε Session Unit := do
  let s ← Act.self
  dropEach Session.allocators dropAllocator s.allocators.descending
  dropEach Session.guards leave s.guards.descending
  dropEach Session.regions
    (fun id cell => if cell.named then dropRegion id else pure ()) s.regions.descending
  unbind

/-! ### What is said about allocators -/

/-- What is said about an allocator. -/
def infoOf (allocator : Allocator) : Info :=
  match allocator.strategy with
  | .heap heap =>
    { closed := heap.closed, entries := some (heap.entries.map Allocation.kind),
      checkpoint := none, either := allocator.either }
  | .pool pool _ =>
    { closed := pool.isClosed, entries := none,
      checkpoint := pool.handle?.map Handle.index, either := allocator.either }

/-- Takes a place for an allocator and says what it is. -/
def present (allocator : Allocator) : Work Value := do
  let number ← addAllocator (some allocator)
  return .allocator (some number) (infoOf allocator)

/-- The source and the tuning that an origin stands for. -/
def HeapOrigin.parts : HeapOrigin → RawSource × HeapTuning
  | .standard => (.heap, {})
  | .tuned tuning => (.heap, tuning)
  | .watched tuning => (.observer, tuning)

/-- Allocates from an allocator. -/
def allocate (a : Nat) (size align : Nat) (manner : Manner) : Work Value := do
  let allocator ← need ((← Act.self).allocators.find? a)
  if manner = .layout then let _ ← need (Layout.of? size align)
  match allocator.strategy with
  | .heap heap =>
    let act := if manner = .zeroed then BatchHeap.allocateZeroed size align
      else BatchHeap.allocate size align
    let span ← call (onHeap a heap act)
    let number ← addLease (some ⟨span, .heap a⟩)
    return .lease number span.length none
  | .pool pool id =>
    let region ← need ((← Act.self).region? id)
    let act := if manner = .zeroed then Pool.allocateZeroed size align
      else Pool.allocate size align
    let span ← call (onPool a pool id region act)
    let number ← addLease (some ⟨span, .pool a id⟩)
    return .lease number span.length (some span.start)

/-- Closes an allocator. -/
def closeAllocator (a : Nat) : Work Unit := do
  let allocator ← need ((← Act.self).allocators.find? a)
  match allocator.strategy with
  | .heap heap => call (onHeap a heap BatchHeap.close)
  | .pool pool id =>
    let region ← need ((← Act.self).region? id)
    call (onPool a pool id region Pool.close)

/-- An allocator written out. -/
def describe (s : Session) (style : Text.Style) (allocator : Allocator) : Option String :=
  match allocator.strategy with
  | .heap heap =>
    let text := heap.describe style
    some (if allocator.either then Text.tuple style "Heap" [text] else text)
  | .pool pool id =>
    (s.region? id).map fun region =>
      let text := Tenancy.describe style ⟨pool, region⟩
      if allocator.either then Text.tuple style "Pool" [text] else text

/-! ### Steps -/

/-- Makes a region. -/
def makeRegion (size : Nat) (origin : RegionOrigin) : Work Value := do
  let answer ← call <| match origin with
    | .standard => Region.ofSize size
    | .tuned tuning => Region.tuned size tuning
    | .onBackend tuning => do Region.onBackend size tuning (← Host.init)
  let region ← made answer
  let number ← addRegion (some { region := region })
  return .region number region.snapshot

/-- The bytes of a part of a lease, where they can be reached. -/
def reach (number offset length : Nat) : Work (Lease × Nat) := do
  let s ← Act.self
  let lease ← need (s.leases.find? number)
  if s.accessible lease offset length then return (lease, lease.span.start + offset)
  else refuse

/-- Writes one byte over a part of a lease. -/
def write (number offset length : Nat) (byte : UInt8) : Work Value := do
  let (lease, start) ← reach number offset length
  match lease.source with
  | .heap _ => Act.heap fun h =>
    (.nothing, { h with memory := h.memory.fill start length byte })
  | _ => Act.kernel fun k =>
    (.nothing, { k with memory := k.memory.fill start length byte })

/-- Reads a part of a lease. -/
def read (number offset length : Nat) : Work Value := do
  let (lease, start) ← reach number offset length
  let w ← Act.world
  match lease.source with
  | .heap _ => return .bytes (w.heap.memory.load start length)
  | _ => return .bytes (w.kernel.memory.load start length)

/-- A part of a block of address space, if it lies within the block. -/
def blockPart (number offset length : Nat) : Work Nat := do
  let block ← need ((← Act.self).blocks.find? number)
  if offset + length ≤ block.length then return block.start + offset else refuse

/-- Which region is bound. -/
def boundNow (s : Session) : Bound :=
  match s.bound with
  | none => .nothing
  | some id => if (s.named? id).isSome then .region id else .unnamed

/-- Carries out a step. -/
def perform (step : Step) : Work Value := do
  let s ← Act.self
  match step with
  | .region size origin => makeRegion size origin
  | .checkpoint r =>
    let region ← need (s.named? r)
    let handle ← call (onRegion r region Region.checkpoint)
    let number ← addHandle (some handle)
    return .handle number handle.index
  | .rollback r c =>
    let region ← need (s.named? r)
    let handle ← need (s.handles.find? c)
    call (onRegion r region (Region.rollback handle))
    return .nothing
  | .sameHandle x y =>
    let first ← need (s.handles.find? x)
    let second ← need (s.handles.find? y)
    return .truth (first = second)
  | .slice r size align =>
    let region ← need (s.named? r)
    let span ← call (onRegion r region (Region.slice size align))
    let number ← addLease (some ⟨span, .slice r⟩)
    return .lease number span.length (some span.start)
  | .close r =>
    let region ← need (s.named? r)
    call (onRegion r region Region.close)
    return .nothing
  | .dropRegion r =>
    let _ ← need (s.named? r)
    dropRegion r
    return .nothing
  | .state _ => return .nothing
  | .describeRegion r style =>
    let region ← need (s.named? r)
    return .text (region.describe style)
  | .heap origin =>
    let (source, tuning) := origin.parts
    let heap ← made (← call (BatchHeap.ofSource source tuning))
    present { strategy := .heap heap }
  | .pool r =>
    let _ ← need (s.named? r)
    present { strategy := .pool .fresh r }
  | .factory origin =>
    let (source, tuning) := origin.parts
    let factory ← call (Factory.ofSource source tuning)
    return .factory (← addFactory (some factory))
  | .makeBound f =>
    let factory ← need (s.factories.find? f)
    present (← made (factory.makeOver s.bound))
  | .makeOver f none =>
    let factory ← need (s.factories.find? f)
    present (← made (factory.makeOver none))
  | .makeOver f (some r) =>
    let factory ← need (s.factories.find? f)
    let _ ← need (s.named? r)
    present (← made (factory.makeOver (some r)))
  | .intoEither a =>
    let allocator ← need (s.allocators.find? a)
    let allocator := { allocator with either := true }
    Act.update fun s => { s with allocators := s.allocators.put a (some allocator) }
    return .allocator none (infoOf allocator)
  | .allocate a size align manner => allocate a size align manner
  | .closeAllocator a =>
    closeAllocator a
    return .nothing
  | .closeAndAsk a =>
    closeAllocator a
    let allocator ← need ((← Act.self).allocators.find? a)
    return .truth allocator.strategy.isClosed
  | .dropAllocator a =>
    let allocator ← need (s.allocators.find? a)
    dropAllocator a allocator
    return .nothing
  | .info a =>
    let allocator ← need (s.allocators.find? a)
    return .allocator none (infoOf allocator)
  | .strategyName a =>
    let allocator ← need (s.allocators.find? a)
    return .text allocator.strategy.strategyName
  | .describeAllocator a style =>
    let allocator ← need (s.allocators.find? a)
    return .text (← need (describe s style allocator))
  | .enter r =>
    let _ ← need (s.named? r)
    let (guard, bound) := Guard.enter s.bound r
    Act.update fun s => { s with bound := bound }
    return .guard (← addGuard (some guard))
  | .exit g =>
    let guard ← need (s.guards.find? g)
    leave g guard
    return .nothing
  | .bound => return .bound (boundNow s) false
  | .reserve size =>
    let start ← call (do
      let _ ← Host.init
      VirtualMemory.reserve size)
    return .block (← addBlock (some ⟨start, size⟩)) start
  | .commit b offset length =>
    let start ← blockPart b offset length
    call (do
      let _ ← Host.init
      VirtualMemory.commit start length)
    return .nothing
  | .uncommit b offset length =>
    let start ← blockPart b offset length
    call (do
      let _ ← Host.init
      VirtualMemory.uncommit start length)
    return .nothing
  | .release b =>
    let block ← need (s.blocks.find? b)
    call (VirtualMemory.release block.start block.length)
    Act.update fun s => { s with blocks := s.blocks.put b none }
    return .nothing
  | .write number offset length byte => write number offset length byte
  | .read number offset length => read number offset length
  | .advance time => Act.kernel fun k => (.nothing, k.advance time)
  | .failNext failure => Act.kernel fun k => (.nothing, k.schedule failure)
  | .placeNext address => Act.kernel fun k => (.nothing, k.queueBase address)
  | .failAllocations after kind =>
    Act.observer fun o => (.nothing, { o with failing := after.map (·, kind) })
  | .malformed .. => refuse

end Session

end PageArena
