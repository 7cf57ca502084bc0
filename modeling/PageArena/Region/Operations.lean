/-
What is done with a region.

Memory is taken with `slice`, which moves the cursor up and makes pages accessible as it
needs them.  `checkpoint` puts the cursor by, and `rollback` brings it back to the newest
cursor that was put by; pages that then lie idle may be given back.  `close` releases the
address space.

A call to the operating system that fails half-way leaves pages of which nothing is known.
So the region is then released and closed, whatever the release answers, and the failure of
the call is the answer.  The release is the caller's business no longer: if it fails too,
that is only reported.
-/
import PageArena.Region.Basic
import PageArena.VirtualMemory

namespace PageArena

namespace Region

/-- The base of a region that has been used. -/
def currentBase : Act ArenaError Region Nat := do
  match (← Act.self).phase with
  | .reserved base => return base
  | .closed => Act.raise (.invalidState StateFault.regionClosed)
  | .unreserved => Act.raise (.invalidState StateFault.noCheckpoints)

/-- Reserves the region's address space.  Its end must be an address too. -/
def reserve : Act ArenaError Region Nat := do
  let r ← Act.self
  let base ← VirtualMemory.reserve r.total
  let _ ← Act.settle (Checked.add base r.total)
  let time ← Act.now
  Act.update fun r =>
    { r with phase := .reserved base, cursor := 0, committed := 0, lastTrim := time }
  Act.emit (.reserved base r.total r.backend.name)
  return base

/-- The base of the region, which is reserved if this is its first use. -/
def obtainBase : Act ArenaError Region Nat := do
  match (← Act.self).phase with
  | .reserved base => return base
  | .closed => Act.raise (.invalidState StateFault.regionClosed)
  | .unreserved => reserve

/-- Closes the region after a failed call and releases its address space as well as that
can be done. -/
def abandon : Act ArenaError Region Unit := do
  let r ← Act.self
  Act.update fun r => { r with phase := .closed }
  match r.phase with
  | .reserved base =>
    Act.update fun r => { r with saved := [] }
    match ← Act.attempt (VirtualMemory.release base r.total) with
    | .ok () => return ()
    | .error error => Act.emit (.releaseFailedAfterFailure error)
  | _ => return ()

/-- Makes a change of pages that closes the region if it fails. -/
def orAbandon (change : Act ArenaError Region Unit) : Act ArenaError Region Unit := do
  match ← Act.attempt change with
  | .ok () => return ()
  | .error error => do
    abandon
    Act.fail error

/-- Puts the cursor by and answers the handle of the new checkpoint. -/
def checkpoint : Act ArenaError Region Handle := do
  let _ ← obtainBase
  let r ← Act.self
  Act.update fun r => { r with saved := r.cursor :: r.saved }
  return ⟨r.depth⟩

/-- Makes the region accessible up to the page that holds the last byte below `stop`. -/
def commitTo (base stop : Nat) : Act ArenaError Region Unit := do
  let r ← Act.self
  let whole ← Act.settle (Checked.roundUp stop r.backend.pageSize)
  let boundary := min whole r.total
  let length ← Act.settle (Checked.sub boundary r.committed)
  orAbandon (VirtualMemory.commit (base + r.committed) length)
  Act.emit (.committed r.committed boundary)
  Act.update fun r => { r with committed := boundary }

/-- Takes `size` bytes at the next multiple of `align` from a region that has its base.

A request that does not fit changes nothing.  A request for no bytes moves nothing either. -/
def cut (base size align : Nat) : Act ArenaError Region Span := do
  let r ← Act.self
  let here ← Act.settle (Checked.add base r.cursor)
  let address ← Act.settle (Checked.roundUp here align)
  let start ← Act.settle (Checked.sub address base)
  let stop ← Act.settle (Checked.add start size)
  if r.total < stop then Act.raise (.outOfBounds stop r.total)
  else if size = 0 then return ⟨base + start, size⟩
  else
    if r.committed < stop then commitTo base stop
    Act.update fun r => { r with cursor := stop }
    return ⟨base + start, size⟩

/-- Takes `size` bytes at the next multiple of `align`.  The alignment is judged before
anything else. -/
def slice (size align : Nat) : Act ArenaError Region Span := do
  Act.settle (Checked.alignment align)
  let base ← obtainBase
  cut base size align

/-- Gives one batch of idle pages back, if more than the threshold of them lie above the
cursor and the last time is long enough ago. -/
def trim : Act ArenaError Region Unit := do
  let r ← Act.self
  let threshold ← Act.settle (Checked.mul r.tuning.thresholdPages r.backend.pageSize)
  let idle ← Act.settle (Checked.sub r.committed r.cursor)
  let time ← Act.now
  if idle ≤ threshold ∨ time - r.lastTrim < r.tuning.cooldown.nanoseconds then return ()
  else
    let length ← Act.settle (Checked.mul r.tuning.batchPages r.backend.pageSize)
    let boundary ← Act.settle (Checked.sub r.committed length)
    let base ← currentBase
    orAbandon (VirtualMemory.uncommit (base + boundary) length)
    Act.emit (.decommitted length boundary)
    let time ← Act.now
    Act.update fun r => { r with committed := boundary, lastTrim := time }

/-- Brings the cursor back to the newest checkpoint, which must be the one of the handle,
and takes that checkpoint off the stack. -/
def rollback (handle : Handle) : Act ArenaError Region Unit := do
  let _ ← currentBase
  let r ← Act.self
  match r.saved with
  | cursor :: older =>
    if r.depth = handle.index + 1 then
      Act.update fun r => { r with saved := older }
      Act.emit (.rolledBack handle.index r.cursor cursor)
      Act.update fun r => { r with cursor := cursor }
      trim
    else Act.raise (.invalidState (StateFault.staleHandle handle.index r.depth))
  | [] => Act.raise (.invalidState (StateFault.staleHandle handle.index r.depth))

/-- Releases the region's address space, if it has any, and ends its use. -/
def close : Act ArenaError Region Unit := do
  let r ← Act.self
  Act.update fun r => { r with phase := .closed }
  match r.phase with
  | .closed => Act.raise (.invalidState StateFault.regionAlreadyClosed)
  | .unreserved => return ()
  | .reserved base =>
    Act.update fun r => { r with saved := [] }
    Act.emit (.releasing base r.total r.committed)
    VirtualMemory.release base r.total

/-- Ends a region that nobody holds any more.  One that still has address space gives it
back as well as that can be done. -/
def discard : Act Empty Region Unit := do
  let r ← Act.self
  match r.phase with
  | .reserved _ =>
    Act.emit (.regionDropped r.total)
    match ← Act.attempt close with
    | .ok () => return ()
    | .error error => Act.emit (.releaseFailedOnDrop error)
  | _ => return ()

end Region

end PageArena
