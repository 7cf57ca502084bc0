/-
Learning about the host.

The page size is asked for once, and the backend is chosen once; both answers are kept,
whether good or bad.  Everything that needs the host asks here.

There are two ways to ask for the units of memory.  `pageSize?` and `granularity?` fail when
the query failed; `pageSize` and `granularity` then put a usual value in its place.  The
backend is only chosen when the query succeeded, so no region on a backend that was chosen
works with that value.  Whoever takes `posixBackend` without choosing gets it with the usual
value, if the query failed, and so does a region that is made on it.
-/
import PageArena.World

namespace PageArena

namespace Host

variable {σ : Type}

/-- Asks the system for its page size. -/
def measure : Act HostError σ Geometry := do
  let reported ← Act.kernel Kernel.reportPageSize
  if reported = -1 then
    let w ← Act.world
    Act.fail (.ofErrno Geometry.query w.kernel.errno)
  else
    match Geometry.ofPageSize reported with
    | .ok geometry => pure geometry
    | .error error => Act.fail error

/-- Asks for the page size and keeps the answer; reports if there is none. -/
def learnGeometry : Act HostError σ Geometry := do
  let answer : Except HostError Geometry ← Act.attempt measure
  Act.learn fun known => { known with geometry := some answer }
  match answer with
  | .ok geometry => pure geometry
  | .error error => do
    Act.emit (.geometryUnknown error)
    Act.fail error

/-- The units of memory, or why they are not known. -/
def geometry : Act HostError σ Geometry := do
  match (← Act.world).host.geometry with
  | some (.ok geometry) => pure geometry
  | some (.error error) => Act.fail error
  | none => learnGeometry

/-- The page size, or why it is not known. -/
def pageSize? : Act HostError σ Nat := do
  return (← geometry).pageSize

/-- The unit of reservations, or why it is not known. -/
def granularity? : Act HostError σ Nat := do
  return (← geometry).granularity

/-- The page size, or the usual one. -/
def pageSize : Act Empty σ Nat := do
  match ← Act.attempt pageSize? with
  | .ok size => pure size
  | .error _ => pure Geometry.fallback

/-- The unit of reservations, or the usual one. -/
def granularity : Act Empty σ Nat := do
  match ← Act.attempt granularity? with
  | .ok size => pure size
  | .error _ => pure Geometry.fallback

/-- The backend over the `mmap` family with the units that are taken for it. -/
def posixBackend : Act Empty σ Backend := do
  let size ← pageSize
  let unit ← granularity
  return Backend.posix ⟨size, unit⟩

/-- Chooses the backend for the running system.  Ranges are committed in pages, so a system
that does not tell its page size has none. -/
def chooseBackend : Act ArenaError σ Backend := do
  match OsFamily.running with
  | .error error => Act.fail (.host error)
  | .ok os =>
    let _ ← Act.mapError .host pageSize?
    let _ ← Act.mapError .host granularity?
    if os.isPosix then
      let backend ← Act.mapError Empty.elim posixBackend
      Act.emit (.backendSelected os backend)
      return backend
    else Act.fail (.unsupportedPlatform os.name)

/-- Chooses the backend and keeps it. -/
def learnBackend : Act ArenaError σ Backend := do
  let answer : Except ArenaError Backend ← Act.attempt chooseBackend
  Act.learn fun known => { known with backend := some answer }
  match answer with
  | .ok backend => pure backend
  | .error error => Act.fail error

/-- The backend of the running system, or why there is none. -/
def current : Act ArenaError σ Backend := do
  match (← Act.world).host.backend with
  | some (.ok backend) => pure backend
  | some (.error error) => Act.fail error
  | none => learnBackend

/-- The backend of the running system, with a report that the library is ready. -/
def init : Act ArenaError σ Backend := do
  let backend ← current
  Act.emit (.initialized backend)
  return backend

end Host

end PageArena
