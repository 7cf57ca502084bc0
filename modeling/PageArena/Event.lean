/-
What the library reports while it works.

An event is a fact with its numbers.  How it is written into a log — its level, the part of
the library it belongs to, its sentence and its fields in order — follows from the fact, so
an operation only ever says what happened.

An error that points at a defect is reported when it arises: `ofError?` says which errors
those are.  An error that a caller may well provoke on purpose, such as a slice that does
not fit, is answered and not reported.
-/
import PageArena.Error.Arena
import PageArena.Host.Geometry
import PageArena.OsFamily
import PageArena.Raw.Allocation

namespace PageArena

/-- How much an event matters. -/
inductive Level where
  | trace
  | debug
  | info
  | warn
  | error
  deriving DecidableEq, Repr

/-- The level's name. -/
def Level.name : Level → String
  | .trace => "TRACE"
  | .debug => "DEBUG"
  | .info => "INFO"
  | .warn => "WARN"
  | .error => "ERROR"

/-- Something that happened. -/
inductive Event where
  | allocationFailed (size align : Nat)
  | overflowed (operation : Cause Arithmetic)
  | misused (why : Cause StateFault)
  | osFailed (call : Cause OsCall) (code : Int)
  | osUnsupported (name : String)
  | alignmentRejected (align : Nat)
  | geometryUnknown (error : HostError)
  | backendSelected (os : OsFamily) (backend : Backend)
  | initialized (backend : Backend)
  | reserved (base size : Nat) (backend : String)
  | committed (start stop : Nat)
  | decommitted (bytes committed : Nat)
  | rolledBack (index start stop : Nat)
  | releasing (base size committed : Nat)
  | releaseFailedAfterFailure (error : ArenaError)
  | regionDropped (size : Nat)
  | releaseFailedOnDrop (error : ArenaError)
  | heapAllocated (size align : Nat) (kind : Primitive)
  | heapDropped (allocations : Nat)
  | rollbackFailedOnDrop (error : ArenaError)
  deriving DecidableEq, Repr

namespace Event

/-- The report of an error that points at a defect. -/
def ofError? : ArenaError → Option Event
  | .allocationFailed size align => some (.allocationFailed size align)
  | .sizeOverflow operation => some (.overflowed operation)
  | .invalidState why => some (.misused why)
  | .osFailure call code => some (.osFailed call code)
  | _ => none

/-- The report of an error of the host: only a system that is not supported is one. -/
def ofHostError? : HostError → Option Event
  | .unsupportedOs name => some (.osUnsupported name)
  | _ => none

/-- What is reported when an error is made, by the library or by the host beneath it. -/
def announced : ArenaError → List Event
  | .host error => (ofHostError? error).toList
  | error => (ofError? error).toList

/-- How much the event matters. -/
def level : Event → Level
  | .allocationFailed .. | .overflowed .. | .misused .. | .osFailed .. => .error
  | .osUnsupported .. | .alignmentRejected .. => .error
  | .geometryUnknown .. | .releaseFailedAfterFailure .. => .warn
  | .regionDropped .. | .releaseFailedOnDrop .. => .warn
  | .heapDropped .. | .rollbackFailedOnDrop .. => .warn
  | .decommitted .. => .info
  | .backendSelected .. | .initialized .. | .reserved .. => .debug
  | .committed .. | .rolledBack .. | .releasing .. => .debug
  | .heapAllocated .. => .trace

/-- The part of the library that the event belongs to. -/
def target : Event → String
  | .allocationFailed .. | .overflowed .. | .misused .. | .osFailed .. =>
    "vmarena_memory::error"
  | .osUnsupported .. => "vmarena_system::error"
  | .alignmentRejected .. => "vmarena_system::raw"
  | .geometryUnknown .. => "vmarena_system::page"
  | .backendSelected .. => "vmarena_memory::platform"
  | .initialized .. => "vmarena_memory"
  | .reserved .. | .committed .. | .decommitted .. | .rolledBack .. | .releasing .. =>
    "vmarena_memory::region"
  | .releaseFailedAfterFailure .. | .regionDropped .. | .releaseFailedOnDrop .. =>
    "vmarena_memory::region"
  | .heapAllocated .. | .heapDropped .. => "vmarena_memory::allocator::heap"
  | .rollbackFailedOnDrop .. => "vmarena_memory::allocator::pool"

/-- The event in a sentence without its numbers. -/
def message : Event → String
  | .allocationFailed .. => "memory allocation failed"
  | .overflowed .. => "address arithmetic overflowed"
  | .misused .. => "invalid allocator state"
  | .osFailed .. => "OS memory operation failed"
  | .osUnsupported .. => "unsupported operating system"
  | .alignmentRejected .. => "rejected non power-of-two alignment"
  | .geometryUnknown .. => "page size query failed"
  | .backendSelected .. => "selected virtual memory backend"
  | .initialized .. => "vmarena-memory initialized"
  | .reserved .. => "reserved region"
  | .committed .. => "committed region pages"
  | .decommitted .. => "decommitted idle region pages"
  | .rolledBack .. => "region rollback"
  | .releasing .. => "releasing region"
  | .releaseFailedAfterFailure .. => "failed to release region after OS failure"
  | .regionDropped .. => "region dropped without close, releasing"
  | .releaseFailedOnDrop .. => "best-effort region release failed"
  | .heapAllocated .. => "heap allocation"
  | .heapDropped .. => "heap allocator dropped without close, releasing"
  | .rollbackFailedOnDrop .. => "pool allocator rollback on drop failed"

/-- An address in hexadecimal. -/
def pointer (address : Nat) : String :=
  "0x" ++ String.ofList (Nat.toDigits 16 address)

/-- The numbers and names of the event, in order. -/
def fields : Event → List (String × String)
  | .allocationFailed size align => [("size", toString size), ("align", toString align)]
  | .overflowed operation => [("operation", operation.words)]
  | .misused why => [("reason", why.words)]
  | .osFailed call code => [("operation", call.words), ("code", toString code)]
  | .osUnsupported name => [("os", name)]
  | .alignmentRejected align => [("align", toString align)]
  | .geometryUnknown error =>
    [("error", error.message), ("fallback", toString Geometry.fallback)]
  | .backendSelected os backend =>
    [("os", os.name), ("backend", backend.name), ("page_size", toString backend.pageSize),
     ("granularity", toString backend.granularity)]
  | .initialized backend =>
    [("backend", backend.name), ("page_size", toString backend.pageSize),
     ("granularity", toString backend.granularity)]
  | .reserved base size backend =>
    [("base", pointer base), ("size", toString size), ("backend", backend)]
  | .committed start stop => [("from", toString start), ("to", toString stop)]
  | .decommitted bytes rest =>
    [("bytes", toString bytes), ("committed", toString rest)]
  | .rolledBack index start stop =>
    [("index", toString index), ("from", toString start), ("to", toString stop)]
  | .releasing base size accessible =>
    [("base", pointer base), ("size", toString size), ("committed", toString accessible)]
  | .releaseFailedAfterFailure error => [("error", error.message)]
  | .regionDropped size => [("size", toString size)]
  | .releaseFailedOnDrop error => [("error", error.message)]
  | .heapAllocated size align kind =>
    [("size", toString size), ("align", toString align), ("kind", kind.describe)]
  | .heapDropped allocations => [("allocations", toString allocations)]
  | .rollbackFailedOnDrop error => [("error", error.message)]

end Event

end PageArena
