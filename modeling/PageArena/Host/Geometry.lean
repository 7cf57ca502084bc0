/-
The page geometry of the host and the backend that works in it.

A page size is accepted if it is a positive power of two.  `ofPageSize` is the only way
from the number a system reports to a geometry, so every backend works with pages that
rounding understands.
-/
import PageArena.Error.Host
import PageArena.Word

namespace PageArena

/-- The units in which address space is handed out. -/
structure Geometry where
  /-- The unit of making memory accessible and taking it away again. -/
  pageSize : Nat
  /-- The unit in which address space is reserved. -/
  granularity : Nat
  deriving DecidableEq, Repr

namespace Geometry

/-- The query by which a POSIX system is asked for its page size. -/
def query : String := "sysconf(_SC_PAGESIZE)"

/-- The page size that stands in for one that could not be learned. -/
def fallback : Nat := 4096

/-- The geometry that a reported page size means; address space is reserved in pages. -/
def ofPageSize (reported : Int) : Except HostError Geometry :=
  if 0 ≤ reported ∧ Word.isPowerOfTwo reported.toNat then
    .ok ⟨reported.toNat, reported.toNat⟩
  else .error (.platform s!"{query} reported page size {reported}" none)

end Geometry

/-- A way to manage address space, with the units it works in. -/
structure Backend extends Geometry where
  name : String
  deriving DecidableEq, Repr

namespace Backend

/-- The backend over the `mmap` family. -/
def posix (g : Geometry) : Backend :=
  { g with name := "posix" }

end Backend

end PageArena
