/-
The operating system as the library sees it.

A kernel keeps time, answers the query for the page size, and serves the four calls of the
`mmap` family.  Any call can be made to fail: failures are queued, each for the next call of
its name, or for a later one when some calls are to pass first.  Where a mapping lands can
be queued as well; otherwise mappings are placed a fixed distance apart.

A kernel answers every call, writes it down, and keeps the number of the last failure, as
the calls report no more than that they failed.  Fresh mappings hold zeros.  Pages whose
contents are given up hold zeros again.  Nothing else ever changes what memory holds:
neither a change of protection nor the end of a mapping.
-/
import PageArena.Memory
import PageArena.OsCall
import PageArena.Word

namespace PageArena

/-- A failure in waiting: the call it strikes, the number it fails with, and how many such
calls pass before. -/
structure Kernel.Failure where
  call : OsCall
  errno : Int
  after : Nat
  deriving DecidableEq, Repr

/-- The state of the operating system. -/
structure Kernel where
  /-- The time, in nanoseconds from some start; it never runs back.  It stands still within an
  operation.  A region that gives pages back reads the time twice, once to see whether that is
  due and once to remember when it was done, and here both readings are one. -/
  clock : Nat := 0
  /-- What the query for the page size answers; -1 says that it failed. -/
  pageSize : Int := 4096
  /-- The number a failed query for the page size leaves. -/
  pageErrno : Int := 0
  /-- How often the page size was asked for. -/
  pageQueries : Nat := 0
  /-- The number of the last failure. -/
  errno : Int := 0
  /-- Failures in waiting, the oldest first. -/
  failures : List Kernel.Failure := []
  /-- Addresses at which the next mappings land. -/
  bases : List Nat := []
  /-- How many mappings have been placed without such an address. -/
  placed : Nat := 0
  /-- What the mappings hold. -/
  memory : Memory := Memory.zero
  /-- The calls made, in their order. -/
  calls : List OsCall.Record := []

namespace Kernel

/-- The largest mapping that is placed without being told where: two to the 40 bytes. -/
def placementLimit : Nat := 0x10000000000

/-- Where the `k`-th mapping lands that is placed without being told where; no two of them
can meet. -/
def defaultBase (k : Nat) : Nat := 0x100000000000 + k * placementLimit

/-- The number for memory that is not there. -/
def outOfMemory : Int := 12

/-- The address by which a failed mapping is told from a successful one. -/
def noMapping : Nat := Word.limit - 1

/-- The verdict on the next call of a name: the oldest failure in waiting for it strikes,
unless calls are to pass before, of which this one is then the first. -/
def strike (call : OsCall) : List Failure → Option Int × List Failure
  | [] => (none, [])
  | f :: rest =>
    if f.call = call then
      if 0 < f.after then (none, { f with after := f.after - 1 } :: rest)
      else (some f.errno, rest)
    else
      let (verdict, rest') := strike call rest
      (verdict, f :: rest')

/-- Writes a call down. -/
def record (k : Kernel) (call : OsCall.Record) : Kernel :=
  { k with calls := k.calls ++ [call] }

/-- Takes the verdict on the next call of a name. -/
def judge (k : Kernel) (call : OsCall) : Option Int × Kernel :=
  let (verdict, failures) := strike call k.failures
  (verdict, { k with failures := failures })

/-- Chooses the place of a mapping: a queued address if there is one, whatever the size,
else the next default place, if the mapping is not too large for it. -/
def place (k : Kernel) (length : Nat) : Option Nat × Kernel :=
  match k.bases with
  | base :: rest => (some base, { k with bases := rest })
  | [] =>
    if placementLimit < length then (none, k)
    else (some (defaultBase k.placed), { k with placed := k.placed + 1 })

/-- The call failed: it is written down with the number, which is kept. -/
def fail (k : Kernel) (errno : Int) (call : Int → OsCall.Record) : Kernel :=
  { k.record (call (-errno)) with errno := errno }

/-- Maps fresh memory without access.  Answers the address, or nothing if that failed.  A
mapping placed at the very address that stands for a failure reads as one. -/
def mmap (k : Kernel) (length : Nat) : Option Nat × Kernel :=
  match k.judge .mmap with
  | (some errno, k) => (none, k.fail errno (.mmap length))
  | (none, k) =>
    match k.place length with
    | (none, k) => (none, k.fail outOfMemory (.mmap length))
    | (some base, k) =>
      let k := k.record (.mmap length base)
      let k := { k with memory := k.memory.fill base length 0 }
      (if base = noMapping then none else some base, k)

/-- Sets the protection of a range of pages.  Answers whether that succeeded. -/
def mprotect (k : Kernel) (address length : Nat) (protection : OsCall.Protection) :
    Bool × Kernel :=
  match k.judge .mprotect with
  | (some errno, k) => (false, k.fail errno (.mprotect address length protection))
  | (none, k) => (true, k.record (.mprotect address length protection 0))

/-- Gives up the contents of a range of pages.  Answers whether that succeeded. -/
def madvise (k : Kernel) (address length : Nat) : Bool × Kernel :=
  match k.judge .madvise with
  | (some errno, k) => (false, k.fail errno (.madvise address length))
  | (none, k) =>
    let k := k.record (.madvise address length 0)
    (true, { k with memory := k.memory.fill address length 0 })

/-- Ends a mapping.  Answers whether that succeeded. -/
def munmap (k : Kernel) (address length : Nat) : Bool × Kernel :=
  match k.judge .munmap with
  | (some errno, k) => (false, k.fail errno (.munmap address length))
  | (none, k) => (true, k.record (.munmap address length 0))

/-- Asks for the page size. -/
def reportPageSize (k : Kernel) : Int × Kernel :=
  let errno := if k.pageSize = -1 then k.pageErrno else k.errno
  (k.pageSize, { k with errno := errno, pageQueries := k.pageQueries + 1 })

/-! ### What happens from outside -/

/-- Time passes. -/
def advance (k : Kernel) (time : Nat) : Kernel :=
  { k with clock := k.clock + time }

/-- A failure is queued. -/
def schedule (k : Kernel) (failure : Failure) : Kernel :=
  { k with failures := k.failures ++ [failure] }

/-- An address is queued for the next mapping that is placed. -/
def queueBase (k : Kernel) (address : Nat) : Kernel :=
  { k with bases := k.bases ++ [address] }

end Kernel

end PageArena
