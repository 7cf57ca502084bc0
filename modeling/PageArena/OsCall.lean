/-
The four calls by which address space is managed, and the record of one being made.

A record keeps the arguments that vary and the answer.  What never varies — a fresh mapping
has no access, is private and anonymous, has no file behind it, and the kernel chooses its
place — is added by `Record.row`, which writes the call out as the kernel sees it.
-/

namespace PageArena

/-- A call of the `mmap` family. -/
inductive OsCall where
  | mmap
  | mprotect
  | madvise
  | munmap
  deriving DecidableEq, Repr

namespace OsCall

/-- The name under which the call is known. -/
def name : OsCall → String
  | .mmap => "mmap"
  | .mprotect => "mprotect"
  | .madvise => "madvise"
  | .munmap => "munmap"

/-- The call of that name. -/
def ofName? (name : String) : Option OsCall :=
  [mmap, mprotect, madvise, munmap].find? (·.name == name)

/-- The access that a range of pages allows. -/
inductive Protection where
  | noAccess
  | readWrite
  deriving DecidableEq, Repr

/-- The bits of a protection: reading is 1, writing is 2. -/
def Protection.bits : Protection → Int
  | .noAccess => 0
  | .readWrite => 3

/-- One call that was made: its arguments and what it answered.  A failed call answers with
its error number, negated; a successful one with zero, or with the address of the mapping. -/
inductive Record where
  | mmap (length : Nat) (result : Int)
  | mprotect (address length : Nat) (protection : Protection) (result : Int)
  | madvise (address length : Nat) (result : Int)
  | munmap (address length : Nat) (result : Int)
  deriving DecidableEq, Repr

namespace Record

/-- Which call was made. -/
def call : Record → OsCall
  | .mmap .. => .mmap
  | .mprotect .. => .mprotect
  | .madvise .. => .madvise
  | .munmap .. => .munmap

/-- Private (2) and anonymous (32). -/
def mappingFlags : Int := 34

/-- The advice that the contents of a range are no longer needed. -/
def dontNeed : Int := 4

/-- All arguments of the call in their order, and the answer. -/
def row : Record → List Int
  | .mmap length result => [length, Protection.noAccess.bits, mappingFlags, -1, 0, result]
  | .mprotect address length protection result => [address, length, protection.bits, result]
  | .madvise address length result => [address, length, dontNeed, result]
  | .munmap address length result => [address, length, result]

end Record

end OsCall

end PageArena
