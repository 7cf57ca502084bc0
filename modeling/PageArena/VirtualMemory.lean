/-
Managing address space.

Address space is reserved without access, made accessible page by page, made inaccessible
again, and released as a whole.  Each is one call to the operating system, except that
taking pages away is two: their protection goes first, then their contents.  A call that
fails is an error with its name and number.
-/
import PageArena.World

namespace PageArena

namespace VirtualMemory

variable {σ : Type}

/-- Reserves address space.  The address zero cannot be used, so a reservation that is
placed there counts as failed. -/
def reserve (size : Nat) : Act ArenaError σ Nat := do
  match ← Act.kernel (Kernel.mmap · size) with
  | none => Act.raiseErrno .mmap
  | some base =>
    if base = 0 then Act.raise (.osFailure OsCall.mmap 0) else return base

/-- Makes a range of reserved pages readable and writable. -/
def commit (address length : Nat) : Act ArenaError σ Unit := do
  if ← Act.kernel (Kernel.mprotect · address length .readWrite) then return ()
  else Act.raiseErrno .mprotect

/-- Makes a range of pages inaccessible and gives up what they hold. -/
def uncommit (address length : Nat) : Act ArenaError σ Unit := do
  if ← Act.kernel (Kernel.mprotect · address length .noAccess) then
    if ← Act.kernel (Kernel.madvise · address length) then return ()
    else Act.raiseErrno .madvise
  else Act.raiseErrno .mprotect

/-- Releases a reservation. -/
def release (address length : Nat) : Act ArenaError σ Unit := do
  if ← Act.kernel (Kernel.munmap · address length) then return ()
  else Act.raiseErrno .munmap

end VirtualMemory

end PageArena
