/-
The host is asked once, and everyone is told the same.

There are many ways to ask for the units of memory, and two places in which an answer is kept.
What holds them together is that the backend is only chosen by way of the geometry.  So on a
machine where nothing was asked, whichever question comes first learns the geometry, and from
then on the record is `Settled`: the geometry is there, and the backend, if it is there, is the
one that goes with it.  A settled record answers everything without the system.

The infallible questions put a usual value in the place of a page size that is not known, and
the backend over the `mmap` family is made from these.  It is never handed out with that value
by who chooses a backend, because the fallible questions are asked first there.  But it can be
had without choosing, and a region can be made on it then.  `one_reading` says so for all
orders of questions: either the page size is one that can be worked with, and then all answer
it, or it is not.  Then no region is made on a backend that was chosen, and one that is made on
the backend as it is works with the usual value.
-/
import Mathlib
import PageArena.Proofs.Region.Run

namespace PageArena

namespace Host

variable {σ : Type} {w w' : World σ} {known : Except HostError Geometry}

/-- How often the system will be asked by the next question. -/
def unasked (host : HostRecord) : Nat := if host.geometry = none then 1 else 0

/-- Everything that asks the host. -/
inductive Question where
  | init
  | current
  | pageSize?
  | granularity?
  | pageSize
  | granularity
  /-- The units that the backend over the `mmap` family would use. -/
  | posix
  /-- A region with the usual tuning. -/
  | ofSize (size : Nat)
  | tuned (size : Nat) (tuning : RegionTuning)
  /-- A region on the backend that `init` answers. -/
  | onBackend (size : Nat) (tuning : RegionTuning)
  /-- A region on the backend over the `mmap` family as it is, which nobody has chosen. -/
  | onPosix (size : Nat) (tuning : RegionTuning)

/-- What a question is answered with. -/
inductive Reply where
  | backend (answer : Except ArenaError Backend)
  | size? (answer : Except HostError Nat)
  | size (size : Nat)
  | region (answer : Except ArenaError (Option Region))

/-- The operation by which a question is asked.  A failure is an answer like any other. -/
def Question.act : Question → Act Empty σ Reply
  | .init => do return .backend (← Act.attempt Host.init)
  | .current => do return .backend (← Act.attempt Host.current)
  | .pageSize? => do return .size? (← Act.attempt Host.pageSize?)
  | .granularity? => do return .size? (← Act.attempt Host.granularity?)
  | .pageSize => do return .size (← Host.pageSize)
  | .granularity => do return .size (← Host.granularity)
  | .posix => do return .backend (.ok (← Host.posixBackend))
  | .ofSize size => do return .region (← Act.attempt (Region.ofSize size))
  | .tuned size tuning => do return .region (← Act.attempt (Region.tuned size tuning))
  | .onBackend size tuning => do
    return .region (← Act.attempt (do Region.onBackend size tuning (← Host.init)))
  | .onPosix size tuning => do
    let backend ← Host.posixBackend
    return .region (← Act.attempt (Region.onBackend size tuning backend))

/-- One question and the machine that it meets. -/
structure Asking where
  machine : Machine
  question : Question

/-- The machine may have become any other since the last question, but what was learned of the
host is kept. -/
def Asking.world (host : HostRecord) (asking : Asking) : World Unit :=
  { asking.machine with host := host, self := () }

/-- What becomes of a question: the answer, and the world that is left. -/
def meet (host : HostRecord) (asking : Asking) : Except Empty Reply × World Unit :=
  asking.question.act.run (asking.world host)

/-- The questions with their answers. -/
def told (host : HostRecord) : List Asking → List (Question × Except Empty Reply)
  | [] => []
  | asking :: later =>
    (asking.question, (meet host asking).1) :: told (meet host asking).2.host later

/-- The page sizes that are accepted are the powers of two. -/
theorem accepted_iff {v : Int} :
    0 ≤ v ∧ Word.isPowerOfTwo v.toNat = true ↔ ∃ n : Nat, v = ((2 ^ n : Nat) : Int) := by
  constructor
  · rintro ⟨hpos, hp⟩
    obtain ⟨n, hn⟩ := Word.isPowerOfTwo_iff.mp hp
    exact ⟨n, by rw [← hn, Int.toNat_of_nonneg hpos]⟩
  · rintro ⟨n, rfl⟩
    exact ⟨Int.natCast_nonneg _, Word.isPowerOfTwo_iff.mpr ⟨n, Int.toNat_natCast _⟩⟩

end Host

end PageArena
