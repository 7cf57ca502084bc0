/-
Running a session.

A session starts on a machine where the library was already asked to get ready, and where
nothing has been reserved.  It answers each step with its outcome and with everything that
happened during it: the calls to the operating system, the calls on the watched backend,
and the events.  At the end everything that is still held is dropped, and what happens then
is answered as well.
-/
import PageArena.Session.Perform

namespace PageArena

namespace Session

/-- The world at the start of a session. -/
def start (pageSize pageErrno : Int) : World Session :=
  let w : World Session := { Machine.reporting pageSize pageErrno with self := {} }
  { (Host.init.run w).2 with log := [] }

/-- The world with nothing in its records. -/
def clear (w : World Session) : World Session :=
  { w with
    log := []
    kernel := { w.kernel with calls := [] }
    observer := { w.observer with calls := [] } }

/-- The region that a step is about: the one it names, or the one beneath the pool that it
names. -/
def subject (s : Session) (step : Step) : Option RegionId :=
  match step.namesRegion with
  | some r => (s.named? r).map fun _ => r
  | none =>
    match step.namesAllocator with
    | some a => (s.allocators.find? a).bind (·.strategy.region?)
    | none => none

/-- Carries out a step; if it fails, the number of what it would have made is used up. -/
def outcome (step : Step) (w : World Session) : Except Failure Value × World Session :=
  match (perform step).run w, step.makes with
  | (.error failure, w), some kind =>
    (.error failure, ((skip kind : Act Empty Session Nat).run w).2)
  | result, _ => result

/-- Carries out a step and answers it. -/
def answer (step : Step) (w : World Session) : Answer × World Session :=
  let about := subject w.self step
  let (outcome, w) := outcome step (clear w)
  ({ outcome := outcome
     state := about.bind fun id => (w.self.region? id).map Region.snapshot
     calls := w.kernel.calls
     raw := w.observer.calls
     log := w.log }, w)

/-- Carries out steps one after another. -/
def run : List Step → World Session → List Answer × World Session
  | [], w => ([], w)
  | step :: rest, w =>
    let (first, w) := answer step w
    let (others, w) := run rest w
    (first :: others, w)

/-- Drops everything that is still held. -/
def finish (w : World Session) : World Session :=
  ((dropAll : Act Empty Session Unit).run (clear w)).2

end Session

end PageArena
