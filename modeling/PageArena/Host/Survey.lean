/-
All questions about the host, asked once each on a machine where nothing was asked before.

The survey shows that the answers agree with each other: the page size is asked for once,
and every later question is answered from what was learned then.
-/
import PageArena.Host.Inquiry

namespace PageArena

namespace Host

/-- The answers to all questions about the host, in the order in which they are asked. -/
structure Survey where
  init : Except ArenaError Backend
  again : Except ArenaError Backend
  pageSize? : Except HostError Nat
  granularity? : Except HostError Nat
  pageSize : Nat
  granularity : Nat
  posix : Backend
  os : Except HostError OsFamily
  log : List Event

/-- The number of the operating system with which the page size could not be learned. -/
def Survey.osCode? (s : Survey) : Option Int :=
  match s.pageSize? with
  | .ok _ => none
  | .error error => error.osCode?

/-- Asks all questions. -/
def takeSurvey : Act Empty Unit Survey := do
  let first ← Act.attempt init
  let again ← Act.attempt current
  let size? ← Act.attempt pageSize?
  let unit? ← Act.attempt granularity?
  let size ← pageSize
  let unit ← granularity
  let posix ← posixBackend
  return { init := first, again := again, pageSize? := size?, granularity? := unit?,
           pageSize := size, granularity := unit, posix := posix, os := OsFamily.running,
           log := (← Act.world).log }

/-- The survey of a host that reports some page size, and some number if it reports -1. -/
def survey (pageSize pageErrno : Int) : Survey :=
  let w : World Unit := { Machine.reporting pageSize pageErrno with self := () }
  match (takeSurvey.run w).1 with
  | .ok survey => survey
  | .error impossible => nomatch impossible

end Host

end PageArena
