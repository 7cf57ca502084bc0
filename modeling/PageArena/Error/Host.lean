/-
What goes wrong at the host: in asking the operating system about itself, and in calls of
the raw memory surface.
-/
import PageArena.Errno
import PageArena.Text.Form
import PageArena.Text.Quoted

namespace PageArena

/-- An error of a query to the host or of a raw memory call. -/
inductive HostError where
  /-- The operating system is none that address space can be managed on. -/
  | unsupportedOs (name : String)
  /-- A query failed; the number is there if the operating system gave one. -/
  | platform (message : String) (code : Option Int)
  /-- A raw allocation was refused. -/
  | allocationFailed (size align : Nat)
  /-- An alignment is no power of two. -/
  | invalidAlignment (align : Nat)
  deriving DecidableEq, Repr

namespace HostError

/-- A query that failed with an error number of the operating system. -/
def ofErrno (query : String) (code : Int) : HostError :=
  .platform (query ++ ": " ++ Errno.described code) (some code)

/-- The error's category. -/
def code : HostError → String
  | .unsupportedOs _ => "SYS:UNSUPPORTED_OS"
  | .platform _ _ => "SYS:PLATFORM"
  | .allocationFailed _ _ => "SYS:ALLOC_FAILED"
  | .invalidAlignment _ => "SYS:INVALID_ALIGN"

/-- The error in a sentence. -/
def message : HostError → String
  | .unsupportedOs name => "Unsupported operating system: " ++ name
  | .platform text _ => "Platform error: " ++ text
  | .allocationFailed size align => s!"Raw allocation of {size} bytes (align {align}) failed"
  | .invalidAlignment align => s!"Invalid alignment: {align}"

/-- The operating system's error number, if the error carries one. -/
def osCode? : HostError → Option Int
  | .platform _ code => code
  | _ => none

/-- The error written out with its parts. -/
def describe (e : HostError) : String :=
  match e with
  | .unsupportedOs name =>
    Text.record .compact "UnsupportedOs" [("os", Text.quoted name)] false
  | .platform text code =>
    Text.record .compact "PlatformError"
      [("message", Text.quoted text),
       ("code", Text.optional .compact (code.map toString))] false
  | .allocationFailed size align =>
    Text.record .compact "AllocationFailed"
      [("size", toString size), ("align", toString align)] false
  | .invalidAlignment align =>
    Text.record .compact "InvalidAlignment" [("alignment", toString align)] false

end HostError

end PageArena
