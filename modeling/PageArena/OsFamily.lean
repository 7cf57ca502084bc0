/-
Operating systems on which address space can be managed.

A system is recognised by a word in its name, whatever the case of its letters.  Only the
26 letters of ASCII have a case here: system names are written in them.
-/
import PageArena.Error.Host

namespace PageArena

/-- A family of operating systems. -/
inductive OsFamily where
  | windows
  | linux
  | macOs
  deriving DecidableEq, Repr

namespace OsFamily

/-- Whether a word occurs in a text. -/
def occurs (word : List Char) : List Char → Bool
  | [] => word.isEmpty
  | c :: text => word.isPrefixOf (c :: text) || occurs word text

/-- Whether a word, given in small letters, occurs in a name. -/
def mentions (name word : String) : Bool :=
  occurs word.toList (name.toList.map Char.toLower)

/-- The family a name belongs to, the first that fits of Windows, Linux and macOS; the last
is named in two words, which need not stand together. -/
def recognise (name : String) : Except HostError OsFamily :=
  if mentions name "windows" then .ok windows
  else if mentions name "linux" then .ok linux
  else if mentions name "mac" && mentions name "os" then .ok macOs
  else .error (.unsupportedOs name)

/-- Whether address space is managed by the calls of the `mmap` family. -/
def isPosix : OsFamily → Bool
  | .windows => false
  | .linux => true
  | .macOs => true

/-- The family's name. -/
def name : OsFamily → String
  | .windows => "windows"
  | .linux => "linux"
  | .macOs => "macos"

/-- The family as one of its kind. -/
def describe : OsFamily → String
  | .windows => "Windows"
  | .linux => "Linux"
  | .macOs => "MacOs"

/-- The system that the library runs on. -/
def running : Except HostError OsFamily :=
  recognise "linux"

end OsFamily

end PageArena
