/-
Causes of errors.

Where the library itself finds fault, the cause is one of a few it knows, each with its
wording.  A caller may raise the same error for a reason of its own, and then states it in
words.  `Cause` holds either.
-/

namespace PageArena

/-- Causes that have a wording. -/
class Worded (κ : Type) where
  words : κ → String

/-- A cause the library knows, or one that a caller stated in words. -/
inductive Cause (κ : Type) where
  | known (cause : κ)
  | stated (words : String)
  deriving DecidableEq, Repr

namespace Cause

/-- The wording of the cause. -/
def words {κ : Type} [Worded κ] : Cause κ → String
  | .known cause => Worded.words cause
  | .stated words => words

instance {κ : Type} : Coe κ (Cause κ) := ⟨.known⟩

end Cause

end PageArena
