/-
Binding a region to the thread.

Entering a scope binds a region and keeps what was bound before in a guard; leaving the
scope binds that again.  Guards that are left in the reverse order of their making so
restore every earlier binding in turn.
-/

namespace PageArena

/-- The name of a region among those of a thread. -/
abbrev RegionId := Nat

/-- What a scope found when it was entered. -/
structure Guard where
  previous : Option RegionId
  deriving DecidableEq, Repr

namespace Guard

/-- Enters a scope: the guard that remembers what was bound, and the new binding. -/
def enter (bound : Option RegionId) (region : RegionId) : Guard × Option RegionId :=
  (⟨bound⟩, some region)

/-- The binding once the scope is left. -/
def restored (guard : Guard) : Option RegionId := guard.previous

end Guard

end PageArena
