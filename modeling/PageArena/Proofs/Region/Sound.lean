/-
What is true of a region's bookkeeping between any two operations.

`Sound` is what the operations rely on.  Its heart is one chain: the commit boundary lies
within the reservation, the cursor below the boundary, and under the cursor the saved
cursors, each at most the one that was saved after it.  The operations check none of this.
Bringing the cursor back to the newest saved one can only lower it because of the chain, and
this is why the idle bytes of a rollback are a difference that never borrows.

`Paged` adds that both boundaries are whole pages, which needs a geometry whose units are
powers of two that fit into each other.  Nothing about spans depends on it, but every call
to the operating system does.
-/
import Mathlib
import PageArena.Proofs.Arithmetic
import PageArena.Region.Operations

namespace PageArena

/-- Units of memory that rounding understands and that fit into each other. -/
structure Geometry.Sound (g : Geometry) : Prop where
  page : Word.isPowerOfTwo g.pageSize = true
  unit : Word.isPowerOfTwo g.granularity = true
  /-- A reservation is a whole number of pages. -/
  fit : g.pageSize ∣ g.granularity

/-- Every geometry learned from a page size is sound. -/
theorem Geometry.sound_of_ofPageSize {reported : Int} {g : Geometry}
    (h : ofPageSize reported = .ok g) : g.Sound := by
  unfold ofPageSize at h
  split at h
  · rename_i hp
    obtain rfl := Except.ok.inj h
    exact ⟨hp.2, hp.2, Nat.dvd_refl _⟩
  · exact absurd h (by simp)

namespace Region

/-- The bookkeeping that every operation relies on and leaves behind. -/
structure Sound (r : Region) : Prop where
  tuned : r.tuning.validate = .ok ()
  total_pos : 0 < r.total
  committed_le : r.committed ≤ r.total
  cursor_le : r.cursor ≤ r.committed
  /-- No saved cursor lies above one that was saved after it, or above the cursor. -/
  chain : (r.cursor :: r.saved).Pairwise (· ≥ ·)
  /-- The end of a reservation is an address. -/
  addressable : ∀ base, r.phase = .reserved base → base + r.total < Word.limit
  /-- The address zero is no base. -/
  base_pos : ∀ base, r.phase = .reserved base → 0 < base
  /-- Nothing was taken before the first use. -/
  unused : r.phase = .unreserved → r.cursor = 0 ∧ r.committed = 0
  /-- Only a reservation has checkpoints. -/
  unheld : (∀ base, r.phase ≠ .reserved base) → r.saved = []

/-- The boundaries are whole pages. -/
structure Paged (r : Region) : Prop where
  geometry : r.backend.toGeometry.Sound
  total : r.backend.granularity ∣ r.total
  committed : r.backend.pageSize ∣ r.committed

/-- Bytes that may lie idle before pages are given back. -/
def thresholdBytes (r : Region) : Nat := r.tuning.thresholdPages * r.backend.pageSize

/-- Bytes that are given back at once. -/
def batchBytes (r : Region) : Nat := r.tuning.batchPages * r.backend.pageSize

/-- The region as a failed change of pages leaves it. -/
def abandoned (r : Region) : Region := { r with phase := .closed, saved := [] }

end Region

theorem RegionTuning.validate_ok_iff {t : RegionTuning} :
    t.validate = .ok () ↔
      0 < t.batchPages ∧ t.batchPages ≤ t.thresholdPages ∧ 0 < t.checkpointCapacity := by
  unfold validate
  split
  · simp; omega
  · split
    · simp; omega
    · split
      · simp; omega
      · simp; omega

namespace Region

namespace Sound

variable {r : Region} {base : Nat}

theorem batchBytes_le (ok : Sound r) : r.batchBytes ≤ r.thresholdBytes :=
  Nat.mul_le_mul_right _ (RegionTuning.validate_ok_iff.mp ok.tuned).2.1

/-- More than a batch lies idle if more than the threshold does. -/
theorem batchBytes_le_committed (ok : Sound r)
    (h : r.thresholdBytes < r.committed - r.cursor) : r.batchBytes ≤ r.committed := by
  have hbatch := ok.batchBytes_le
  omega

/-- The cursor stands at an address. -/
theorem here_lt (ok : Sound r) (hp : r.phase = .reserved base) :
    base + r.cursor < Word.limit := by
  have hend := ok.addressable base hp
  have hcommitted := ok.committed_le
  have hcursor := ok.cursor_le
  omega

/-- A region that has no reservation is not reserved. -/
theorem saved_nil (ok : Sound r) (h : r.phase = .unreserved ∨ r.phase = .closed) :
    r.saved = [] := by
  refine ok.unheld ?_
  intro base hb
  rcases h with h | h
  · rw [h] at hb; cases hb
  · rw [h] at hb; cases hb

/-- Taking the newest checkpoint off the stack and bringing the cursor back to it. -/
theorem popped (ok : Sound r) {cursor : Nat} {older : List Nat}
    (hs : r.saved = cursor :: older) :
    Sound { r with saved := older, cursor := cursor } := by
  have hchain := ok.chain
  rw [hs, List.pairwise_cons] at hchain
  obtain ⟨hle, htail⟩ := hchain
  have hcursor : cursor ≤ r.cursor := hle cursor (by simp)
  have hheld : ∃ base, r.phase = .reserved base := by
    by_contra hnone
    simp only [not_exists] at hnone
    rw [ok.unheld hnone] at hs
    cases hs
  obtain ⟨base, hb⟩ := hheld
  exact
    { tuned := ok.tuned
      total_pos := ok.total_pos
      committed_le := ok.committed_le
      cursor_le := Nat.le_trans hcursor ok.cursor_le
      chain := htail
      addressable := ok.addressable
      base_pos := ok.base_pos
      unused := fun h => by rw [hb] at h; cases h
      unheld := fun h => absurd hb (h base) }

end Sound

end Region

end PageArena
