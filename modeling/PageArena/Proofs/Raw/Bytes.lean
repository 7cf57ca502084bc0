/-
Moving bytes, and copying them.

A move writes what its source held before, wherever the target lies.  A machine does it a byte
at a time, and so it must not write a byte that it has still to read.  `carry` is such a run,
with the offsets in an order of its own.  What decides is whether an offset is written before
another is read at the same address (`carry_byteAt`).  From the lowest offset up this never
happens to a target below the source, from the highest down never to one above it, and in no
order at all if the ranges lie apart.

So a copy, which may take its bytes in any order, is a move as long as the ranges share no
byte.  They share none exactly if their starts are at least their length apart, which is what
a copy asserts before it begins.  `copy_is_guarded_move` puts this together, for a library in
which assertions are on.
-/
import Mathlib
import PageArena.Proofs.World
import PageArena.Raw.Buffers

namespace PageArena

namespace Memory

variable {m m₁ m₂ : Memory} {target source length : Nat} {offsets : List Nat}

/-- Memory is what its addresses hold. -/
theorem eq_of_byteAt (h : ∀ a, m₁.byteAt a = m₂.byteAt a) : m₁ = m₂ :=
  congrArg Memory.mk (funext h)

/-- `m'` is `m` with the bytes of one range in another, as they were before. -/
structure Moved (m m' : Memory) (target source length : Nat) : Prop where
  bytes : ∀ k < length, m'.byteAt (target + k) = m.byteAt (source + k)
  rest : ∀ a, (∀ k < length, a ≠ target + k) → m'.byteAt a = m.byteAt a

/-- There is one memory that a move can leave. -/
theorem Moved.unique (first : Moved m m₁ target source length)
    (second : Moved m m₂ target source length) : m₁ = m₂ := by
  refine eq_of_byteAt fun a => ?_
  by_cases h : ∃ k < length, a = target + k
  · obtain ⟨k, hk, rfl⟩ := h
    rw [first.bytes k hk, second.bytes k hk]
  · have outside : ∀ k < length, a ≠ target + k := fun k hk ha => h ⟨k, hk, ha⟩
    rw [first.rest a outside, second.rest a outside]

theorem transfer_moved (m : Memory) (target source length : Nat) :
    Moved m (m.transfer target source length) target source length where
  bytes k hk := by rw [transfer_byteAt, if_pos (by omega), Nat.add_sub_cancel_left]
  rest a outside := by
    refine (transfer_byteAt m target source length a).trans (if_neg ?_)
    rintro ⟨hle, hlt⟩
    exact outside (a - target) (by omega) (by omega)

/-! ### A byte at a time -/

/-- Moves the bytes at some offsets, one after another. -/
def carry (m : Memory) (target source : Nat) (offsets : List Nat) : Memory :=
  offsets.foldl (fun m k => m.transfer (target + k) (source + k) 1) m

/-- As long as no byte is read where one was written before, every byte that is read is one of
the memory before. -/
theorem carry_byteAt (unspoilt : offsets.Pairwise fun j k => target + j ≠ source + k)
    (m : Memory) (a : Nat) :
    (m.carry target source offsets).byteAt a
      = if target ≤ a ∧ a - target ∈ offsets then m.byteAt (source + (a - target))
        else m.byteAt a := by
  induction offsets generalizing m with
  | nil => simp [carry]
  | cons j later ih =>
      obtain ⟨first, unspoilt⟩ := List.pairwise_cons.mp unspoilt
      have hnext := ih unspoilt (m.transfer (target + j) (source + j) 1)
      rw [show m.carry target source (j :: later)
        = (m.transfer (target + j) (source + j) 1).carry target source later from rfl, hnext]
      by_cases hlater : target ≤ a ∧ a - target ∈ later
      · have hread : source + (a - target) ≠ target + j := (first _ hlater.2).symm
        rw [if_pos hlater, if_pos ⟨hlater.1, List.mem_cons_of_mem _ hlater.2⟩, transfer_byteAt,
          if_neg (by omega)]
      · rw [if_neg hlater, transfer_byteAt]
        by_cases hj : a = target + j
        · subst hj
          rw [if_pos (by omega), if_pos ⟨by omega, by simp⟩, Nat.sub_self, Nat.add_zero,
            Nat.add_sub_cancel_left]
        · have hother : ¬ (target ≤ a ∧ a - target ∈ j :: later) := by
            rintro ⟨hle, hmem⟩
            rcases List.mem_cons.mp hmem with heq | hmem
            · omega
            · exact hlater ⟨hle, hmem⟩
          rw [if_neg (by omega), if_neg hother]

/-- A run over all offsets that spoils nothing is a move. -/
theorem carry_moved (all : ∀ k, k ∈ offsets ↔ k < length)
    (unspoilt : offsets.Pairwise fun j k => target + j ≠ source + k) (m : Memory) :
    Moved m (m.carry target source offsets) target source length where
  bytes k hk := by
    rw [carry_byteAt unspoilt, Nat.add_sub_cancel_left,
      if_pos ⟨Nat.le_add_right _ _, (all k).mpr hk⟩]
  rest a outside := by
    refine (carry_byteAt unspoilt m a).trans (if_neg ?_)
    rintro ⟨hle, hmem⟩
    exact outside (a - target) ((all _).mp hmem) (by omega)

/-- From the lowest offset up, a target below its source is ahead of what is read. -/
theorem carry_ascending (h : target ≤ source) (m : Memory) (length : Nat) :
    Moved m (m.carry target source (List.range length)) target source length := by
  refine carry_moved (fun k => List.mem_range) ?_ m
  refine List.pairwise_lt_range.imp ?_
  intro j k hjk
  omega

/-- From the highest offset down, a target above its source is behind what is read. -/
theorem carry_descending (h : source ≤ target) (m : Memory) (length : Nat) :
    Moved m (m.carry target source (List.range length).reverse) target source length := by
  refine carry_moved (by simp) ?_ m
  refine List.pairwise_reverse.mpr (List.pairwise_lt_range.imp ?_)
  intro j k hjk
  omega

end Memory

namespace RawBytes

open Buffers (Place locate perform)
open Memory (Moved)

variable {target source length : Nat}

/-- Whether two ranges of one length share a byte. -/
def Overlap (a b length : Nat) : Prop :=
  ∃ address, (a ≤ address ∧ address < a + length) ∧ b ≤ address ∧ address < b + length

/-- Ranges share a byte exactly if their starts are closer together than their length. -/
theorem overlap_iff : Overlap target source length ↔ distance target source < length := by
  unfold distance
  constructor
  · rintro ⟨address, htarget, hsource⟩
    omega
  · intro h
    exact ⟨max target source, by omega, by omega⟩

instance : Decidable (Overlap target source length) :=
  decidable_of_iff _ overlap_iff.symm

/-- A byte that is shared is one of a range that has some. -/
theorem Overlap.length_pos (h : Overlap target source length) : 0 < length := by
  obtain ⟨address, ⟨hlow, hhigh⟩, -⟩ := h
  omega

theorem copy?_eq (m : Memory) (target source length : Nat) :
    copy? m target source length
      = if Overlap target source length then none else some (move m target source length) := by
  unfold copy?
  by_cases h : Overlap target source length
  · rw [if_pos h, if_neg (Nat.not_le.mpr (overlap_iff.mp h))]
  · rw [if_neg h, if_pos (Nat.not_lt.mp (mt overlap_iff.mpr h))]

/-- A way of writing one range over another that may be relied on if they share no byte. -/
def CopiesApart (write : Memory → Nat → Nat → Nat → Memory) : Prop :=
  ∀ m target source length, ¬ Overlap target source length →
    Moved m (write m target source length) target source length

/-- A copy that looks at the ranges and then leaves the writing to some such way. -/
def copyBy? (write : Memory → Nat → Nat → Nat → Memory) (m : Memory)
    (target source length : Nat) : Option Memory :=
  if length ≤ distance target source then some (write m target source length) else none

/-- Behind the look at the ranges all such ways are one. -/
theorem copyBy?_eq_copy? {write : Memory → Nat → Nat → Nat → Memory} (relied : CopiesApart write)
    (m : Memory) (target source length : Nat) :
    copyBy? write m target source length = copy? m target source length := by
  unfold copyBy? copy?
  by_cases h : length ≤ distance target source
  · have apart : ¬ Overlap target source length := fun hover =>
      Nat.not_lt.mpr h (overlap_iff.mp hover)
    rw [if_pos h, if_pos h]
    exact congrArg some ((relied m target source length apart).unique
      (Memory.transfer_moved m target source length))
  · rw [if_neg h, if_neg h]

/-- Between ranges that share no byte the bytes can be carried in any order. -/
theorem copiesApart_carry (order : Nat → List Nat)
    (all : ∀ length k, k ∈ order length ↔ k < length) :
    CopiesApart fun m target source length => m.carry target source (order length) := by
  intro m target source length apart
  refine Memory.carry_moved (all length) ?_ m
  refine List.pairwise_iff_forall_sublist.mpr ?_
  intro j k hsub hread
  have hj := (all length j).mp (hsub.subset (by simp))
  have hk := (all length k).mp (hsub.subset (by simp))
  exact apart ⟨target + j, by omega, by omega⟩

/-! ### Moving and copying between buffers -/

/-- The world after a move of bytes in the heap. -/
def movedIn (w : World Buffers) (target source length : Nat) : World Buffers :=
  { w with heap := { w.heap with memory := move w.heap.memory target source length } }

variable {w : World Buffers} {p q : Place}

theorem perform_move (hp : (locate p length).run w = (.ok target, w))
    (hq : (locate q length).run w = (.ok source, w)) :
    (perform (.move p q length)).run w = (.ok .nothing, movedIn w target source length) := by
  simp only [perform, Act.run_bind_ok hp, Act.run_bind_ok hq]
  rfl

/-- A copy between buffers is the move, or it is refused and everything is as it was. -/
theorem perform_copy (hp : (locate p length).run w = (.ok target, w))
    (hq : (locate q length).run w = (.ok source, w)) :
    (perform (.copy p q length)).run w
      = if Overlap target source length then (.error .overlapping, w)
        else (.ok .nothing, movedIn w target source length) := by
  simp only [perform, Act.run_bind_ok hp, Act.run_bind_ok hq, Act.run_world_bind, copy?_eq]
  by_cases h : Overlap target source length
  · simp only [if_pos h, Act.run_fail]
  · simp only [if_neg h]
    rfl

/-- **A copy is a move that looks first whether the ranges share a byte.**  A move leaves at
each address of the target what the source held there before, and all else as it was, however
the two overlap; and a machine that carries one byte at a time gets there, if it begins at the
end that lies ahead.  A copy does nothing exactly if the ranges have bytes and share one.  In
every other case it leaves what the move leaves, also if the writing is done in some other way,
as long as that may be relied on where nothing is shared.  Between buffers, too, a copy that is
refused has changed nothing in the world. -/
theorem copy_is_guarded_move (m : Memory) (target source length : Nat) :
    Moved m (move m target source length) target source length ∧
    m.carry target source
        (if target ≤ source then List.range length else (List.range length).reverse)
      = move m target source length ∧
    (copy? m target source length = none ↔ 0 < length ∧ Overlap target source length) ∧
    (¬ (0 < length ∧ Overlap target source length) →
      copy? m target source length = some (move m target source length)) ∧
    (∀ write, CopiesApart write →
      copyBy? write m target source length = copy? m target source length) ∧
    (∀ (w : World Buffers) (p q : Place),
      (locate p length).run w = (.ok target, w) → (locate q length).run w = (.ok source, w) →
      (perform (.move p q length)).run w = (.ok .nothing, movedIn w target source length) ∧
      (perform (.copy p q length)).run w
        = if Overlap target source length then (.error .overlapping, w)
          else (.ok .nothing, movedIn w target source length)) := by
  have moved := Memory.transfer_moved m target source length
  have iff_overlap : 0 < length ∧ Overlap target source length
      ↔ Overlap target source length := ⟨And.right, fun h => ⟨h.length_pos, h⟩⟩
  refine ⟨moved, ?_, ?_, ?_, fun _ relied => copyBy?_eq_copy? relied m target source length, ?_⟩
  · split
    · rename_i h
      exact (Memory.carry_ascending h m length).unique moved
    · rename_i h
      exact (Memory.carry_descending (Nat.le_of_not_le h) m length).unique moved
  · rw [iff_overlap, copy?_eq]
    simp
  · intro h
    rw [iff_overlap] at h
    rw [copy?_eq, if_neg h]
  · intro w p q hp hq
    exact ⟨perform_move hp hq, perform_copy hp hq⟩

/-- Sixteen bytes, of which the first eight are copied over the last eight, from the highest
down: the ranges touch.  One byte further down they would share one, and the copy is refused. -/
theorem copy_of_neighbours :
    let w : World Buffers := ((perform (.allocate 16)).run { self := {} }).2
    let write : Memory → Nat → Nat → Nat → Memory := fun m target source length =>
      m.carry target source (List.range length).reverse
    CopiesApart write ∧
      (locate ⟨0, 8⟩ 8).run w = (.ok 0x10008, w) ∧ (locate ⟨0, 7⟩ 8).run w = (.ok 0x10007, w) ∧
      (locate ⟨0, 0⟩ 8).run w = (.ok 0x10000, w) ∧
      ¬ (0 < 8 ∧ Overlap 0x10008 0x10000 8) ∧
      copyBy? write w.heap.memory 0x10008 0x10000 8
        = some (move w.heap.memory 0x10008 0x10000 8) ∧
      (perform (.copy ⟨0, 8⟩ ⟨0, 0⟩ 8)).run w = (.ok .nothing, movedIn w 0x10008 0x10000 8) ∧
      (perform (.copy ⟨0, 7⟩ ⟨0, 0⟩ 8)).run w = (.error .overlapping, w) := by
  intro w write
  have relied : CopiesApart write := copiesApart_carry _ (by simp)
  have apart : ¬ (0 < 8 ∧ Overlap 0x10008 0x10000 8) := by decide
  have behind : (locate ⟨0, 8⟩ 8).run w = (.ok 0x10008, w) := rfl
  have across : (locate ⟨0, 7⟩ 8).run w = (.ok 0x10007, w) := rfl
  have first : (locate ⟨0, 0⟩ 8).run w = (.ok 0x10000, w) := rfl
  obtain ⟨-, -, -, copies, written, performs⟩ :=
    copy_is_guarded_move w.heap.memory 0x10008 0x10000 8
  obtain ⟨-, -, -, -, -, refuses⟩ := copy_is_guarded_move w.heap.memory 0x10007 0x10000 8
  have copied := (written write relied).trans (copies apart)
  refine ⟨relied, behind, across, first, apart, copied, ?_, ?_⟩
  · exact (performs w ⟨0, 8⟩ ⟨0, 0⟩ behind first).2.trans (if_neg (by decide))
  · exact (refuses w ⟨0, 7⟩ ⟨0, 0⟩ across first).2.trans (if_pos (by decide))

end RawBytes

end PageArena
