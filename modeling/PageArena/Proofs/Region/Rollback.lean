/-
A rollback either happens or does not, but for one case.

It takes the checkpoint off the stack and moves the cursor first, and only then looks after
idle pages.  Most of what can go wrong there cannot: the arithmetic is safe on sound
bookkeeping, and a call that fails closes the region.  What is left is the product of the
threshold with the page size.  If that is no word, the rollback fails after the checkpoint
is gone, and the region stays open.  `rollback_all_or_nothing_iff` says that this is the only
case, and that it is the case for every handle that is accepted.

A tuning with such a threshold is accepted, so the case is not excluded: see
`rollback_half_done`.
-/
import Mathlib
import PageArena.Proofs.Region.Run

namespace PageArena

open OsCall (Record)

namespace Region

/-- Whether a handle is that of the newest checkpoint of a reservation. -/
def Accepts (r : Region) (handle : Handle) : Prop :=
  (∃ base, r.phase = .reserved base) ∧ r.depth = handle.index + 1

namespace Rollback

/-- The rollback happened: the newest checkpoint is off the stack, and the cursor is where
it was put by. -/
def Happened (handle : Handle) (r : Region) (answer : Except ArenaError Reply) (r' : Region) :
    Prop :=
  answer = .ok .done ∧
    ∃ cursor older, r.saved = cursor :: older ∧ older.length = handle.index ∧
      r'.saved = older ∧ r'.cursor = cursor ∧ r'.phase = r.phase

/-- The rollback did not happen: the region is as it was, and no call was made. -/
def Refused (r : Region) (answer : Except ArenaError Reply) (r' : Region) (made : List Record) :
    Prop :=
  (∃ e, answer = .error e) ∧ r' = r ∧ made = []

/-- The rollback lost the region: taking pages away failed, that failure is the answer, and
the region is closed. -/
def Lost (r : Region) (answer : Except ArenaError Reply) (r' : Region) (made : List Record) :
    Prop :=
  ∃ e failed address length base result, answer = .error e ∧
    VirtualMemory.Uncommits address length (.error e) failed ∧
    made = failed ++ [.munmap base r.total result] ∧ r'.phase = .closed

/-- Exactly one of the three. -/
def AllOrNothing (handle : Handle) (r : Region) (answer : Except ArenaError Reply)
    (r' : Region) (made : List Record) : Prop :=
  (Happened handle r answer r' ∨ Refused r answer r' made ∨ Lost r answer r' made) ∧
    ¬ (Happened handle r answer r' ∧ Refused r answer r' made) ∧
    ¬ (Happened handle r answer r' ∧ Lost r answer r' made) ∧
    ¬ (Refused r answer r' made ∧ Lost r answer r' made)

/-- The checkpoint is gone and the cursor moved, in an open region, and yet it failed. -/
def HalfDone (handle : Handle) (r : Region) (answer : Except ArenaError Reply) (r' : Region)
    (made : List Record) : Prop :=
  answer = .error (.sizeOverflow Arithmetic.mul) ∧ made = [] ∧
    ∃ cursor older, r.saved = cursor :: older ∧ older.length = handle.index ∧
      r' = { r with saved := older, cursor := cursor }

variable {handle : Handle} {r r' : Region} {clock : Nat} {made : List Record}
  {answer : Except ArenaError Reply}

/-- An uncommit that fails has made a call. -/
theorem ne_nil_of_uncommits {address length : Nat} {e : ArenaError} {failed : List Record}
    (h : VirtualMemory.Uncommits address length (.error e) failed) : failed ≠ [] := by
  cases h with
  | unprotected errno => simp
  | kept errno => simp

/-- No two of the three ever go together. -/
theorem allOrNothing_iff :
    AllOrNothing handle r answer r' made ↔
      Happened handle r answer r' ∨ Refused r answer r' made ∨ Lost r answer r' made := by
  refine ⟨fun h => h.1, fun h => ⟨h, ?_, ?_, ?_⟩⟩
  · rintro ⟨⟨hok, -⟩, ⟨e, he⟩, -⟩
    rw [hok] at he
    cases he
  · rintro ⟨⟨hok, -⟩, e, -, -, -, -, -, he, -⟩
    rw [hok] at he
    cases he
  · rintro ⟨⟨-, -, hnil⟩, e, failed, _, _, _, _, -, hfailed, hmade, -⟩
    rw [hnil] at hmade
    exact ne_nil_of_uncommits hfailed (List.append_eq_nil_iff.mp hmade.symm).1

theorem not_allOrNothing_of_halfDone (h : HalfDone handle r answer r' made) :
    ¬ AllOrNothing handle r answer r' made := by
  obtain ⟨hanswer, hmade, cursor, older, hsaved, -, hafter⟩ := h
  rw [allOrNothing_iff]
  rintro (⟨hok, -⟩ | ⟨-, hsame, -⟩ | ⟨e, failed, _, _, _, _, -, hfailed, hlost, -⟩)
  · rw [hanswer] at hok
    cases hok
  · -- The stack is one entry shorter, so the region is not the one before.
    have hlength : r'.saved.length = r.saved.length := by rw [hsame]
    rw [hafter, hsaved] at hlength
    simp at hlength
  · rw [hmade] at hlost
    exact ne_nil_of_uncommits hfailed (List.append_eq_nil_iff.mp hlost.symm).1

/-- Without the product that overflows, every way a rollback can go is one of the three. -/
theorem allOrNothing_of_rollsBack {answer : Except ArenaError Unit}
    (h : RollsBack handle r clock answer r' made)
    (hfits : r.Accepts handle → r.thresholdBytes < Word.limit) :
    AllOrNothing handle r (answer.map fun _ => .done) r' made := by
  rw [allOrNothing_iff]
  cases h with
  | unreserved h => exact Or.inr (Or.inl ⟨⟨_, rfl⟩, rfl, rfl⟩)
  | stale phase h => exact Or.inr (Or.inl ⟨⟨_, rfl⟩, rfl, rfl⟩)
  | @popped base cursor older _ _ _ phase saved newest trims =>
      cases trims with
      | unmeasured h =>
          have accepted : r.Accepts handle := ⟨⟨base, phase⟩, by simp [depth, saved, newest]⟩
          exact absurd (hfits accepted) (Nat.not_lt.mpr h)
      | kept fits h =>
          exact Or.inl ⟨rfl, cursor, older, saved, newest, rfl, rfl, rfl⟩
      | trimmed fits due =>
          exact Or.inl ⟨rfl, cursor, older, saved, newest, rfl, rfl, rfl⟩
      | lost fits due uncommits =>
          exact Or.inr (Or.inr ⟨_, _, _, _, _, _, rfl, uncommits, rfl, rfl⟩)

/-- With it, an accepted rollback always stops half-way. -/
theorem halfDone_of_rollsBack {answer : Except ArenaError Unit}
    (h : RollsBack handle r clock answer r' made) (accepted : r.Accepts handle)
    (hover : Word.limit ≤ r.thresholdBytes) :
    HalfDone handle r (answer.map fun _ => .done) r' made := by
  obtain ⟨⟨base, hbase⟩, hdepth⟩ := accepted
  cases h with
  | unreserved h => exact absurd hbase (h base)
  | stale phase h => exact absurd hdepth h
  | @popped base cursor older _ _ _ phase saved newest trims =>
      cases trims with
      | unmeasured h => exact ⟨rfl, rfl, cursor, older, saved, newest, rfl⟩
      | kept fits h => exact absurd fits (Nat.not_lt.mpr hover)
      | trimmed fits due => exact absurd fits (Nat.not_lt.mpr hover)
      | lost fits due uncommits => exact absurd fits (Nat.not_lt.mpr hover)

end Rollback

variable {r₀ : Region}

/-- What a run leaves alone settles what a threshold comes to. -/
theorem thresholdBytes_run (ok : Sound r₀) (es : List Episode) :
    (r₀.run es).thresholdBytes = r₀.thresholdBytes := by
  have life := run_continues ok es
  rw [thresholdBytes, thresholdBytes, life.tuning, life.backend]

/-- **A rollback is all or nothing, except that a threshold which is too large to be
measured in bytes leaves it half done.**  For every reachable region, every handle and
everything the operating system may do, it happens, or nothing changes, or the region is
closed, if and only if the handle is refused or the threshold can be measured; and otherwise
the checkpoint is gone, the cursor moved and the region open, although the answer is an
error. -/
theorem rollback_all_or_nothing_iff (made : r₀.Made) (es : List Episode) (machine : Machine)
    (handle : Handle) :
    let r := r₀.run es
    let e : Episode := ⟨machine, .rollback handle⟩
    (Rollback.AllOrNothing handle r (r.answer e) (r.after e) (r.calls e) ↔
      ¬ (r.Accepts handle ∧ Word.limit ≤ r₀.thresholdBytes)) ∧
    (r.Accepts handle ∧ Word.limit ≤ r₀.thresholdBytes →
      Rollback.HalfDone handle r (r.answer e) (r.after e) (r.calls e)) := by
  intro r e
  have ok : Sound r := (run_continues made.sound es).sound made.sound
  have hthreshold : r.thresholdBytes = r₀.thresholdBytes := thresholdBytes_run made.sound es
  rw [← hthreshold]
  have hmeets := meet_meets ok e
  generalize r.answer e = answer at hmeets
  generalize r.after e = r' at hmeets
  generalize r.calls e = calls at hmeets
  cases hmeets with
  | rollback h =>
      have half : r.Accepts handle ∧ Word.limit ≤ r.thresholdBytes → _ :=
        fun hc => Rollback.halfDone_of_rollsBack h hc.1 hc.2
      refine ⟨⟨?_, ?_⟩, half⟩
      · intro hall hc
        exact Rollback.not_allOrNothing_of_halfDone (half hc) hall
      · intro hc
        refine Rollback.allOrNothing_of_rollsBack h ?_
        intro accepted
        exact Nat.not_le.mp fun hle => hc ⟨accepted, hle⟩

/-- Two pages whose idle bytes are never too many: the threshold is the largest word. -/
def neverIdle : Region :=
  { tuning := { batchPages := 1, thresholdPages := 0xffffffffffffffff }
    backend := .posix ⟨4096, 4096⟩, total := 8192, lastTrim := 0 }

theorem neverIdle_made : neverIdle.Made :=
  ⟨8192, { batchPages := 1, thresholdPages := 0xffffffffffffffff }, .posix ⟨4096, 4096⟩,
    ⟨{}, ()⟩, ⟨{}, ()⟩, rfl⟩

/-- With the usual tuning the rollback of a checkpoint happens. -/
theorem rollback_happens_in_twoPages :
    let r := twoPages.run [⟨{}, .checkpoint⟩, ⟨{}, .slice 100 1⟩]
    let e : Episode := ⟨{}, .rollback ⟨0⟩⟩
    twoPages.Made ∧ Rollback.AllOrNothing ⟨0⟩ r (r.answer e) (r.after e) (r.calls e) ∧
      r.answer e = .ok .done ∧ (r.after e).cursor = 0 := by
  intro r e
  have holds := rollback_all_or_nothing_iff twoPages_made
    [⟨{}, .checkpoint⟩, ⟨{}, .slice 100 1⟩] {} ⟨0⟩
  refine ⟨twoPages_made, holds.1.mpr ?_, by decide, by decide⟩
  rintro ⟨-, hover⟩
  exact absurd hover (by decide)

/-- A tuning is accepted under which every rollback of a checkpoint fails half-way: the
checkpoint is gone, the cursor is moved, and the region is open. -/
theorem rollback_half_done :
    let r := neverIdle.run [⟨{}, .checkpoint⟩, ⟨{}, .slice 100 1⟩]
    let e : Episode := ⟨{}, .rollback ⟨0⟩⟩
    neverIdle.Made ∧ ¬ Rollback.AllOrNothing ⟨0⟩ r (r.answer e) (r.after e) (r.calls e) ∧
      r.answer e = .error (.sizeOverflow Arithmetic.mul) ∧
      (r.after e).phase = r.phase ∧ (r.after e).saved ≠ r.saved ∧
      (r.after e).cursor ≠ r.cursor := by
  intro r e
  have half : Rollback.HalfDone ⟨0⟩ r (r.answer e) (r.after e) (r.calls e) :=
    ⟨by decide, by decide, 0, [], by decide, rfl, by decide⟩
  exact ⟨neverIdle_made, Rollback.not_allOrNothing_of_halfDone half, half.1, by decide,
    by decide, by decide⟩

end Region

end PageArena
