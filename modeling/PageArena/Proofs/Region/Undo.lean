/-
A rollback undoes everything since its checkpoint.

A checkpoint writes the cursor down and nothing else, so it has to be shown that bringing the
cursor back is enough.  The reason is that nothing but a rollback ever takes anything off the
stack, and a rollback only takes the top.  As long as nobody uses the handle of a checkpoint,
the checkpoint and all below it therefore stay where they are, whatever is taken, pushed or
refused above them (`Retains.step`).  When the handle is used at last and accepted, what is left
of the stack is what was there before, and the cursor is the one that was written down.

So the region is the one that the checkpoint found, but for two fields that nobody outside can
see: how many pages are accessible, and when pages were last given back.
-/
import Mathlib
import PageArena.Proofs.Region.Access
import PageArena.Proofs.Region.Handles
import PageArena.Proofs.Region.Rollback

namespace PageArena

open OsCall (Record)

namespace Region

/-- The region `r` still has the checkpoint that was pushed in `start`, and all below it. -/
structure Retains (start r : Region) : Prop where
  life : Continues start r
  phase : r.phase = start.phase
  stack : start.cursor :: start.saved <:+ r.saved

variable {start r r' : Region} {base clock : Nat} {made : List Record} {handle : Handle}

/-- Of a stack with `older` below its newest entry, what lies at a place that is not the
newest is left when the newest is taken off. -/
theorem suffix_of_popped {cursor newest : Nat} {below older : List Nat}
    (h : cursor :: below <:+ newest :: older) (other : older.length ≠ below.length) :
    cursor :: below <:+ older := by
  rcases List.suffix_cons_iff.mp h with hall | hrest
  · obtain ⟨-, rfl⟩ := List.cons.inj hall
    exact absurd rfl other
  · exact hrest

/-- **One episode** leaves the checkpoint and all below it, unless the region is lost by it or
the handle of the checkpoint is used. -/
theorem Retains.step (retains : Retains start r) (ok : Sound r) (reserved : start.phase = .reserved base)
    (e : Episode) (other : e.request ≠ .rollback ⟨start.depth⟩)
    (hopen : (r.after e).phase ≠ .closed) : Retains start (r.after e) := by
  have hway := meet_meets ok e
  have life := retains.life.trans (hway.continues ok)
  have hbase : r.phase = .reserved base := retains.phase.trans reserved
  generalize e.request = request at hway other
  generalize r.answer e = answer at hway
  generalize r.calls e = made at hway
  generalize r.after e = r' at hway life hopen
  cases hway with
  | slice h =>
      obtain ⟨hsaved, -, hphase⟩ := h.of_not_closed ok hopen
      exact ⟨life, (hphase base hbase).trans reserved.symm, hsaved ▸ retains.stack⟩
  | checkpoint h =>
      cases h with
      | unobtained obtains =>
          obtain ⟨hsaved, -, hphase⟩ := obtains.of_sound ok
          exact ⟨life, (hphase base hbase).trans reserved.symm, hsaved ▸ retains.stack⟩
      | @pushed _ r₁ _ obtains =>
          obtain ⟨hsaved, -, hphase⟩ := obtains.of_sound ok
          have below : start.cursor :: start.saved <:+ r₁.saved := hsaved ▸ retains.stack
          exact ⟨life, (hphase base hbase).trans reserved.symm, below.trans (List.suffix_cons _ _)⟩
  | @rollback handle _ _ _ h =>
      cases h with
      | unreserved h => exact absurd hbase (h base)
      | stale phase h => exact ⟨life, retains.phase, retains.stack⟩
      | @popped _ cursor older _ _ _ phase saved newest trims =>
          obtain ⟨hphase, hsaved, -⟩ := trims.of_not_closed hopen
          have hplace : older.length ≠ start.saved.length := by
            intro hsame
            exact other (congrArg (fun i => Request.rollback ⟨i⟩) (newest.symm.trans hsame))
          have below := retains.stack
          rw [saved] at below
          refine ⟨life, hphase.trans retains.phase, ?_⟩
          rw [hsaved]
          exact suffix_of_popped below hplace
  | close h => exact absurd h.closed hopen

/-- **A run** leaves them, unless the region is lost by it or the handle is used. -/
theorem Retains.run (retains : Retains start r) (ok : Sound r) (reserved : start.phase = .reserved base)
    (es : List Episode) (others : ∀ e ∈ es, e.request ≠ .rollback ⟨start.depth⟩)
    (hopen : (r.run es).phase ≠ .closed) : Retains start (r.run es) := by
  induction es generalizing r with
  | nil => exact retains
  | cons e es ih =>
      obtain ⟨hfirst, hrest⟩ := List.forall_mem_cons.mp others
      have ok' : Sound (r.after e) := ((meet_meets ok e).continues ok).sound ok
      have hopen' : (r.after e).phase ≠ .closed :=
        fun hclosed => hopen ((run_continues ok' es).closed hclosed)
      exact ih (retains.step ok reserved e hfirst hopen') ok' hrest hopen

/-- A handle that is returned is the place on top of what was there, and its checkpoint is the
cursor. -/
theorem retains_of_checkpoint {e : Episode} (ok : Sound start) (reserved : start.phase = .reserved base)
    (asks : e.request = .checkpoint) (issued : start.answer e = .ok (.handle handle)) :
    handle.index = start.depth ∧ Retains start (start.after e) := by
  have hway := meet_meets ok e
  have life := hway.continues ok
  rw [asks, issued] at hway
  generalize start.calls e = made at hway
  generalize start.after e = r' at hway life
  generalize hreply : (Except.ok (Reply.handle handle) : Except ArenaError Reply) = answer at hway
  cases hway with
  | checkpoint h =>
      cases h with
      | unobtained obtains => cases hreply
      | pushed obtains =>
          obtain rfl := Reply.handle.inj (Except.ok.inj hreply)
          cases obtains with
          | held phase => exact ⟨rfl, life, rfl, List.suffix_refl _⟩
          | fresh phase pos h =>
              rw [phase] at reserved
              cases reserved

/-- Regions in the life of one region that agree in cursor, stack and phase differ in the
boundary and the time at most. -/
theorem Continues.eq_of_same (life : Continues start r) (phase : r.phase = start.phase)
    (cursor : r.cursor = start.cursor) (saved : r.saved = start.saved) :
    r = { start with committed := r.committed, lastTrim := r.lastTrim } := by
  obtain ⟨tuning, backend, total, -, -, -⟩ := life
  cases r
  simp_all

/-- A rollback of the checkpoint is accepted if nothing lies above it. -/
theorem accepted_iff_depth (ok : Sound r) (hbase : r.phase = .reserved base) (machine : Machine) :
    r.Accepted ⟨machine, .rollback handle⟩ ↔ r.depth = handle.index + 1 := by
  have hway := meet_meets ok ⟨machine, .rollback handle⟩
  unfold Accepted
  generalize r.answer _ = answer at hway ⊢
  generalize r.after _ = r' at hway
  generalize r.calls _ = made at hway
  cases hway with
  | @rollback _ trimmed _ _ h =>
      cases h with
      | unreserved h => exact absurd hbase (h base)
      | stale phase h => exact ⟨fun haccepted => absurd rfl (haccepted _), fun hd => absurd hd h⟩
      | popped phase saved newest trims =>
          refine ⟨fun _ => by rw [depth, saved, List.length_cons, newest], fun _ why hwhy => ?_⟩
          refine trims.ne_invalidState why ?_
          cases trimmed with
          | error e =>
              obtain rfl := Except.error.inj hwhy
              rfl
          | ok u => cases hwhy

/-- **A rollback that leaves the region open undoes everything since its checkpoint.** -/
theorem Retains.undone (retains : Retains start r) (ok : Sound r) (reserved : start.phase = .reserved base)
    {e : Episode} (asks : e.request = .rollback ⟨start.depth⟩) (accepted : r.Accepted e)
    (hopen : (r.after e).phase ≠ .closed) :
    r.after e = { start with
      committed := (r.after e).committed, lastTrim := (r.after e).lastTrim } := by
  have hway := meet_meets ok e
  have life := retains.life.trans (hway.continues ok)
  have hbase : r.phase = .reserved base := retains.phase.trans reserved
  unfold Accepted at accepted
  rw [asks] at hway
  generalize r.answer e = answer at hway accepted
  generalize r.calls e = made at hway
  generalize r.after e = r' at hway life hopen ⊢
  cases hway with
  | rollback h =>
      cases h with
      | unreserved h => exact absurd hbase (h base)
      | stale phase h => exact absurd rfl (accepted _)
      | @popped _ cursor older _ _ _ phase saved newest trims =>
          obtain ⟨hphase, hsaved, hcursor⟩ := trims.of_not_closed hopen
          -- The checkpoint is the newest, so it and all below it are the whole stack.
          have hwhole : start.cursor :: start.saved = cursor :: older := by
            refine (saved ▸ retains.stack).eq_of_length ?_
            rw [List.length_cons, List.length_cons, newest]
            rfl
          obtain ⟨rfl, rfl⟩ := List.cons.inj hwhole
          exact life.eq_of_same (hphase.trans retains.phase) hcursor hsaved

/-- A handle that is accepted is answered so and the region stays as it is, unless the region
is lost by a failed call, or its threshold is too large to be measured. -/
theorem rollback_ends (ok : Sound r) {e : Episode} (asks : e.request = .rollback handle)
    (accepted : r.Accepted e) :
    (r.answer e = .ok .done ∧ (r.after e).phase = r.phase) ∨
      r.answer e ≠ .ok .done ∧ ((r.after e).phase = .closed ∨ Word.limit ≤ r.thresholdBytes) := by
  have hway := meet_meets ok e
  unfold Accepted at accepted
  rw [asks] at hway
  generalize r.answer e = answer at hway accepted ⊢
  generalize r.calls e = made at hway
  generalize r.after e = r' at hway ⊢
  cases hway with
  | rollback h =>
      cases h with
      | unreserved h => exact absurd rfl (accepted _)
      | stale phase h => exact absurd rfl (accepted _)
      | popped phase saved newest trims =>
          cases trims with
          | unmeasured h => exact Or.inr ⟨nofun, Or.inr h⟩
          | kept fits h => exact Or.inl ⟨rfl, rfl⟩
          | trimmed fits due => exact Or.inl ⟨rfl, rfl⟩
          | lost fits due uncommits => exact Or.inr ⟨nofun, Or.inl rfl⟩

variable {r₀ : Region}

/-- **Rollback is the inverse of all that was done since the checkpoint.**  A checkpoint is
taken in a reserved region `start`, and after it anything is done but to use its handle, in any
nesting and with any failures, as long as the region stays open.  Then

* the checkpoint is still at the place of its handle, and all below it is unchanged;
* to use the handle now is accepted exactly if nothing lies above the checkpoint;
* if the answer is that this was done, then the region is `start` again, except for the commit
  boundary and the time at which pages were last given back.

A handle that is accepted is answered so, unless the region is lost by a failed call or its
threshold is too large to be measured in bytes. -/
theorem rollback_restores (made : r₀.Made) (before since : List Episode) (c : Episode)
    (machine : Machine) {base : Nat} {handle : Handle} :
    let start := r₀.run before
    let r := (start.after c).run since
    let e : Episode := ⟨machine, .rollback handle⟩
    start.phase = .reserved base → c.request = .checkpoint →
    start.answer c = .ok (.handle handle) →
    (∀ e ∈ since, e.request ≠ .rollback handle) → r.phase ≠ .closed →
    (handle.index = start.depth ∧ start.cursor :: start.saved <:+ r.saved) ∧
    (r.Accepted e ↔ r.depth = handle.index + 1) ∧
    (r.answer e = .ok .done → r.after e = { start with
      committed := (r.after e).committed, lastTrim := (r.after e).lastTrim }) ∧
    (r.Accepted e → r.answer e = .ok .done ∨ (r.after e).phase = .closed ∨
      Word.limit ≤ r₀.thresholdBytes) := by
  intro start r e reserved asks issued others hopen
  have ok₀ : Sound start := (run_continues made.sound before).sound made.sound
  obtain ⟨hindex, retains₀⟩ := retains_of_checkpoint ok₀ reserved asks issued
  have ok₁ : Sound (start.after c) := retains₀.life.sound ok₀
  obtain rfl : handle = ⟨start.depth⟩ := congrArg Handle.mk hindex
  have retains : Retains start r := retains₀.run ok₁ reserved since others hopen
  have ok : Sound r := (run_continues ok₁ since).sound ok₁
  have hbase : r.phase = .reserved base := retains.phase.trans reserved
  refine ⟨⟨rfl, retains.stack⟩, accepted_iff_depth ok hbase machine, ?_, ?_⟩
  · intro hdone
    have accepted : r.Accepted e := by
      intro why hwhy
      rw [hdone] at hwhy
      cases hwhy
    refine retains.undone ok reserved rfl accepted ?_
    rcases rollback_ends ok rfl accepted with ⟨-, hphase⟩ | ⟨hnot, -⟩
    · exact hphase ▸ hopen
    · exact absurd hdone hnot
  · intro accepted
    have hthreshold : r.thresholdBytes = r₀.thresholdBytes := by
      rw [thresholdBytes_run ok₁ since, thresholdBytes, retains₀.life.tuning, retains₀.life.backend]
      exact thresholdBytes_run made.sound before
    rw [← hthreshold]
    exact (rollback_ends ok rfl accepted).imp And.left And.right

/-- A checkpoint in the middle of a page.  After it a second one is pushed, used and used
again, which is refused; then all three pages are filled.  The rollback brings the cursor and
the stack back, and of the three pages that are accessible by now it gives one back. -/
theorem rollback_restores_in_eager :
    let before : List Episode := [⟨{}, .checkpoint⟩, ⟨{}, .slice 100 1⟩]
    let c : Episode := ⟨{}, .checkpoint⟩
    let since : List Episode :=
      [⟨{}, .slice 5000 8⟩, ⟨{}, .checkpoint⟩, ⟨{}, .rollback ⟨2⟩⟩, ⟨{}, .rollback ⟨2⟩⟩,
        ⟨{}, .slice 7000 1⟩]
    let start := eager.run before
    let r := (start.after c).run since
    let e : Episode := ⟨{}, .rollback ⟨1⟩⟩
    eager.Made ∧ start.phase = .reserved 0x100000000000 ∧
      start.answer c = .ok (.handle ⟨1⟩) ∧ (∀ e ∈ since, e.request ≠ .rollback ⟨1⟩) ∧
      r.phase ≠ .closed ∧ r.cursor = 12104 ∧ r.Accepted e ∧
      r.after e = { start with committed := 8192 } ∧ start.cursor = 100 ∧ start.saved = [0] ∧
      start.committed = 4096 := by
  intro before c since start r e
  have made : eager.Made :=
    ⟨12000, eager.tuning, eager.backend, ⟨{}, ()⟩, ⟨{}, ()⟩, rfl⟩
  have reserved : start.phase = .reserved 0x100000000000 := by decide
  have issued : start.answer c = .ok (.handle ⟨1⟩) := by decide
  have others : ∀ e ∈ since, e.request ≠ .rollback ⟨1⟩ := by decide
  have hopen : r.phase ≠ .closed := by decide
  obtain ⟨-, haccepted, hundone, -⟩ :=
    rollback_restores made before since c {} reserved rfl issued others hopen
  have hafter := hundone (by decide)
  rw [show (r.after e).committed = 8192 by decide,
    show (r.after e).lastTrim = start.lastTrim by decide] at hafter
  exact ⟨made, reserved, issued, others, hopen, by decide, haccepted.mpr (by decide), hafter,
    by decide, by decide, by decide⟩

end Region

end PageArena
