/-
Checks that never fail.

A region checks every sum, difference and product it makes, and most of these checks are spare.
Each is so for a reason of its own.  The address of the cursor is one, because the end of the
reservation is.  What was rounded up is not below what it was rounded up from, so the base can
be taken off again.  The page in which a cut ends lies in the reservation, which is a whole
number of pages, so it is a word and the total cuts nothing off.  A rollback brings the cursor
to a saved one, and these rise to the cursor, so the idle bytes are a difference.  A batch is no
larger than the threshold, so its product is a word if that of the threshold is; and it is no
larger than what lies idle, because more than the threshold does.

`Spare` says these things of the checks, one by one.  That nothing hangs on them is said of the
operations: `Unguarded` has them without the spare checks, and on every region that can be
reached they do the same.  What is left to check is seen there.  A slice rounds the address of
the cursor and adds the size, and a rollback multiplies the threshold.
-/
import Mathlib
import PageArena.Proofs.Region.Exact
import PageArena.Proofs.Region.Rollback

namespace PageArena

namespace Region

/-! ### The operations without the spare checks -/

namespace Unguarded

/-- Makes the region accessible up to the page that holds the last byte below `stop`. -/
def commitTo (base stop : Nat) : Act ArenaError Region Unit := do
  let r ← Act.self
  let boundary := Word.ceil stop r.backend.pageSize
  orAbandon (VirtualMemory.commit (base + r.committed) (boundary - r.committed))
  Act.emit (.committed r.committed boundary)
  Act.update fun r => { r with committed := boundary }

/-- Takes `size` bytes at the next multiple of `align` from a region that has its base. -/
def cut (base size align : Nat) : Act ArenaError Region Span := do
  let r ← Act.self
  let address ← Act.settle (Checked.roundUp (base + r.cursor) align)
  let stop ← Act.settle (Checked.add (address - base) size)
  if r.total < stop then Act.raise (.outOfBounds stop r.total)
  else if size = 0 then return ⟨address, size⟩
  else
    if r.committed < stop then commitTo base stop
    Act.update fun r => { r with cursor := stop }
    return ⟨address, size⟩

/-- Takes `size` bytes at the next multiple of `align`. -/
def slice (size align : Nat) : Act ArenaError Region Span := do
  Act.settle (Checked.alignment align)
  let base ← obtainBase
  cut base size align

/-- Gives one batch of idle pages back, if that is due. -/
def trim (base : Nat) : Act ArenaError Region Unit := do
  let r ← Act.self
  let threshold ← Act.settle (Checked.mul r.tuning.thresholdPages r.backend.pageSize)
  let time ← Act.now
  if r.committed - r.cursor ≤ threshold ∨
      time - r.lastTrim < r.tuning.cooldown.nanoseconds then return ()
  else
    let boundary := r.committed - r.batchBytes
    orAbandon (VirtualMemory.uncommit (base + boundary) r.batchBytes)
    Act.emit (.decommitted r.batchBytes boundary)
    let time ← Act.now
    Act.update fun r => { r with committed := boundary, lastTrim := time }

/-- Brings the cursor back to the newest checkpoint, which must be the one of the handle. -/
def rollback (handle : Handle) : Act ArenaError Region Unit := do
  let base ← currentBase
  let r ← Act.self
  match r.saved with
  | cursor :: older =>
    if r.depth = handle.index + 1 then
      Act.update fun r => { r with saved := older }
      Act.emit (.rolledBack handle.index r.cursor cursor)
      Act.update fun r => { r with cursor := cursor }
      trim base
    else Act.raise (.invalidState (StateFault.staleHandle handle.index r.depth))
  | [] => Act.raise (.invalidState (StateFault.staleHandle handle.index r.depth))

end Unguarded

variable {r r₀ : Region} {w w' : World Region} {base size align stop : Nat} {handle : Handle}
  {machine : Machine}

/-- The page in which an end lies is in the reservation, so neither the rounding nor the minimum
nor the difference does anything but what it is for. -/
theorem commitTo_eq_unguarded (ok : Sound w.self) (paged : Paged w.self)
    (hp : w.self.phase = .reserved base) (hstop : w.self.committed < stop)
    (htotal : stop ≤ w.self.total) :
    (commitTo base stop).run w = (Unguarded.commitTo base stop).run w := by
  obtain ⟨hround, hwhole⟩ :=
    paged.roundUp?_page ok hp (Nat.lt_of_le_of_lt (Nat.zero_le _) hstop) htotal
  have hlow : w.self.committed ≤ Word.ceil stop w.self.backend.pageSize :=
    Nat.le_trans (Nat.le_of_lt hstop) (Word.le_of_roundUp? hround)
  simp only [commitTo, Unguarded.commitTo, Act.run_self_bind, Checked.roundUp_of_some hround,
    Act.settle_ok, Act.run_pure_bind, Nat.min_eq_left hwhole, Checked.sub_of_le hlow]

/-- Taking memory needs two checks, those of the rounded address and of the end. -/
theorem cut_eq_unguarded (ok : Sound w.self) (paged : Paged w.self)
    (hp : w.self.phase = .reserved base) :
    (cut base size align).run w = (Unguarded.cut base size align).run w := by
  simp only [cut, Unguarded.cut, Act.run_self_bind, Checked.add_of_lt (ok.here_lt hp),
    Act.settle_ok, Act.run_pure_bind]
  cases hround : Word.roundUp? (base + w.self.cursor) align with
  | none =>
      simp only [Checked.roundUp_of_none hround, Act.settle_error, Act.run_bind, Act.run_raise]
  | some address =>
      have hle : base ≤ address :=
        Nat.le_trans (Nat.le_add_right _ _) (Word.le_of_roundUp? hround)
      simp only [Checked.roundUp_of_some hround, Checked.sub_of_le hle, Act.settle_ok,
        Act.run_pure_bind, Nat.add_sub_cancel' hle]
      by_cases hword : address - base + size < Word.limit
      · simp only [Checked.add_of_lt hword, Act.settle_ok, Act.run_pure_bind]
        split
        · rfl
        · rename_i hfits
          split
          · rfl
          · split
            · rename_i hpast
              exact Act.run_bind_congr
                (commitTo_eq_unguarded ok paged hp hpast (Nat.not_lt.mp hfits)) fun _ _ _ => rfl
            · rfl
      · simp only [Checked.add_of_le (Nat.not_lt.mp hword), Act.settle_error, Act.run_bind,
          Act.run_raise]

/-- A slice does without its spare checks, whatever phase the region is in. -/
theorem slice_eq_unguarded (ok : Sound w.self) (paged : Paged w.self) (size align : Nat) :
    (slice size align).run w = (Unguarded.slice size align).run w := by
  refine Act.run_bind_congr rfl ?_
  intro _ w₁ haligned
  -- Judging the alignment leaves the world as it is.
  have hworld : w₁ = w := by
    cases ha : Checked.alignment align with
    | ok _ =>
        rw [ha] at haligned
        exact (Prod.mk.inj haligned).2.symm
    | error e =>
        rw [ha] at haligned
        cases (Prod.mk.inj haligned).1
  subst hworld
  refine Act.run_bind_congr rfl ?_
  intro base w₂ hbase
  -- A first use reserves the region, and that keeps the bookkeeping.
  obtain ⟨r, made, obtains, leads⟩ := obtainBase_obtains hbase
  have life := obtains.continues
  refine cut_eq_unguarded ?_ ?_ ?_
  · rw [leads.self]
    exact life.sound ok
  · rw [leads.self]
    exact life.paged ok paged
  · rw [leads.self]
    exact obtains.phase_of_ok

/-- Giving pages back needs one check, that of the threshold. -/
theorem trim_eq_unguarded (ok : Sound w.self) (hp : w.self.phase = .reserved base) :
    trim.run w = (Unguarded.trim base).run w := by
  simp only [trim, Unguarded.trim, Act.run_self_bind]
  by_cases hthreshold : w.self.thresholdBytes < Word.limit
  · have hbatch : w.self.tuning.batchPages * w.self.backend.pageSize < Word.limit :=
      Nat.lt_of_le_of_lt ok.batchBytes_le hthreshold
    simp only [Checked.mul_of_lt hthreshold, Checked.sub_of_le ok.cursor_le, Act.settle_ok,
      Act.run_pure_bind, Act.run_now_bind]
    split
    · rfl
    · rename_i hdue
      have hlow : w.self.tuning.batchPages * w.self.backend.pageSize ≤ w.self.committed :=
        ok.batchBytes_le_committed (Nat.not_le.mp fun hle => hdue (Or.inl hle))
      simp only [Checked.mul_of_lt hbatch, Checked.sub_of_le hlow, Act.settle_ok,
        Act.run_pure_bind, Act.run_bind_ok (currentBase_run hp)]
      rfl
  · simp only [Checked.mul_of_le (Nat.not_lt.mp hthreshold), Act.settle_error, Act.run_bind,
      Act.run_raise]

/-- A rollback does without its spare checks, whatever phase the region is in. -/
theorem rollback_eq_unguarded (ok : Sound w.self) (handle : Handle) :
    (rollback handle).run w = (Unguarded.rollback handle).run w := by
  refine Act.run_bind_congr rfl ?_
  intro base w₁ hbase
  obtain ⟨rfl, hp⟩ := phase_of_currentBase hbase
  simp only [Act.run_self_bind]
  cases hs : w₁.self.saved with
  | nil => rfl
  | cons cursor older =>
      simp only
      split
      · simp only [Act.run_bind, Act.run_update, Act.run_emit]
        exact trim_eq_unguarded (by exact ok.popped hs) (by exact hp)
      · rfl

/-! ### The checks one by one -/

/-- The checks of a reserved region that never fail: two of a slice, those of making pages
accessible up to an offset behind the boundary, and those of giving pages back. -/
structure Spare (r : Region) (base : Nat) : Prop where
  /-- The address of the cursor. -/
  here : Checked.add base r.cursor = .ok (base + r.cursor)
  /-- An address that was rounded up, counted from the base again. -/
  start : ∀ {align address : Nat}, Checked.roundUp (base + r.cursor) align = .ok address →
    Checked.sub address base = .ok (address - base)
  /-- The end of the page that is needed, and what is missing up to it, which is something. -/
  whole : ∀ {stop : Nat}, r.committed < stop → stop ≤ r.total →
    ∃ whole, Checked.roundUp stop r.backend.pageSize = .ok whole ∧ whole ≤ r.total ∧
      Checked.sub (min whole r.total) r.committed = .ok (whole - r.committed) ∧
      0 < whole - r.committed
  /-- The bytes that lie idle. -/
  idle : Checked.sub r.committed r.cursor = .ok (r.committed - r.cursor)
  /-- The bytes of a batch, if those of the threshold are a word. -/
  batch : ∀ {threshold : Nat},
    Checked.mul r.tuning.thresholdPages r.backend.pageSize = .ok threshold →
      Checked.mul r.tuning.batchPages r.backend.pageSize = .ok r.batchBytes
  /-- The boundary below a batch, if more than the threshold lies idle. -/
  boundary : r.thresholdBytes < r.committed - r.cursor →
    Checked.sub r.committed r.batchBytes = .ok (r.committed - r.batchBytes)
  /-- The base is still there when pages are given back. -/
  held : ∀ machine, currentBase.run ⟨machine, r⟩ = (.ok base, ⟨machine, r⟩)

theorem spare_of_sound (ok : Sound r) (paged : Paged r) (hp : r.phase = .reserved base) :
    Spare r base where
  here := Checked.add_of_lt (ok.here_lt hp)
  start := by
    intro align address h
    have hle := Word.le_of_roundUp? (Checked.roundUp_eq_ok_iff.mp h)
    exact Checked.sub_of_le (by omega)
  whole := by
    intro stop hstop htotal
    obtain ⟨hround, hwhole⟩ :=
      paged.roundUp?_page ok hp (Nat.lt_of_le_of_lt (Nat.zero_le _) hstop) htotal
    have hle := Word.le_of_roundUp? hround
    refine ⟨_, Checked.roundUp_of_some hround, hwhole, ?_, by omega⟩
    rw [Nat.min_eq_left hwhole]
    exact Checked.sub_of_le (by omega)
  idle := Checked.sub_of_le ok.cursor_le
  batch := by
    intro threshold h
    by_cases hfits : r.thresholdBytes < Word.limit
    · exact Checked.mul_of_lt (Nat.lt_of_le_of_lt ok.batchBytes_le hfits)
    · rw [Checked.mul_of_le (Nat.not_lt.mp hfits)] at h
      cases h
  boundary h := Checked.sub_of_le (ok.batchBytes_le_committed h)
  held _ := currentBase_run hp

/-! ### The overflows that are left -/

theorem answer_of_misaligned (h : Word.isPowerOfTwo align = false) :
    r.answer ⟨machine, .slice size align⟩ = .error (.invalidAlignment align) := by
  unfold answer meet
  simp only [Request.act, slice, Checked.alignment_of_not h, Act.settle_error, Act.run_bind,
    Act.run_raise]

/-- A slice of a reservation overflows exactly where the address of the cursor is rounded up or
the size is added, and with the overflow of that. -/
theorem slice_sizeOverflow_iff (ok : Sound r) (paged : Paged r) (hp : r.phase = .reserved base)
    (machine : Machine) (size align : Nat) (operation : Cause Arithmetic) :
    r.answer ⟨machine, .slice size align⟩ = .error (.sizeOverflow operation) ↔
      Word.isPowerOfTwo align = true ∧
        (Checked.roundUp (base + r.cursor) align = .error (.sizeOverflow operation) ∨
          ∃ address, Checked.roundUp (base + r.cursor) align = .ok address ∧
            Checked.add (address - base) size = .error (.sizeOverflow operation)) := by
  cases aligned : Word.isPowerOfTwo align with
  | false => simp [answer_of_misaligned aligned]
  | true =>
      have hbase := ok.base_pos base hp
      have hround := Word.roundUp?_of_pos aligned (show 0 < base + r.cursor by omega)
      have goes := goes_exactly ok paged hp aligned machine size
      simp only at goes
      generalize Word.ceil (base + r.cursor) align = address at goes hround
      by_cases haddress : Word.limit ≤ address
      · rw [if_pos haddress] at goes
        rw [if_neg (Nat.not_lt.mpr haddress)] at hround
        simp [goes.1, Checked.roundUp_of_none hround]
      rw [if_neg haddress] at goes
      rw [if_pos (Nat.not_le.mp haddress)] at hround
      by_cases hover : Word.limit ≤ address - base + size
      · rw [if_pos hover] at goes
        simp [goes.1, Checked.roundUp_of_some hround, Checked.add_of_le hover]
      rw [if_neg hover] at goes
      simp only [Checked.roundUp_of_some hround, Except.ok.injEq, reduceCtorEq, false_or,
        exists_eq_left', Checked.add_of_lt (Nat.not_le.mp hover), and_false, iff_false]
      split at goes
      · simp [goes.1]
      · split at goes
        · obtain ⟨errno, result, goes⟩ := goes
          simp [goes.1]
        · simp [goes.1]

/-- A rollback that is accepted overflows exactly where the threshold is multiplied. -/
theorem rollback_sizeOverflow_iff (ok : Sound r) (machine : Machine)
    (accepted : r.Accepts handle) (operation : Cause Arithmetic) :
    r.answer ⟨machine, .rollback handle⟩ = .error (.sizeOverflow operation) ↔
      Checked.mul r.tuning.thresholdPages r.backend.pageSize
        = .error (.sizeOverflow operation) := by
  obtain ⟨⟨base, hp⟩, hdepth⟩ := accepted
  have hmeets := meet_meets ok ⟨machine, .rollback handle⟩
  generalize r.answer ⟨machine, .rollback handle⟩ = answer at hmeets ⊢
  generalize r.after _ = r' at hmeets
  generalize r.calls _ = made at hmeets
  have measured : r.thresholdBytes < Word.limit →
      Checked.mul r.tuning.thresholdPages r.backend.pageSize
        ≠ .error (.sizeOverflow operation) := by
    intro fits h
    rw [Checked.mul_of_lt fits] at h
    cases h
  cases hmeets with
  | rollback h =>
      cases h with
      | unreserved h => exact absurd hp (h base)
      | stale phase h => exact absurd hdepth h
      | popped phase saved newest trims =>
          cases trims with
          | unmeasured h =>
              rw [Checked.mul_of_le h]
              simp [Except.map]
          | kept fits h => exact iff_of_false (by simp [Except.map]) (measured fits)
          | trimmed fits due => exact iff_of_false (by simp [Except.map]) (measured fits)
          | lost fits due uncommits =>
              refine iff_of_false ?_ (measured fits)
              cases uncommits with
              | unprotected errno => simp [Except.map]
              | kept errno => simp [Except.map]

/-- **Most checks of a region are spare.**  However a region came to be reserved, none of the
checks that `Spare` names can fail, neither before a slice nor when a rollback has brought the
cursor back and looks after idle pages; and without them both operations do the same, in the
answer, in the region and in everything around it.  So there are two overflows left of a slice,
that of rounding up the address of the cursor and that of adding the size, and one of a
rollback that is accepted, that of the threshold in bytes. -/
theorem spare_checks_never_fail (made : r₀.Made) (geometry : r₀.backend.toGeometry.Sound)
    (es : List Episode) (base : Nat) :
    let r := r₀.run es
    r.phase = .reserved base →
      Spare r base ∧
      (∀ cursor older, r.saved = cursor :: older →
        Spare { r with saved := older, cursor := cursor } base) ∧
      (∀ machine size align,
        (slice size align).run ⟨machine, r⟩ = (Unguarded.slice size align).run ⟨machine, r⟩) ∧
      (∀ machine handle,
        (rollback handle).run ⟨machine, r⟩ = (Unguarded.rollback handle).run ⟨machine, r⟩) ∧
      (∀ machine size align operation,
        r.answer ⟨machine, .slice size align⟩ = .error (.sizeOverflow operation) ↔
          Word.isPowerOfTwo align = true ∧
            (Checked.roundUp (base + r.cursor) align = .error (.sizeOverflow operation) ∨
              ∃ address, Checked.roundUp (base + r.cursor) align = .ok address ∧
                Checked.add (address - base) size = .error (.sizeOverflow operation))) ∧
      (∀ machine handle operation, r.Accepts handle →
        (r.answer ⟨machine, .rollback handle⟩ = .error (.sizeOverflow operation) ↔
          Checked.mul r.tuning.thresholdPages r.backend.pageSize
            = .error (.sizeOverflow operation))) := by
  intro r hp
  have life := run_continues made.sound es
  have ok : Sound r := life.sound made.sound
  have paged : Paged r := life.paged made.sound (made.paged geometry)
  refine ⟨spare_of_sound ok paged hp, ?_, ?_, ?_, ?_, ?_⟩
  · intro cursor older hs
    exact spare_of_sound (ok.popped hs) ⟨paged.geometry, paged.total, paged.committed⟩ hp
  · intro machine size align
    exact slice_eq_unguarded (by exact ok) (by exact paged) size align
  · intro machine handle
    exact rollback_eq_unguarded (by exact ok) handle
  · exact slice_sizeOverflow_iff ok paged hp
  · intro machine handle operation accepted
    exact rollback_sizeOverflow_iff ok machine accepted operation

/-- With the largest threshold, and 100 bytes taken above a checkpoint: the largest size is too
much to be added, and the rollback stops at the product of the threshold. -/
theorem spare_checks_of_neverIdle :
    let base := 0x100000000000
    let r := neverIdle.run [⟨{}, .checkpoint⟩, ⟨{}, .slice 100 1⟩]
    neverIdle.Made ∧ neverIdle.backend.toGeometry.Sound ∧ r.phase = .reserved base ∧
      Checked.sub r.committed r.cursor = .ok 3996 ∧ r.Accepts ⟨0⟩ ∧
      r.answer ⟨{}, .slice 0xffffffffffffffff 1⟩ = .error (.sizeOverflow Arithmetic.add) ∧
      r.answer ⟨{}, .rollback ⟨0⟩⟩ = .error (.sizeOverflow Arithmetic.mul) := by
  intro base r
  have geometry : neverIdle.backend.toGeometry.Sound := twoPages_geometry
  have hp : r.phase = .reserved base := by decide
  have accepted : r.Accepts ⟨0⟩ := ⟨⟨base, hp⟩, by decide⟩
  obtain ⟨spare, -, -, -, slices, rollsBack⟩ :=
    spare_checks_never_fail neverIdle_made geometry
      [⟨{}, .checkpoint⟩, ⟨{}, .slice 100 1⟩] base hp
  refine ⟨neverIdle_made, geometry, hp, spare.idle, accepted, ?_, ?_⟩
  · exact (slices {} _ 1 _).mpr ⟨by decide, Or.inr ⟨base + 100, by decide, by decide⟩⟩
  · exact (rollsBack {} ⟨0⟩ _ accepted).mpr (by decide)

end Region

end PageArena
