/-
Every operation leaves a region from which the next one can go on.

`Continues r r'` says that `r'` comes after `r` in the life of one region.  What it was made
with is the same, sound bookkeeping is sound again, whole pages are whole pages again, and
if `r` was closed then so is `r'`.  Steps of this kind follow on each other, so each way that
an operation can go is looked at once, and a whole operation, and then a whole run, is a
matter of putting steps together.
-/
import Mathlib
import PageArena.Proofs.Region.Course

namespace PageArena

open OsCall (Record)

namespace Region

/-- `r'` comes after `r` in the life of one region. -/
structure Continues (r r' : Region) : Prop where
  tuning : r'.tuning = r.tuning
  backend : r'.backend = r.backend
  total : r'.total = r.total
  sound : Sound r → Sound r'
  paged : Sound r → Paged r → Paged r'
  closed : r.phase = .closed → r'.phase = .closed

namespace Continues

variable {r r₁ r' : Region}

theorem refl (r : Region) : Continues r r :=
  ⟨rfl, rfl, rfl, id, fun _ => id, id⟩

theorem trans (first : Continues r r₁) (next : Continues r₁ r') : Continues r r' :=
  { tuning := next.tuning.trans first.tuning
    backend := next.backend.trans first.backend
    total := next.total.trans first.total
    sound := fun ok => next.sound (first.sound ok)
    paged := fun ok paged => next.paged (first.sound ok) (first.paged ok paged)
    closed := fun h => next.closed (first.closed h) }

end Continues

variable {r r' : Region} {clock base : Nat} {made : List Record}

/-- A reservation holds a whole number of pages. -/
theorem Paged.page_dvd_total (paged : Paged r) : r.backend.pageSize ∣ r.total :=
  Nat.dvd_trans paged.geometry.fit paged.total

/-- Rounding an offset up to a page stays in the reservation, so the total cuts nothing
off. -/
theorem Paged.boundary_eq_ceil (paged : Paged r) {stop whole : Nat} (htotal : stop ≤ r.total)
    (h : Word.roundUp? stop r.backend.pageSize = some whole) :
    min whole r.total = Word.ceil stop r.backend.pageSize := by
  have hceil := Word.eq_ceil_of_roundUp? paged.geometry.page h
  have hle : whole ≤ r.total := hceil ▸ Word.ceil_le htotal paged.page_dvd_total
  rw [Nat.min_eq_left hle, hceil]

theorem Paged.page_dvd_boundary (paged : Paged r) {stop whole : Nat} (htotal : stop ≤ r.total)
    (h : Word.roundUp? stop r.backend.pageSize = some whole) :
    r.backend.pageSize ∣ min whole r.total := by
  rw [paged.boundary_eq_ceil htotal h]
  exact Word.dvd_ceil stop r.backend.pageSize

theorem continues_abandoned (r : Region) : Continues r r.abandoned where
  tuning := rfl
  backend := rfl
  total := rfl
  sound ok :=
    { tuned := ok.tuned
      total_pos := ok.total_pos
      committed_le := ok.committed_le
      cursor_le := ok.cursor_le
      chain := by simp [abandoned]
      addressable := by simp [abandoned]
      base_pos := by simp [abandoned]
      unused := by simp [abandoned]
      unheld := fun _ => rfl }
  paged _ paged := ⟨paged.geometry, paged.total, paged.committed⟩
  closed _ := rfl

theorem Obtains.continues {answer : Except ArenaError Nat}
    (h : Obtains r clock answer r' made) : Continues r r' := by
  cases h with
  | held phase => exact .refl r
  | closed phase => exact .refl r
  | unreserved phase reserves => exact .refl r
  | unaddressable phase h => exact .refl r
  | @fresh base phase pos h =>
      refine ⟨rfl, rfl, rfl, ?_, ?_, ?_⟩
      · intro ok
        have hnil := ok.saved_nil (Or.inl phase)
        exact
          { tuned := ok.tuned
            total_pos := ok.total_pos
            committed_le := Nat.zero_le _
            cursor_le := Nat.le_refl _
            chain := by simp [hnil]
            addressable := by rintro _ ⟨⟩; exact h
            base_pos := by rintro _ ⟨⟩; exact pos
            unused := by simp
            unheld := fun hnone => absurd rfl (hnone base) }
      · intro _ paged
        exact ⟨paged.geometry, paged.total, Nat.dvd_zero _⟩
      · intro hc
        rw [phase] at hc
        cases hc

/-- A base is only ever answered by a region that then holds it. -/
theorem Obtains.phase_of_ok (h : Obtains r clock (.ok base) r' made) :
    r'.phase = .reserved base := by
  cases h with
  | held phase => exact phase
  | fresh phase pos h => rfl

theorem slice_slices {w w' : World Region} {size align : Nat} {answer : Except ArenaError Span}
    (ok : Sound w.self) (h : (slice size align).run w = (answer, w')) :
    ∃ r made, Slices size align w.self w.kernel.clock answer r made ∧ w.Leads w' r made := by
  simp only [slice] at h
  cases ha : Word.isPowerOfTwo align with
  | false =>
      rw [Checked.alignment_of_not ha] at h
      simp only [Act.settle_error, Act.run_bind, Act.run_raise] at h
      obtain ⟨rfl, rfl⟩ := Prod.mk.inj h
      exact ⟨_, _, .misaligned ha, (World.Leads.refl w).report _⟩
  | true =>
      rw [Checked.alignment_of_isPowerOfTwo ha, Act.settle_ok, Act.run_pure_bind] at h
      obtain ⟨base, w₁, hb, h⟩ | ⟨e, hb, rfl⟩ := Act.run_bind_cases h
      · obtain ⟨r, made, obtains, first⟩ := obtainBase_obtains hb
        have ok₁ : Sound w₁.self := by rw [first.self]; exact obtains.continues.sound ok
        have hp₁ : w₁.self.phase = .reserved base := by rw [first.self, obtains.phase_of_ok]
        obtain ⟨r', made', cuts, next⟩ := cut_cuts ok₁ hp₁ h
        rw [first.self] at cuts
        exact ⟨_, _, .obtained ha obtains cuts, first.trans next⟩
      · obtain ⟨r, made, obtains, first⟩ := obtainBase_obtains hb
        exact ⟨_, _, .unobtained ha obtains, first⟩

/-- A boundary that is moved up past a cursor stays in the reservation, and it is a whole
page again. -/
theorem Grows.continues {stop : Nat} {answer : Except ArenaError Unit}
    (hp : r.phase = .reserved base) (hstop : r.committed < stop) (htotal : stop ≤ r.total)
    (h : Grows r base stop answer r' made) : Continues r r' := by
  cases h with
  | unrounded h => exact .refl r
  | lost h => exact continues_abandoned r
  | @grown whole h =>
      have hwhole := Word.le_of_roundUp? h
      refine ⟨rfl, rfl, rfl, ?_, ?_, id⟩
      · intro ok
        have hcursor := ok.cursor_le
        exact
          { ok with
            committed_le := Nat.min_le_right _ _
            cursor_le := show r.cursor ≤ min whole r.total by omega
            unused := fun hu => by rw [hp] at hu; cases hu }
      · intro _ paged
        exact ⟨paged.geometry, paged.total, paged.page_dvd_boundary htotal h⟩

/-- A region that grew holds everything below the offset it was grown to. -/
theorem Grows.of_ok {stop : Nat} (htotal : stop ≤ r.total)
    (h : Grows r base stop (.ok ()) r' made) :
    stop ≤ r'.committed ∧ r'.cursor = r.cursor ∧ r'.phase = r.phase := by
  cases h with
  | @grown whole h =>
      have hwhole := Word.le_of_roundUp? h
      exact ⟨show stop ≤ min whole r.total by omega, rfl, rfl⟩

/-- Moving the cursor up below the boundary. -/
theorem continues_advanced {stop : Nat} (hp : r.phase = .reserved base)
    (hcursor : r.cursor ≤ stop) (hstop : stop ≤ r.committed) :
    Continues r { r with cursor := stop } := by
  refine ⟨rfl, rfl, rfl, ?_, fun _ paged => ⟨paged.geometry, paged.total, paged.committed⟩, id⟩
  intro ok
  have hchain := List.pairwise_cons.mp ok.chain
  exact
    { ok with
      cursor_le := hstop
      chain := by
        refine List.pairwise_cons.mpr ⟨?_, hchain.2⟩
        intro c hc
        exact Nat.le_trans (hchain.1 c hc) hcursor
      unused := fun hu => by rw [hp] at hu; cases hu }

theorem Cuts.continues {size align : Nat} {answer : Except ArenaError Span}
    (hp : r.phase = .reserved base) (h : Cuts size align base r answer r' made) :
    Continues r r' := by
  cases h with
  | unrounded h => exact .refl r
  | oversized rounded h => exact .refl r
  | unfit rounded h => exact .refl r
  | empty rounded fits h => exact .refl r
  | inside rounded pos h =>
      have hle := Word.le_of_roundUp? rounded
      exact continues_advanced hp (by omega) h
  | grown rounded pos past fits grows =>
      have hle := Word.le_of_roundUp? rounded
      obtain ⟨hstop, hcursor, hphase⟩ := grows.of_ok fits
      have advanced := continues_advanced (hphase.trans hp) (by omega) hstop
      exact (grows.continues hp past fits).trans advanced
  | ungrown rounded pos past fits grows => exact grows.continues hp past fits

theorem Slices.continues {size align : Nat} {answer : Except ArenaError Span}
    (h : Slices size align r clock answer r' made) : Continues r r' := by
  cases h with
  | misaligned h => exact .refl r
  | unobtained aligned obtains => exact obtains.continues
  | obtained aligned obtains cuts =>
      exact obtains.continues.trans (cuts.continues obtains.phase_of_ok)

theorem Checkpoints.continues {answer : Except ArenaError Handle}
    (h : Checkpoints r clock answer r' made) : Continues r r' := by
  cases h with
  | unobtained obtains => exact obtains.continues
  | @pushed base r₁ _ obtains =>
      refine obtains.continues.trans ⟨rfl, rfl, rfl, ?_, ?_, id⟩
      · intro ok
        have hp := obtains.phase_of_ok
        have hchain := List.pairwise_cons.mp ok.chain
        exact
          { ok with
            chain := by
              refine List.pairwise_cons.mpr ⟨?_, ok.chain⟩
              intro c hc
              rcases List.mem_cons.mp hc with rfl | hc
              · exact Nat.le_refl _
              · exact hchain.1 c hc
            unheld := fun hnone => absurd hp (hnone base) }
      · intro _ paged
        exact ⟨paged.geometry, paged.total, paged.committed⟩

/-- Pages are only given back from above the cursor: a batch is at most a threshold, and
more than a threshold lies idle. -/
theorem Sound.cursor_lt_of_due (ok : Sound r) (h : r.Due clock) :
    r.cursor < r.committed - r.batchBytes ∧ r.batchBytes ≤ r.committed := by
  have hbatch := ok.batchBytes_le
  have hidle := h.1
  omega

theorem Trims.continues {answer : Except ArenaError Unit} (ok : Sound r)
    (hp : r.phase = .reserved base) (h : Trims r clock base answer r' made) :
    Continues r r' := by
  cases h with
  | unmeasured h => exact .refl r
  | kept fits h => exact .refl r
  | lost fits due uncommits => exact continues_abandoned r
  | trimmed fits due =>
      obtain ⟨hcursor, hbatch⟩ := ok.cursor_lt_of_due due
      have hcommitted := ok.committed_le
      refine ⟨rfl, rfl, rfl, ?_, ?_, id⟩
      · intro _
        exact
          { ok with
            committed_le := Nat.le_trans (Nat.sub_le _ _) hcommitted
            cursor_le := Nat.le_of_lt hcursor
            unused := fun hu => by rw [hp] at hu; cases hu }
      · intro _ paged
        exact ⟨paged.geometry, paged.total,
          Nat.dvd_sub paged.committed (Nat.dvd_mul_left _ _)⟩

/-- Giving pages back touches neither stack nor cursor, unless the region is lost by it. -/
theorem Trims.of_not_closed {answer : Except ArenaError Unit}
    (h : Trims r clock base answer r' made) (hopen : r'.phase ≠ .closed) :
    r'.phase = r.phase ∧ r'.saved = r.saved ∧ r'.cursor = r.cursor := by
  cases h with
  | unmeasured h => exact ⟨rfl, rfl, rfl⟩
  | kept fits h => exact ⟨rfl, rfl, rfl⟩
  | trimmed fits due => exact ⟨rfl, rfl, rfl⟩
  | lost fits due uncommits => exact absurd rfl hopen

/-- The first use finds the cursor at zero and the stack empty, as it leaves them. -/
theorem Obtains.of_sound {answer : Except ArenaError Nat} (ok : Sound r)
    (h : Obtains r clock answer r' made) :
    r'.saved = r.saved ∧ r'.cursor = r.cursor ∧
      ∀ base, r.phase = .reserved base → r'.phase = .reserved base := by
  cases h with
  | held phase => exact ⟨rfl, rfl, fun _ => id⟩
  | closed phase => exact ⟨rfl, rfl, fun _ => id⟩
  | unreserved phase reserves => exact ⟨rfl, rfl, fun _ => id⟩
  | unaddressable phase h => exact ⟨rfl, rfl, fun _ => id⟩
  | fresh phase pos h =>
      refine ⟨rfl, (ok.unused phase).1.symm, ?_⟩
      intro base hbase
      rw [phase] at hbase
      cases hbase

/-- Taking memory leaves the stack alone and does not lower the cursor, unless the region is
lost by it. -/
theorem Cuts.of_not_closed {size align : Nat} {answer : Except ArenaError Span}
    (h : Cuts size align base r answer r' made) (hopen : r'.phase ≠ .closed) :
    r'.phase = r.phase ∧ r'.saved = r.saved ∧ r.cursor ≤ r'.cursor := by
  cases h with
  | unrounded h => exact ⟨rfl, rfl, Nat.le_refl _⟩
  | oversized rounded h => exact ⟨rfl, rfl, Nat.le_refl _⟩
  | unfit rounded h => exact ⟨rfl, rfl, Nat.le_refl _⟩
  | empty rounded fits h => exact ⟨rfl, rfl, Nat.le_refl _⟩
  | @inside address rounded pos h =>
      have hle := Word.le_of_roundUp? rounded
      exact ⟨rfl, rfl, show r.cursor ≤ address - base + size by omega⟩
  | @grown address _ _ rounded pos past fits grows =>
      have hle := Word.le_of_roundUp? rounded
      cases grows with
      | grown h => exact ⟨rfl, rfl, show r.cursor ≤ address - base + size by omega⟩
  | ungrown rounded pos past fits grows =>
      cases grows with
      | unrounded h => exact ⟨rfl, rfl, Nat.le_refl _⟩
      | lost h => exact absurd rfl hopen

/-- What is taken begins at the cursor or after it, and the cursor is at its end then. -/
theorem Cuts.of_ok {size align : Nat} {span : Span}
    (h : Cuts size align base r (.ok span) r' made) :
    base + r.cursor ≤ span.start ∧ span.length = size ∧
      (0 < size → base + r'.cursor = span.start + size) ∧ r'.phase = r.phase := by
  cases h with
  | empty rounded fits h =>
      refine ⟨Word.le_of_roundUp? rounded, rfl, ?_, rfl⟩
      intro hpos
      exact absurd h (Nat.ne_of_gt hpos)
  | @inside address rounded pos h =>
      have hle := Word.le_of_roundUp? rounded
      refine ⟨hle, rfl, fun _ => ?_, rfl⟩
      show base + (address - base + size) = address + size
      omega
  | @grown address _ _ rounded pos past fits grows =>
      have hle := Word.le_of_roundUp? rounded
      refine ⟨hle, rfl, fun _ => ?_, (grows.of_ok fits).2.2⟩
      show base + (address - base + size) = address + size
      omega

theorem Slices.of_not_closed {size align : Nat} {answer : Except ArenaError Span}
    (ok : Sound r) (h : Slices size align r clock answer r' made)
    (hopen : r'.phase ≠ .closed) :
    r'.saved = r.saved ∧ r.cursor ≤ r'.cursor ∧
      ∀ base, r.phase = .reserved base → r'.phase = .reserved base := by
  cases h with
  | misaligned h => exact ⟨rfl, Nat.le_refl _, fun _ => id⟩
  | unobtained aligned obtains =>
      obtain ⟨hsaved, hcursor, hphase⟩ := obtains.of_sound ok
      exact ⟨hsaved, Nat.le_of_eq hcursor.symm, hphase⟩
  | obtained aligned obtains cuts =>
      obtain ⟨hsaved, hcursor, hphase⟩ := obtains.of_sound ok
      obtain ⟨hphase', hsaved', hcursor'⟩ := cuts.of_not_closed hopen
      refine ⟨hsaved'.trans hsaved, hcursor ▸ hcursor', ?_⟩
      intro base hbase
      exact hphase'.trans (hphase base hbase)

theorem Slices.of_ok {size align : Nat} {span : Span} (ok : Sound r)
    (h : Slices size align r clock (.ok span) r' made) :
    ∃ base, r'.phase = .reserved base ∧ base + r.cursor ≤ span.start ∧ span.length = size ∧
      (0 < size → base + r'.cursor = span.start + size) := by
  cases h with
  | @obtained base _ _ _ _ _ aligned obtains cuts =>
      obtain ⟨hsaved, hcursor, -⟩ := obtains.of_sound ok
      obtain ⟨hstart, hlength, hstop, hphase⟩ := cuts.of_ok
      exact ⟨base, hphase.trans obtains.phase_of_ok, hcursor ▸ hstart, hlength, hstop⟩

theorem RollsBack.continues {handle : Handle} {answer : Except ArenaError Unit} (ok : Sound r)
    (h : RollsBack handle r clock answer r' made) : Continues r r' := by
  cases h with
  | unreserved h => exact .refl r
  | stale phase h => exact .refl r
  | @popped base cursor older _ _ _ phase saved newest trims =>
      have popped : Continues r { r with saved := older, cursor := cursor } :=
        ⟨rfl, rfl, rfl, fun ok => ok.popped saved,
          fun _ paged => ⟨paged.geometry, paged.total, paged.committed⟩, id⟩
      exact popped.trans (trims.continues (ok.popped saved) phase)

/-- Whatever closing answers, the region is closed. -/
theorem Closes.closed {answer : Except ArenaError Unit} (h : Closes r answer r' made) :
    r'.phase = .closed := by
  cases h with
  | again phase => exact phase
  | unused phase => exact rfl
  | released phase answered => exact rfl

theorem Closes.continues {answer : Except ArenaError Unit} (h : Closes r answer r' made) :
    Continues r r' := by
  cases h with
  | again phase => exact .refl r
  | released phase answered => exact continues_abandoned r
  | unused phase =>
      refine ⟨rfl, rfl, rfl, ?_, fun _ paged => ⟨paged.geometry, paged.total, paged.committed⟩,
        fun _ => rfl⟩
      intro ok
      exact
        { ok with
          addressable := by simp
          base_pos := by simp
          unused := by simp
          unheld := fun _ => ok.saved_nil (Or.inl phase) }

end Region

end PageArena
