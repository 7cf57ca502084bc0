/-
The ways an operation on a region can go.

For each operation a relation tells what it answers, which region it leaves, and which calls
it has made, given the region it found and the time.  One constructor is one way for the
operation to go, with what has to hold for it; a theorem beside the relation says that there
are no others.  What is proved of regions later goes through these cases and never opens an
operation again.

The relations are about sound regions, and so they have no cases for the arithmetic that
never fails on those: the sum of base and cursor, and the differences.
-/
import Mathlib
import PageArena.Proofs.Region.Sound
import PageArena.Proofs.SystemCall

namespace PageArena

open OsCall (Record)

namespace Region

variable {w w' : World Region} {base : Nat}

/-! ### The base -/

/-- How asking for the base can go. -/
inductive Obtains (r : Region) (clock : Nat) :
    Except ArenaError Nat → Region → List Record → Prop
  | held {base : Nat} (phase : r.phase = .reserved base) : Obtains r clock (.ok base) r []
  | closed (phase : r.phase = .closed) :
      Obtains r clock (.error (.invalidState StateFault.regionClosed)) r []
  | unreserved {e : ArenaError} {made : List Record} (phase : r.phase = .unreserved)
      (reserves : VirtualMemory.Reserves r.total (.error e) made) :
      Obtains r clock (.error e) r made
  /-- The mapping was made, but it reaches past the last address. -/
  | unaddressable {base : Nat} (phase : r.phase = .unreserved)
      (h : Word.limit ≤ base + r.total) :
      Obtains r clock (.error (.sizeOverflow Arithmetic.add)) r [.mmap r.total base]
  | fresh {base : Nat} (phase : r.phase = .unreserved) (pos : 0 < base)
      (h : base + r.total < Word.limit) :
      Obtains r clock (.ok base)
        { r with phase := .reserved base, cursor := 0, committed := 0, lastTrim := clock }
        [.mmap r.total base]

theorem obtainBase_obtains {answer : Except ArenaError Nat}
    (h : obtainBase.run w = (answer, w')) :
    ∃ r made, Obtains w.self w.kernel.clock answer r made ∧ w.Leads w' r made := by
  simp only [obtainBase, Act.run_bind, Act.run_self] at h
  cases hp : w.self.phase with
  | reserved base =>
      simp only [hp, Act.run_pure] at h
      obtain ⟨rfl, rfl⟩ := Prod.mk.inj h
      exact ⟨_, _, .held hp, .refl w⟩
  | closed =>
      simp only [hp, Act.run_raise] at h
      obtain ⟨rfl, rfl⟩ := Prod.mk.inj h
      exact ⟨_, _, .closed hp, (World.Leads.refl w).report _⟩
  | unreserved =>
      simp only [hp, reserve] at h
      simp only [Act.run_self_bind] at h
      obtain ⟨base, w₁, hr, h⟩ | ⟨e, hr, rfl⟩ := Act.run_bind_cases h
      · obtain ⟨made, hmade, first⟩ := VirtualMemory.reserve_reserves hr
        cases hmade with
        | placed pos =>
            by_cases hb : base + w.self.total < Word.limit
            · rw [Checked.add_of_lt hb] at h
              simp only [Act.settle_ok, Act.run_bind, Act.run_pure, Act.run_now,
                Act.run_update, Act.run_emit] at h
              obtain ⟨rfl, rfl⟩ := Prod.mk.inj h
              refine ⟨_, _, .fresh hp pos hb, ?_, first.calls, first.clock⟩
              rw [first.self, first.clock]
            · have hle := Nat.not_lt.mp hb
              rw [Checked.add_of_le hle] at h
              obtain ⟨rfl, rfl⟩ := Prod.mk.inj h
              exact ⟨_, _, .unaddressable hp hle, first.report _⟩
      · obtain ⟨made, hmade, first⟩ := VirtualMemory.reserve_reserves hr
        exact ⟨_, _, .unreserved hp hmade, first⟩

/-! ### Changes of pages -/

/-- Closing after a failure releases the whole reservation, and of a release that fails
nothing is heard but the report. -/
theorem abandon_leads {answer : Except ArenaError Unit} (hp : w.self.phase = .reserved base)
    (h : abandon.run w = (answer, w')) :
    answer = .ok () ∧
      ∃ result, w.Leads w' w.self.abandoned [.munmap base w.self.total result] := by
  simp only [abandon, Act.run_bind, Act.run_self, Act.run_update, hp, Act.run_attempt] at h
  generalize hr : (VirtualMemory.release base w.self.total).run _ = outcome at h
  obtain ⟨released, w₁⟩ := outcome
  obtain ⟨made, hmade, next⟩ := VirtualMemory.release_answered hr
  have whole : w.Leads w₁ w.self.abandoned made := ⟨next.self, next.calls, next.clock⟩
  cases hmade with
  | done =>
      obtain ⟨rfl, rfl⟩ := Prod.mk.inj h
      exact ⟨rfl, 0, whole⟩
  | failed errno =>
      obtain ⟨rfl, rfl⟩ := Prod.mk.inj h
      exact ⟨rfl, -errno, whole.report _⟩

/-- A change of pages is made, or the region is given up with the failure of the change. -/
theorem orAbandon_cases {change : Act ArenaError Region Unit} {answer : Except ArenaError Unit}
    {Way : Except ArenaError Unit → List Record → Prop} (hp : w.self.phase = .reserved base)
    (hchange : ∀ {answer w₁}, change.run w = (answer, w₁) →
      ∃ made, Way answer made ∧ w.Leads w₁ w.self made)
    (h : (orAbandon change).run w = (answer, w')) :
    (∃ made, Way (.ok ()) made ∧ answer = .ok () ∧ w.Leads w' w.self made) ∨
      ∃ e made result, Way (.error e) made ∧ answer = .error e ∧
        w.Leads w' w.self.abandoned (made ++ [.munmap base w.self.total result]) := by
  simp only [orAbandon, Act.run_bind, Act.run_attempt] at h
  rcases hc : change.run w with ⟨e | u, w₁⟩
  · obtain ⟨made, hmade, first⟩ := hchange hc
    simp only [hc, Act.run_bind] at h
    rcases ha : abandon.run w₁ with ⟨released, w₂⟩
    have hp₁ : w₁.self.phase = .reserved base := by rw [first.self, hp]
    obtain ⟨rfl, result, next⟩ := abandon_leads hp₁ ha
    rw [first.self] at next
    simp only [ha, Act.run_fail] at h
    obtain ⟨rfl, rfl⟩ := Prod.mk.inj h
    exact Or.inr ⟨e, made, result, hmade, rfl, first.trans next⟩
  · obtain ⟨made, hmade, first⟩ := hchange hc
    simp only [hc, Act.run_pure] at h
    obtain ⟨rfl, rfl⟩ := Prod.mk.inj h
    exact Or.inl ⟨made, hmade, rfl, first⟩

/-- How making a region accessible up to an offset can go. -/
inductive Grows (r : Region) (base stop : Nat) :
    Except ArenaError Unit → Region → List Record → Prop
  | unrounded (h : Word.roundUp? stop r.backend.pageSize = none) :
      Grows r base stop (.error (.sizeOverflow Arithmetic.roundUp)) r []
  | grown {whole : Nat} (h : Word.roundUp? stop r.backend.pageSize = some whole) :
      Grows r base stop (.ok ()) { r with committed := min whole r.total }
        [.mprotect (base + r.committed) (min whole r.total - r.committed) .readWrite 0]
  | lost {whole : Nat} {errno result : Int}
      (h : Word.roundUp? stop r.backend.pageSize = some whole) :
      Grows r base stop (.error (.osFailure OsCall.mprotect errno)) r.abandoned
        [.mprotect (base + r.committed) (min whole r.total - r.committed) .readWrite (-errno),
          .munmap base r.total result]

theorem commitTo_grows {stop : Nat} {answer : Except ArenaError Unit}
    (hp : w.self.phase = .reserved base) (hstop : w.self.committed < stop)
    (htotal : stop ≤ w.self.total) (h : (commitTo base stop).run w = (answer, w')) :
    ∃ r made, Grows w.self base stop answer r made ∧ w.Leads w' r made := by
  simp only [commitTo, Act.run_self_bind] at h
  rcases hr : Word.roundUp? stop w.self.backend.pageSize with _ | whole
  · rw [Checked.roundUp_of_none hr] at h
    simp only [Act.settle_error, Act.run_bind, Act.run_raise] at h
    obtain ⟨rfl, rfl⟩ := Prod.mk.inj h
    exact ⟨_, _, .unrounded hr, (World.Leads.refl w).report _⟩
  · have hle := Word.le_of_roundUp? hr
    rw [Checked.roundUp_of_some hr, Act.settle_ok, Act.run_bind, Act.run_pure] at h
    simp only [Checked.sub_of_le (show w.self.committed ≤ min whole w.self.total by omega),
      Act.settle_ok, Act.run_pure_bind] at h
    obtain ⟨u, w₁, hg, h⟩ | ⟨e, hg, rfl⟩ := Act.run_bind_cases h
    · obtain ⟨made, hmade, -, next⟩ | ⟨e, made, result, -, he, -⟩ :=
        orAbandon_cases hp VirtualMemory.commit_answered hg
      · cases hmade
        simp only [Act.run_bind, Act.run_emit, Act.run_update] at h
        obtain ⟨rfl, rfl⟩ := Prod.mk.inj h
        refine ⟨_, _, .grown hr, ?_, next.calls, next.clock⟩
        rw [next.self]
      · cases he
    · obtain ⟨made, -, he, -⟩ | ⟨e', made, result, hmade, he, next⟩ :=
        orAbandon_cases hp VirtualMemory.commit_answered hg
      · cases he
      · obtain rfl := Except.error.inj he
        cases hmade with
        | failed errno => exact ⟨_, _, .lost hr, next⟩

theorem currentBase_run (hp : w.self.phase = .reserved base) :
    currentBase.run w = (.ok base, w) := by
  simp only [currentBase, Act.run_bind, Act.run_self, hp, Act.run_pure]

/-- Only a reservation has a base, and looking for it changes nothing. -/
theorem phase_of_currentBase (h : currentBase.run w = (.ok base, w')) :
    w' = w ∧ w.self.phase = .reserved base := by
  cases hp : w.self.phase with
  | reserved other =>
      rw [currentBase_run hp] at h
      obtain ⟨hbase, rfl⟩ := Prod.mk.inj h
      obtain rfl := Except.ok.inj hbase
      exact ⟨rfl, rfl⟩
  | unreserved =>
      simp only [currentBase, Act.run_self_bind, hp, Act.run_raise] at h
      cases (Prod.mk.inj h).1
  | closed =>
      simp only [currentBase, Act.run_self_bind, hp, Act.run_raise] at h
      cases (Prod.mk.inj h).1

/-- Whether pages are to be given back: more bytes lie idle than may, and long enough. -/
def Due (r : Region) (clock : Nat) : Prop :=
  r.thresholdBytes < r.committed - r.cursor ∧
    r.tuning.cooldown.nanoseconds ≤ clock - r.lastTrim

/-- How giving idle pages back can go. -/
inductive Trims (r : Region) (clock base : Nat) :
    Except ArenaError Unit → Region → List Record → Prop
  | unmeasured (h : Word.limit ≤ r.thresholdBytes) :
      Trims r clock base (.error (.sizeOverflow Arithmetic.mul)) r []
  | kept (fits : r.thresholdBytes < Word.limit) (h : ¬ r.Due clock) :
      Trims r clock base (.ok ()) r []
  | trimmed (fits : r.thresholdBytes < Word.limit) (due : r.Due clock) :
      Trims r clock base (.ok ())
        { r with committed := r.committed - r.batchBytes, lastTrim := clock }
        [.mprotect (base + (r.committed - r.batchBytes)) r.batchBytes .noAccess 0,
          .madvise (base + (r.committed - r.batchBytes)) r.batchBytes 0]
  | lost {e : ArenaError} {made : List Record} {result : Int}
      (fits : r.thresholdBytes < Word.limit) (due : r.Due clock)
      (uncommits : VirtualMemory.Uncommits (base + (r.committed - r.batchBytes)) r.batchBytes
        (.error e) made) :
      Trims r clock base (.error e) r.abandoned (made ++ [.munmap base r.total result])

theorem trim_trims {answer : Except ArenaError Unit} (ok : Sound w.self)
    (hp : w.self.phase = .reserved base) (h : trim.run w = (answer, w')) :
    ∃ r made, Trims w.self w.kernel.clock base answer r made ∧ w.Leads w' r made := by
  simp only [trim, Act.run_self_bind] at h
  by_cases ht : w.self.thresholdBytes < Word.limit
  · have hidle := ok.cursor_le
    simp only [Checked.mul_of_lt ht, Checked.sub_of_le hidle, Act.settle_ok,
      Act.run_pure_bind, Act.run_now_bind] at h
    split at h
    · rename_i hkept
      obtain ⟨rfl, rfl⟩ := Prod.mk.inj h
      refine ⟨_, _, .kept ht ?_, .refl w⟩
      rintro ⟨hi, hc⟩
      rcases hkept with hk | hk
      · exact absurd hk (Nat.not_le.mpr hi)
      · exact absurd hk (Nat.not_lt.mpr hc)
    · rename_i hdue
      simp only [not_or, Nat.not_le, Nat.not_lt] at hdue
      have hb : w.self.tuning.batchPages * w.self.backend.pageSize < Word.limit :=
        Nat.lt_of_le_of_lt ok.batchBytes_le ht
      have hlow : w.self.tuning.batchPages * w.self.backend.pageSize ≤ w.self.committed :=
        ok.batchBytes_le_committed hdue.1
      simp only [Checked.mul_of_lt hb, Checked.sub_of_le hlow, Act.settle_ok,
        Act.run_pure_bind, Act.run_bind_ok (currentBase_run hp)] at h
      obtain ⟨u, w₁, hg, h⟩ | ⟨e, hg, rfl⟩ := Act.run_bind_cases h
      · obtain ⟨made, hmade, -, next⟩ | ⟨e, made, result, -, he, -⟩ :=
          orAbandon_cases hp VirtualMemory.uncommit_uncommits hg
        · cases hmade
          simp only [Act.run_bind, Act.run_emit, Act.run_now, Act.run_update] at h
          obtain ⟨rfl, rfl⟩ := Prod.mk.inj h
          refine ⟨_, _, .trimmed ht hdue, ?_, next.calls, next.clock⟩
          rw [next.self, next.clock]
          rfl
        · cases he
      · obtain ⟨made, -, he, -⟩ | ⟨e', made, result, hmade, he, next⟩ :=
          orAbandon_cases hp VirtualMemory.uncommit_uncommits hg
        · cases he
        · obtain rfl := Except.error.inj he
          exact ⟨_, _, .lost ht hdue hmade, next⟩
  · have hle := Nat.not_lt.mp ht
    rw [Checked.mul_of_le hle] at h
    simp only [Act.settle_error, Act.run_bind, Act.run_raise] at h
    obtain ⟨rfl, rfl⟩ := Prod.mk.inj h
    exact ⟨_, _, .unmeasured hle, (World.Leads.refl w).report _⟩

/-! ### The operations -/

/-- How putting the cursor by can go. -/
inductive Checkpoints (r : Region) (clock : Nat) :
    Except ArenaError Handle → Region → List Record → Prop
  | unobtained {e : ArenaError} {r₁ : Region} {made : List Record}
      (obtains : Obtains r clock (.error e) r₁ made) :
      Checkpoints r clock (.error e) r₁ made
  | pushed {base : Nat} {r₁ : Region} {made : List Record}
      (obtains : Obtains r clock (.ok base) r₁ made) :
      Checkpoints r clock (.ok ⟨r₁.depth⟩) { r₁ with saved := r₁.cursor :: r₁.saved } made

theorem checkpoint_checkpoints {answer : Except ArenaError Handle}
    (h : checkpoint.run w = (answer, w')) :
    ∃ r made, Checkpoints w.self w.kernel.clock answer r made ∧ w.Leads w' r made := by
  simp only [checkpoint] at h
  obtain ⟨base, w₁, hb, h⟩ | ⟨e, hb, rfl⟩ := Act.run_bind_cases h
  · obtain ⟨r, made, obtains, first⟩ := obtainBase_obtains hb
    simp only [Act.run_bind, Act.run_self, Act.run_update, Act.run_pure] at h
    obtain ⟨rfl, rfl⟩ := Prod.mk.inj h
    refine ⟨_, _, ?_, first.change _⟩
    rw [first.self]
    exact .pushed obtains
  · obtain ⟨r, made, obtains, first⟩ := obtainBase_obtains hb
    exact ⟨_, _, .unobtained obtains, first⟩

/-- How bringing the cursor back can go. -/
inductive RollsBack (handle : Handle) (r : Region) (clock : Nat) :
    Except ArenaError Unit → Region → List Record → Prop
  | unreserved {why : StateFault} (h : ∀ base, r.phase ≠ .reserved base) :
      RollsBack handle r clock (.error (.invalidState why)) r []
  | stale {base : Nat} (phase : r.phase = .reserved base) (h : r.depth ≠ handle.index + 1) :
      RollsBack handle r clock
        (.error (.invalidState (StateFault.staleHandle handle.index r.depth))) r []
  /-- The newest checkpoint is off the stack and the cursor back when idle pages are seen to. -/
  | popped {base cursor : Nat} {older : List Nat} {answer : Except ArenaError Unit}
      {r' : Region} {made : List Record} (phase : r.phase = .reserved base)
      (saved : r.saved = cursor :: older) (newest : older.length = handle.index)
      (trims : Trims { r with saved := older, cursor := cursor } clock base answer r' made) :
      RollsBack handle r clock answer r' made

theorem rollback_rollsBack {handle : Handle} {answer : Except ArenaError Unit}
    (ok : Sound w.self) (h : (rollback handle).run w = (answer, w')) :
    ∃ r made, RollsBack handle w.self w.kernel.clock answer r made ∧ w.Leads w' r made := by
  simp only [rollback] at h
  cases hp : w.self.phase with
  | unreserved =>
      simp only [currentBase, Act.run_bind, Act.run_self, hp, Act.run_raise] at h
      obtain ⟨rfl, rfl⟩ := Prod.mk.inj h
      exact ⟨_, _, .unreserved (by simp [hp]), (World.Leads.refl w).report _⟩
  | closed =>
      simp only [currentBase, Act.run_bind, Act.run_self, hp, Act.run_raise] at h
      obtain ⟨rfl, rfl⟩ := Prod.mk.inj h
      exact ⟨_, _, .unreserved (by simp [hp]), (World.Leads.refl w).report _⟩
  | reserved base =>
      rw [Act.run_bind_ok (currentBase_run hp)] at h
      simp only [Act.run_self_bind] at h
      cases hs : w.self.saved with
      | nil =>
          simp only [hs, Act.run_raise] at h
          obtain ⟨rfl, rfl⟩ := Prod.mk.inj h
          exact ⟨_, _, .stale hp (by simp [depth, hs]), (World.Leads.refl w).report _⟩
      | cons cursor older =>
          simp only [hs] at h
          by_cases hd : w.self.depth = handle.index + 1
          · simp only [hd, if_true, Act.run_bind, Act.run_update, Act.run_emit] at h
            have newest : older.length = handle.index := by simpa [depth, hs] using hd
            obtain ⟨r, made, trims, next⟩ := trim_trims (by exact ok.popped hs) (by exact hp) h
            exact ⟨r, made, .popped hp hs newest trims, next.self, next.calls, next.clock⟩
          · simp only [hd, if_false, Act.run_raise] at h
            obtain ⟨rfl, rfl⟩ := Prod.mk.inj h
            exact ⟨_, _, .stale hp hd, (World.Leads.refl w).report _⟩

/-- How closing can go. -/
inductive Closes (r : Region) : Except ArenaError Unit → Region → List Record → Prop
  | again (phase : r.phase = .closed) :
      Closes r (.error (.invalidState StateFault.regionAlreadyClosed)) r []
  | unused (phase : r.phase = .unreserved) : Closes r (.ok ()) { r with phase := .closed } []
  | released {base : Nat} {answer : Except ArenaError Unit} {made : List Record}
      (phase : r.phase = .reserved base)
      (answered : VirtualMemory.Answered OsCall.munmap (.munmap base r.total) answer made) :
      Closes r answer r.abandoned made

theorem close_closes {answer : Except ArenaError Unit} (h : close.run w = (answer, w')) :
    ∃ r made, Closes w.self answer r made ∧ w.Leads w' r made := by
  simp only [close, Act.run_bind, Act.run_self, Act.run_update] at h
  cases hp : w.self.phase with
  | closed =>
      simp only [hp, Act.run_raise] at h
      obtain ⟨rfl, rfl⟩ := Prod.mk.inj h
      have same : { w.self with phase := .closed } = w.self := by rw [← hp]
      exact ⟨_, _, .again hp, same, by simp, rfl⟩
  | unreserved =>
      simp only [hp, Act.run_pure] at h
      obtain ⟨rfl, rfl⟩ := Prod.mk.inj h
      exact ⟨_, _, .unused hp, (World.Leads.refl w).change _⟩
  | reserved base =>
      simp only [hp, Act.run_bind, Act.run_update, Act.run_emit] at h
      obtain ⟨made, hmade, next⟩ := VirtualMemory.release_answered h
      exact ⟨_, _, .released hp hmade, next.self, next.calls, next.clock⟩

/-- How taking memory from a region can go once its base is known. -/
inductive Cuts (size align base : Nat) (r : Region) :
    Except ArenaError Span → Region → List Record → Prop
  | unrounded (h : Word.roundUp? (base + r.cursor) align = none) :
      Cuts size align base r (.error (.sizeOverflow Arithmetic.roundUp)) r []
  | oversized {address : Nat} (rounded : Word.roundUp? (base + r.cursor) align = some address)
      (h : Word.limit ≤ address - base + size) :
      Cuts size align base r (.error (.sizeOverflow Arithmetic.add)) r []
  | unfit {address : Nat} (rounded : Word.roundUp? (base + r.cursor) align = some address)
      (h : r.total < address - base + size) :
      Cuts size align base r (.error (.outOfBounds (address - base + size) r.total)) r []
  | empty {address : Nat} (rounded : Word.roundUp? (base + r.cursor) align = some address)
      (fits : address - base + size ≤ r.total) (h : size = 0) :
      Cuts size align base r (.ok ⟨address, size⟩) r []
  | inside {address : Nat} (rounded : Word.roundUp? (base + r.cursor) align = some address)
      (pos : 0 < size) (h : address - base + size ≤ r.committed) :
      Cuts size align base r (.ok ⟨address, size⟩)
        { r with cursor := address - base + size } []
  | grown {address : Nat} {r₁ : Region} {made : List Record}
      (rounded : Word.roundUp? (base + r.cursor) align = some address)
      (pos : 0 < size) (past : r.committed < address - base + size)
      (fits : address - base + size ≤ r.total)
      (grows : Grows r base (address - base + size) (.ok ()) r₁ made) :
      Cuts size align base r (.ok ⟨address, size⟩)
        { r₁ with cursor := address - base + size } made
  | ungrown {address : Nat} {e : ArenaError} {r₁ : Region} {made : List Record}
      (rounded : Word.roundUp? (base + r.cursor) align = some address)
      (pos : 0 < size) (past : r.committed < address - base + size)
      (fits : address - base + size ≤ r.total)
      (grows : Grows r base (address - base + size) (.error e) r₁ made) :
      Cuts size align base r (.error e) r₁ made

/-- How taking memory can go. -/
inductive Slices (size align : Nat) (r : Region) (clock : Nat) :
    Except ArenaError Span → Region → List Record → Prop
  | misaligned (h : Word.isPowerOfTwo align = false) :
      Slices size align r clock (.error (.invalidAlignment align)) r []
  | unobtained {e : ArenaError} {r₁ : Region} {made : List Record}
      (aligned : Word.isPowerOfTwo align = true)
      (obtains : Obtains r clock (.error e) r₁ made) :
      Slices size align r clock (.error e) r₁ made
  | obtained {base : Nat} {r₁ r' : Region} {made made' : List Record}
      {answer : Except ArenaError Span} (aligned : Word.isPowerOfTwo align = true)
      (obtains : Obtains r clock (.ok base) r₁ made)
      (cuts : Cuts size align base r₁ answer r' made') :
      Slices size align r clock answer r' (made ++ made')

theorem cut_cuts {size align : Nat} {answer : Except ArenaError Span} (ok : Sound w.self)
    (hp : w.self.phase = .reserved base) (h : (cut base size align).run w = (answer, w')) :
    ∃ r made, Cuts size align base w.self answer r made ∧ w.Leads w' r made := by
  simp only [cut, Act.run_self_bind, Checked.add_of_lt (ok.here_lt hp), Act.settle_ok,
    Act.run_pure_bind] at h
  rcases hr : Word.roundUp? (base + w.self.cursor) align with _ | address
  · rw [Checked.roundUp_of_none hr] at h
    simp only [Act.settle_error, Act.run_bind, Act.run_raise] at h
    obtain ⟨rfl, rfl⟩ := Prod.mk.inj h
    exact ⟨_, _, .unrounded hr, (World.Leads.refl w).report _⟩
  · have hle : base ≤ address := Nat.le_trans (Nat.le_add_right _ _) (Word.le_of_roundUp? hr)
    rw [Checked.roundUp_of_some hr, Act.settle_ok, Act.run_bind, Act.run_pure] at h
    simp only [Checked.sub_of_le hle, Act.settle_ok, Act.run_pure_bind,
      Nat.add_sub_cancel' hle] at h
    by_cases hs : address - base + size < Word.limit
    · rw [Checked.add_of_lt hs, Act.settle_ok, Act.run_bind, Act.run_pure] at h
      simp only at h
      split at h
      · rename_i hunfit
        obtain ⟨rfl, rfl⟩ := Prod.mk.inj h
        exact ⟨_, _, .unfit hr hunfit, (World.Leads.refl w).report _⟩
      · rename_i hfits
        have hfits := Nat.not_lt.mp hfits
        split at h
        · rename_i hzero
          obtain ⟨rfl, rfl⟩ := Prod.mk.inj h
          exact ⟨_, _, .empty hr hfits hzero, .refl w⟩
        · rename_i hpos
          have hpos := Nat.pos_of_ne_zero hpos
          split at h
          · rename_i hpast
            obtain ⟨u, w₁, hg, h⟩ | ⟨e, hg, rfl⟩ := Act.run_bind_cases h
            · obtain ⟨r, made, grows, first⟩ := commitTo_grows hp hpast hfits hg
              simp only [Act.run_bind, Act.run_update, Act.run_pure] at h
              obtain ⟨rfl, rfl⟩ := Prod.mk.inj h
              refine ⟨_, _, .grown hr hpos hpast hfits grows, ?_, first.calls, first.clock⟩
              rw [first.self]
            · obtain ⟨r, made, grows, first⟩ := commitTo_grows hp hpast hfits hg
              exact ⟨_, _, .ungrown hr hpos hpast hfits grows, first⟩
          · rename_i hinside
            have hinside := Nat.not_lt.mp hinside
            simp only [Act.run_bind, Act.run_update, Act.run_pure] at h
            obtain ⟨rfl, rfl⟩ := Prod.mk.inj h
            exact ⟨_, _, .inside hr hpos hinside, (World.Leads.refl w).change _⟩
    · have hover := Nat.not_lt.mp hs
      rw [Checked.add_of_le hover] at h
      simp only [Act.settle_error, Act.run_bind, Act.run_raise] at h
      obtain ⟨rfl, rfl⟩ := Prod.mk.inj h
      exact ⟨_, _, .oversized hr hover, (World.Leads.refl w).report _⟩

end Region

end PageArena
