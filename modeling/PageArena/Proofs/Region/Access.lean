/-
The boundary of a region is the boundary of its accessible memory.

The operating system keeps an account of its own: which bytes can be read and written.  A
region never asks for that account.  It keeps one number, and the two have to agree, for a
span below a boundary that is too high is memory that cannot be touched.

What is assumed of the operating system is `Alters`: a call that succeeds changes the range
it was given and nothing else.  Of a call that fails nothing is assumed at all, not even
that the other bytes stay as they were, since a region gives itself up after such a call
and then makes no statement about its bytes any more.

`run_access` says three things of every run.  The accounts agree.  Every call that makes
pages accessible continues the committed ones, and every call that takes pages away takes
the uppermost of them, in whole pages and never from below the cursor.  And the boundary is
never higher than the highest cursor made it.
-/
import Mathlib
import PageArena.Proofs.Region.Run

namespace PageArena

namespace OsCall

/-- The bytes of a range. -/
def range (address length : Nat) : Set Nat := Set.Ico address (address + length)

/-- What a call does to the bytes that can be read and written. -/
def Record.Alters : Record → Set Nat → Set Nat → Prop
  | .mmap length result, before, after =>
    0 ≤ result → after = before \ range result.toNat length
  | .mprotect address length .readWrite result, before, after =>
    result = 0 → after = before ∪ range address length
  | .mprotect address length .noAccess result, before, after =>
    result = 0 → after = before \ range address length
  | .madvise _ _ result, before, after => result = 0 → after = before
  | .munmap address length result, before, after =>
    result = 0 → after = before \ range address length

/-- What calls do one after the other. -/
def AltersAll : List Record → Set Nat → Set Nat → Prop
  | [], before, after => after = before
  | call :: calls, before, after =>
    ∃ between, call.Alters before between ∧ AltersAll calls between after

theorem altersAll_append {first next : List Record} {before after : Set Nat} :
    AltersAll (first ++ next) before after ↔
      ∃ between, AltersAll first before between ∧ AltersAll next between after := by
  induction first generalizing before with
  | nil => simp [AltersAll]
  | cons call first ih =>
      simp only [List.cons_append, AltersAll, ih]
      constructor
      · rintro ⟨s, hs, t, ht, hnext⟩
        exact ⟨t, ⟨s, hs, ht⟩, hnext⟩
      · rintro ⟨t, ⟨s, hs, ht⟩, hnext⟩
        exact ⟨s, hs, t, ht, hnext⟩

end OsCall

open OsCall (Record AltersAll)

namespace Region

/-- The calls of a whole run. -/
def history (r : Region) : List Episode → List Record
  | [] => []
  | e :: es => r.calls e ++ (r.after e).history es

/-- The highest cursor of a run. -/
def peak (r : Region) : List Episode → Nat
  | [] => r.cursor
  | e :: es => max r.cursor ((r.after e).peak es)

variable {r r₀ r₁ r' : Region} {clock base : Nat} {made : List Record} {s s' : Set Nat}

/-! ### The accounts agree -/

/-- Of the bytes of a reservation those below the boundary can be read and written. -/
def Mirrors (r : Region) (accessible : Set Nat) : Prop :=
  ∀ base, r.phase = .reserved base →
    ∀ x, base ≤ x → x < base + r.total → (x ∈ accessible ↔ x < base + r.committed)

namespace Mirrors

/-- Nothing has to agree where there is no reservation. -/
theorem of_not_reserved (h : ∀ base, r.phase ≠ .reserved base) : Mirrors r s :=
  fun base hb => absurd hb (h base)

theorem of_closed (h : r.phase = .closed) : Mirrors r s :=
  of_not_reserved (by simp [h])

theorem eq (ok : Sound r) (h : Mirrors r s) (hp : r.phase = .reserved base) :
    s ∩ OsCall.range base r.total = OsCall.range base r.committed := by
  have hle := ok.committed_le
  ext x
  simp only [OsCall.range, Set.mem_inter_iff, Set.mem_Ico]
  constructor
  · rintro ⟨hx, hlow, hhigh⟩
    exact ⟨hlow, (h base hp x hlow hhigh).mp hx⟩
  · rintro ⟨hlow, hhigh⟩
    have htotal : x < base + r.total := by omega
    exact ⟨(h base hp x hlow htotal).mpr hhigh, hlow, htotal⟩

end Mirrors

theorem Obtains.mirrors {answer : Except ArenaError Nat} (h : Obtains r clock answer r' made)
    (before : Mirrors r s) (alters : AltersAll made s s') : Mirrors r' s' := by
  cases h with
  | held phase =>
      obtain rfl := alters
      exact before
  | closed phase => exact .of_closed phase
  | unreserved phase reserves => exact .of_not_reserved (by simp [phase])
  | unaddressable phase h => exact .of_not_reserved (by simp [phase])
  | @fresh base phase pos h =>
      obtain ⟨_, hmap, rfl⟩ := alters
      rintro _ ⟨⟩ x hlow hhigh
      have hhigh : x < base + r.total := hhigh
      -- A fresh mapping has no access at all, and the boundary is at its base.
      rw [hmap (Int.natCast_nonneg base), OsCall.range, Int.toNat_natCast]
      show x ∈ s \ Set.Ico base (base + r.total) ↔ x < base + 0
      simp only [Set.mem_sdiff, Set.mem_Ico]
      omega

theorem Grows.mirrors {stop : Nat} {answer : Except ArenaError Unit}
    (hp : r.phase = .reserved base) (hstop : r.committed < stop) (htotal : stop ≤ r.total)
    (h : Grows r base stop answer r' made) (before : Mirrors r s)
    (alters : AltersAll made s s') : Mirrors r' s' := by
  cases h with
  | unrounded h =>
      obtain rfl := alters
      exact before
  | lost h => exact .of_closed rfl
  | @grown whole h =>
      have hwhole := Word.le_of_roundUp? h
      have hle : r.committed ≤ min whole r.total := by omega
      obtain ⟨_, hprotect, rfl⟩ := alters
      intro base' hp' x hlow hhigh
      obtain rfl := Phase.reserved.inj (hp.symm.trans hp')
      have old := before base hp x hlow hhigh
      rw [hprotect rfl, OsCall.range]
      show x ∈ s ∪ Set.Ico _ _ ↔ x < base + min whole r.total
      simp only [Set.mem_union, Set.mem_Ico, old]
      omega

theorem Trims.mirrors {answer : Except ArenaError Unit} (ok : Sound r)
    (hp : r.phase = .reserved base) (h : Trims r clock base answer r' made)
    (before : Mirrors r s) (alters : AltersAll made s s') : Mirrors r' s' := by
  cases h with
  | unmeasured h =>
      obtain rfl := alters
      exact before
  | kept fits h =>
      obtain rfl := alters
      exact before
  | lost fits due uncommits => exact .of_closed rfl
  | trimmed fits due =>
      have hbatch := (ok.cursor_lt_of_due due).2
      obtain ⟨_, hprotect, _, hadvise, rfl⟩ := alters
      intro base' hp' x hlow hhigh
      obtain rfl := Phase.reserved.inj (hp.symm.trans hp')
      have old := before base hp x hlow hhigh
      -- Giving the contents up is no change of access, so only the protection counts.
      rw [hadvise rfl, hprotect rfl, OsCall.range]
      show x ∈ s \ Set.Ico _ _ ↔ x < base + (r.committed - r.batchBytes)
      simp only [Set.mem_sdiff, Set.mem_Ico, old]
      omega

theorem Cuts.mirrors {size align : Nat} {answer : Except ArenaError Span}
    (hp : r.phase = .reserved base) (h : Cuts size align base r answer r' made)
    (before : Mirrors r s) (alters : AltersAll made s s') : Mirrors r' s' := by
  cases h with
  | grown rounded pos past fits grows =>
      have grown := grows.mirrors hp past fits before alters
      exact grown
  | ungrown rounded pos past fits grows => exact grows.mirrors hp past fits before alters
  | inside rounded pos h =>
      obtain rfl := alters
      exact before
  | unrounded h => obtain rfl := alters; exact before
  | oversized rounded h => obtain rfl := alters; exact before
  | unfit rounded h => obtain rfl := alters; exact before
  | empty rounded fits h => obtain rfl := alters; exact before

/-- One episode keeps the accounts in agreement. -/
theorem Meets.mirrors {request : Request} {answer : Except ArenaError Reply} (ok : Sound r)
    (h : Meets r clock request answer r' made) (before : Mirrors r s)
    (alters : AltersAll made s s') : Mirrors r' s' := by
  cases h with
  | slice h =>
      cases h with
      | misaligned h =>
          obtain rfl := alters
          exact before
      | unobtained aligned obtains => exact obtains.mirrors before alters
      | obtained aligned obtains cuts =>
          obtain ⟨t, first, next⟩ := OsCall.altersAll_append.mp alters
          exact cuts.mirrors obtains.phase_of_ok (obtains.mirrors before first) next
  | checkpoint h =>
      cases h with
      | unobtained obtains => exact obtains.mirrors before alters
      | pushed obtains => exact obtains.mirrors before alters
  | rollback h =>
      cases h with
      | unreserved h => exact .of_not_reserved h
      | stale phase h =>
          obtain rfl := alters
          exact before
      | popped phase saved newest trims =>
          exact trims.mirrors (ok.popped saved) phase before alters
  | close h =>
      cases h with
      | again phase => exact .of_closed phase
      | unused phase => exact .of_closed rfl
      | released phase answered => exact .of_closed rfl

/-- A whole run keeps the accounts in agreement. -/
theorem run_mirrors (ok : Sound r) (es : List Episode) (before : Mirrors r s)
    (alters : AltersAll (r.history es) s s') : Mirrors (r.run es) s' := by
  induction es generalizing r s with
  | nil =>
      obtain rfl := alters
      exact before
  | cons e es ih =>
      obtain ⟨t, first, next⟩ := OsCall.altersAll_append.mp alters
      have step := meet_meets ok e
      exact ih ((step.continues ok).sound ok) (step.mirrors ok before first) next

/-! ### What is asked about pages -/

/-- A call for pages to be made accessible, in an operation that found the boundary at
`committed` and left the region `r`: it continues the committed pages. -/
structure Extends (committed : Nat) (r : Region) (base address length : Nat) : Prop where
  start : address = base + committed
  aligned : r.backend.pageSize ∣ committed
  pos : 0 < length
  whole : r.backend.pageSize ∣ length
  inside : committed + length ≤ r.total
  /-- Unless the region is given up, it holds the base, and its boundary is where the range
  ends. -/
  boundary : r.phase ≠ .closed → r.phase = .reserved base ∧ r.committed = committed + length

/-- A call for pages to be taken away, in an operation that found the boundary at
`committed` and left the region `r`: it takes the uppermost of the committed pages. -/
structure Withdraws (committed : Nat) (r : Region) (base address length : Nat) : Prop where
  stop : address + length = base + committed
  inside : committed ≤ r.total
  above : base + r.cursor ≤ address
  aligned : r.backend.pageSize ∣ address - base
  pos : 0 < length
  whole : r.backend.pageSize ∣ length
  /-- Unless the region is given up, it holds the base, and its boundary is where the range
  begins. -/
  boundary : r.phase ≠ .closed → r.phase = .reserved base ∧ base + r.committed = address

/-- The base that an operation is about: the one that is held, or that is mapped first. -/
def Holds (r : Region) (made : List Record) (base : Nat) : Prop :=
  r.phase = .reserved base ∨ r.phase = .unreserved ∧ .mmap r.total base ∈ made

/-- What a call has to do with the pages of a region, in an operation that leads from `r` to
`r'` by the calls `made`. -/
def Orderly (r r' : Region) (made : List Record) : Record → Prop
  | .mprotect address length .readWrite _ =>
    ∃ base, Holds r made base ∧ Extends r.committed r' base address length
  | .mprotect address length .noAccess _ | .madvise address length _ =>
    ∃ base, r.phase = .reserved base ∧ Withdraws r.committed r' base address length
  | .mmap .. | .munmap .. => True

variable {all : List Record}

/-- No pages are changed in order to obtain a base. -/
theorem Obtains.orderly {answer : Except ArenaError Nat}
    (h : Obtains r clock answer r₁ made) : ∀ call ∈ made, Orderly r r' all call := by
  intro call hcall
  cases h with
  | held phase => cases hcall
  | closed phase => cases hcall
  | unaddressable phase h =>
      obtain rfl := List.mem_singleton.mp hcall
      trivial
  | fresh phase pos h =>
      obtain rfl := List.mem_singleton.mp hcall
      trivial
  | unreserved phase reserves =>
      cases reserves with
      | unusable =>
          obtain rfl := List.mem_singleton.mp hcall
          trivial
      | failed errno result =>
          obtain rfl := List.mem_singleton.mp hcall
          trivial

/-- A base that is known is held, or it was mapped first. -/
theorem Obtains.holds {more : List Record} (h : Obtains r clock (.ok base) r' made) :
    Holds r (made ++ more) base := by
  cases h with
  | held phase => exact Or.inl phase
  | fresh phase pos h => exact Or.inr ⟨phase, by simp⟩

/-- Obtaining a base leaves the boundary where it is. -/
theorem Obtains.committed (ok : Sound r) (h : Obtains r clock (.ok base) r' made) :
    r'.committed = r.committed := by
  cases h with
  | held phase => rfl
  | fresh phase pos h => exact (ok.unused phase).2.symm

/-- The range from the boundary up to the page of an offset above it. -/
theorem Paged.extends_boundary {stop whole : Nat} (paged : Paged r) (life : Continues r r')
    (hstop : r.committed < stop) (htotal : stop ≤ r.total)
    (h : Word.roundUp? stop r.backend.pageSize = some whole)
    (boundary : r'.phase ≠ .closed →
      r'.phase = .reserved base ∧ r'.committed = min whole r.total) :
    Extends r.committed r' base (base + r.committed) (min whole r.total - r.committed) := by
  have hwhole := Word.le_of_roundUp? h
  have hle : r.committed < min whole r.total := by omega
  have hpage := paged.page_dvd_boundary htotal h
  have hend : r.committed + (min whole r.total - r.committed) = min whole r.total := by omega
  refine
    { start := rfl
      aligned := by rw [life.backend]; exact paged.committed
      pos := Nat.sub_pos_of_lt hle
      whole := by rw [life.backend]; exact Nat.dvd_sub hpage paged.committed
      inside := by rw [hend, life.total]; exact Nat.min_le_right _ _
      boundary := fun hopen => ?_ }
  rw [hend]
  exact boundary hopen

/-- All that a cut asks about pages is to have the committed ones continued. -/
theorem Cuts.orderly {size align : Nat} {answer : Except ArenaError Span} (paged : Paged r₁)
    (hp : r₁.phase = .reserved base) (committed : r₁.committed = r.committed)
    (holds : Holds r all base) (h : Cuts size align base r₁ answer r' made) :
    ∀ call ∈ made, Orderly r r' all call := by
  have life := h.continues hp
  intro call hcall
  cases h with
  | unrounded h => cases hcall
  | oversized rounded h => cases hcall
  | unfit rounded h => cases hcall
  | empty rounded fits h => cases hcall
  | inside rounded pos h => cases hcall
  | grown rounded pos past fits grows =>
      cases grows with
      | grown h =>
          obtain rfl := List.mem_singleton.mp hcall
          refine ⟨base, holds, ?_⟩
          rw [← committed]
          exact paged.extends_boundary life past fits h (fun _ => ⟨hp, rfl⟩)
  | ungrown rounded pos past fits grows =>
      cases grows with
      | unrounded h => cases hcall
      | lost h =>
          rcases List.mem_cons.mp hcall with rfl | hcall
          · refine ⟨base, holds, ?_⟩
            rw [← committed]
            exact paged.extends_boundary life past fits h (fun hopen => absurd rfl hopen)
          · obtain rfl := List.mem_singleton.mp hcall
            trivial

/-- The batch of pages below the boundary, when it is due. -/
theorem Due.withdraws (ok : Sound r) (paged : Paged r) (due : r.Due clock)
    (life : Continues r r') (cursor : r'.cursor = r.cursor)
    (boundary : r'.phase ≠ .closed →
      r'.phase = .reserved base ∧ r'.committed = r.committed - r.batchBytes) :
    Withdraws r.committed r' base (base + (r.committed - r.batchBytes)) r.batchBytes := by
  obtain ⟨hcursor, hbatch⟩ := ok.cursor_lt_of_due due
  have hpages := (RegionTuning.validate_ok_iff.mp ok.tuned).1
  have hwhole : r.backend.pageSize ∣ r.batchBytes := Nat.dvd_mul_left _ _
  refine
    { stop := by omega
      inside := by rw [life.total]; exact ok.committed_le
      above := by omega
      aligned := ?_
      pos := Nat.mul_pos hpages (Word.pos_of_isPowerOfTwo paged.geometry.page)
      whole := by rw [life.backend]; exact hwhole
      boundary := fun hopen => ?_ }
  · rw [life.backend, Nat.add_sub_cancel_left]
    exact Nat.dvd_sub paged.committed hwhole
  · obtain ⟨hphase, hcommitted⟩ := boundary hopen
    exact ⟨hphase, by rw [hcommitted]⟩

theorem Trims.orderly {answer : Except ArenaError Unit} (ok : Sound r) (paged : Paged r)
    (hp : r.phase = .reserved base) (h : Trims r clock base answer r' made) :
    ∀ call ∈ made, Orderly r r' all call := by
  have life := h.continues ok hp
  intro call hcall
  cases h with
  | unmeasured h => cases hcall
  | kept fits h => cases hcall
  | trimmed fits due =>
      have batch := due.withdraws ok paged life rfl (fun _ => ⟨hp, rfl⟩)
      rcases List.mem_cons.mp hcall with rfl | hcall
      · exact ⟨base, hp, batch⟩
      · obtain rfl := List.mem_singleton.mp hcall
        exact ⟨base, hp, batch⟩
  | lost fits due uncommits =>
      have batch : Withdraws r.committed r.abandoned base _ _ :=
        due.withdraws ok paged life rfl (fun hopen => absurd rfl hopen)
      rcases List.mem_append.mp hcall with hcall | hcall
      · cases uncommits with
        | unprotected errno =>
            obtain rfl := List.mem_singleton.mp hcall
            exact ⟨base, hp, batch⟩
        | kept errno =>
            rcases List.mem_cons.mp hcall with rfl | hcall
            · exact ⟨base, hp, batch⟩
            · obtain rfl := List.mem_singleton.mp hcall
              exact ⟨base, hp, batch⟩
      · obtain rfl := List.mem_singleton.mp hcall
        trivial

/-- Every call of an episode fits the boundary that the episode found. -/
theorem Meets.orderly {request : Request} {answer : Except ArenaError Reply} (ok : Sound r)
    (paged : Paged r) (h : Meets r clock request answer r' made) :
    ∀ call ∈ made, Orderly r r' made call := by
  intro call hcall
  cases h with
  | slice h =>
      cases h with
      | misaligned h => cases hcall
      | unobtained aligned obtains => exact obtains.orderly call hcall
      | @obtained base r₁ _ first next _ aligned obtains cuts =>
          rcases List.mem_append.mp hcall with hcall | hcall
          · exact obtains.orderly call hcall
          · have paged₁ := obtains.continues.paged ok paged
            exact cuts.orderly paged₁ obtains.phase_of_ok (obtains.committed ok) obtains.holds
              call hcall
  | checkpoint h =>
      cases h with
      | unobtained obtains => exact obtains.orderly call hcall
      | pushed obtains => exact obtains.orderly call hcall
  | rollback h =>
      cases h with
      | unreserved h => cases hcall
      | stale phase h => cases hcall
      | @popped base cursor older _ _ _ phase saved newest trims =>
          have paged₁ : Paged { r with saved := older, cursor := cursor } :=
            ⟨paged.geometry, paged.total, paged.committed⟩
          exact trims.orderly (ok.popped saved) paged₁ phase call hcall
  | close h =>
      cases h with
      | again phase => cases hcall
      | unused phase => cases hcall
      | released phase answered =>
          cases answered with
          | done =>
              obtain rfl := List.mem_singleton.mp hcall
              trivial
          | failed errno =>
              obtain rfl := List.mem_singleton.mp hcall
              trivial

/-! ### How high the boundary gets -/

/-- A boundary that was moved up lies at the page of the cursor. -/
theorem Cuts.committed_le {size align : Nat} {answer : Except ArenaError Span}
    (paged : Paged r) (h : Cuts size align base r answer r' made) :
    r'.committed ≤ r.committed ∨ r'.committed ≤ Word.ceil r'.cursor r.backend.pageSize := by
  cases h with
  | unrounded h => exact Or.inl (Nat.le_refl _)
  | oversized rounded h => exact Or.inl (Nat.le_refl _)
  | unfit rounded h => exact Or.inl (Nat.le_refl _)
  | empty rounded fits h => exact Or.inl (Nat.le_refl _)
  | inside rounded pos h => exact Or.inl (Nat.le_refl _)
  | grown rounded pos past fits grows =>
      cases grows with
      | grown h => exact Or.inr (Nat.le_of_eq (paged.boundary_eq_ceil fits h))
  | ungrown rounded pos past fits grows =>
      cases grows with
      | unrounded h => exact Or.inl (Nat.le_refl _)
      | lost h => exact Or.inl (Nat.le_refl _)

theorem Obtains.committed_le {answer : Except ArenaError Nat}
    (h : Obtains r clock answer r' made) : r'.committed ≤ r.committed := by
  cases h with
  | fresh phase pos h => exact Nat.zero_le _
  | held phase => exact Nat.le_refl _
  | closed phase => exact Nat.le_refl _
  | unreserved phase reserves => exact Nat.le_refl _
  | unaddressable phase h => exact Nat.le_refl _

theorem Trims.committed_le {answer : Except ArenaError Unit}
    (h : Trims r clock base answer r' made) : r'.committed ≤ r.committed := by
  cases h with
  | trimmed fits due => exact Nat.sub_le _ _
  | unmeasured h => exact Nat.le_refl _
  | kept fits h => exact Nat.le_refl _
  | lost fits due uncommits => exact Nat.le_refl _

theorem Meets.committed_le {request : Request} {answer : Except ArenaError Reply}
    (ok : Sound r) (paged : Paged r) (h : Meets r clock request answer r' made) :
    r'.committed ≤ r.committed ∨ r'.committed ≤ Word.ceil r'.cursor r.backend.pageSize := by
  cases h with
  | slice h =>
      cases h with
      | misaligned h => exact Or.inl (Nat.le_refl _)
      | unobtained aligned obtains => exact Or.inl obtains.committed_le
      | obtained aligned obtains cuts =>
          have first := obtains.continues
          have next := cuts.committed_le (first.paged ok paged)
          rw [first.backend] at next
          exact next.imp_left fun hle => Nat.le_trans hle obtains.committed_le
  | checkpoint h =>
      cases h with
      | unobtained obtains => exact Or.inl obtains.committed_le
      | pushed obtains => exact Or.inl obtains.committed_le
  | rollback h =>
      cases h with
      | unreserved h => exact Or.inl (Nat.le_refl _)
      | stale phase h => exact Or.inl (Nat.le_refl _)
      | popped phase saved newest trims => exact Or.inl trims.committed_le
  | close h =>
      cases h with
      | again phase => exact Or.inl (Nat.le_refl _)
      | unused phase => exact Or.inl (Nat.le_refl _)
      | released phase answered => exact Or.inl (Nat.le_refl _)

theorem cursor_le_peak (r : Region) (es : List Episode) : r.cursor ≤ r.peak es := by
  cases es with
  | nil => exact Nat.le_refl _
  | cons e es => exact Nat.le_max_left _ _

/-- A run moves the boundary no higher than to the page of its highest cursor. -/
theorem run_committed_le (ok : Sound r) (paged : Paged r) (es : List Episode) :
    (r.run es).committed ≤ r.committed ∨
      (r.run es).committed ≤ Word.ceil (r.peak es) r.backend.pageSize := by
  induction es generalizing r with
  | nil => exact Or.inl (Nat.le_refl _)
  | cons e es ih =>
      have step := meet_meets ok e
      have life := step.continues ok
      have rest := ih (life.sound ok) (life.paged ok paged)
      rw [life.backend] at rest
      have hrest : (r.after e).peak es ≤ r.peak (e :: es) := Nat.le_max_right _ _
      have hfirst : (r.after e).cursor ≤ r.peak (e :: es) :=
        Nat.le_trans (cursor_le_peak (r.after e) es) hrest
      rcases rest with rest | rest
      · -- The rest of the run did not move the boundary up, so the first step decides.
        rcases step.committed_le ok paged with first | first
        · exact Or.inl (Nat.le_trans rest first)
        · refine Or.inr (Nat.le_trans rest (Nat.le_trans first ?_))
          exact Word.ceil_mono r.backend.pageSize hfirst
      · exact Or.inr (Nat.le_trans rest (Word.ceil_mono r.backend.pageSize hrest))

/-! ### The whole account -/

/-- **The bookkeeping is the state of the pages.**  After every run, if the region is
reserved, the bytes of its reservation that can be read and written are those below the
boundary, whatever could be read and written before.  Every call about pages that comes next
fits the boundary it finds.  And the boundary is not above the page of the highest cursor. -/
theorem run_access (made : r₀.Made) (geometry : r₀.backend.toGeometry.Sound)
    (es : List Episode) :
    let r := r₀.run es
    (∀ before after, AltersAll (r₀.history es) before after →
      ∀ base, r.phase = .reserved base →
        after ∩ OsCall.range base r.total = OsCall.range base r.committed) ∧
    (∀ e, ∀ call ∈ r.calls e, Orderly r (r.after e) (r.calls e) call) ∧
    r.committed ≤ Word.ceil (r₀.peak es) r₀.backend.pageSize := by
  intro r
  have life := run_continues made.sound es
  have ok : Sound r := life.sound made.sound
  have paged : Paged r := life.paged made.sound (made.paged geometry)
  obtain ⟨-, -, phase, -, committed, -⟩ := made.cases
  refine ⟨?_, ?_, ?_⟩
  · intro before after alters base hp
    have start : Mirrors r₀ before := .of_not_reserved (by simp [phase])
    exact (run_mirrors made.sound es start alters).eq ok hp
  · intro e
    exact (meet_meets ok e).orderly ok paged
  · rcases run_committed_le made.sound (made.paged geometry) es with h | h
    · rw [committed] at h
      exact Nat.le_trans h (Nat.zero_le _)
    · exact h

/-- Three pages, of which one is given back as soon as more than one lies idle. -/
def eager : Region :=
  { tuning := { batchPages := 1, thresholdPages := 1, cooldown := ⟨0⟩ },
    backend := .posix ⟨4096, 4096⟩, total := 12288, lastTrim := 0 }

/-- All three pages are used and the cursor goes back: the last of them is taken away, and
the bytes of the other two are what can be read and written. -/
theorem run_access_of_eager :
    let base := 0x100000000000
    let before : Set Nat := ∅
    let used : List Episode := [⟨{}, .checkpoint⟩, ⟨{}, .slice 12000 1⟩]
    let back : Episode := ⟨{}, .rollback ⟨0⟩⟩
    let after := (before \ OsCall.range base 12288 ∪ OsCall.range base 12288)
      \ OsCall.range (base + 8192) 4096
    eager.Made ∧ eager.backend.toGeometry.Sound ∧
      AltersAll (eager.history (used ++ [back])) before after ∧
      after ∩ OsCall.range base 12288 = OsCall.range base 8192 ∧
      Withdraws 12288 ((eager.run used).after back) base (base + 8192) 4096 := by
  intro base before used back after
  have made : eager.Made :=
    ⟨12000, eager.tuning, eager.backend, ⟨{}, ()⟩, ⟨{}, ()⟩, rfl⟩
  have geometry : eager.backend.toGeometry.Sound :=
    Geometry.sound_of_ofPageSize (show Geometry.ofPageSize 4096 = _ from rfl)
  have calls : eager.history (used ++ [back]) =
      [.mmap 12288 base, .mprotect base 12288 .readWrite 0,
        .mprotect (base + 8192) 4096 .noAccess 0, .madvise (base + 8192) 4096 0] := by decide
  have alters : AltersAll (eager.history (used ++ [back])) before after := by
    rw [calls]
    refine ⟨before \ OsCall.range base 12288, ?_, _, fun _ => rfl, _, fun _ => rfl, _,
      fun _ => rfl, rfl⟩
    intro _
    rw [Int.toNat_natCast]
  have reserved : (eager.run (used ++ [back])).phase = .reserved base := by decide
  have total : (eager.run (used ++ [back])).total = 12288 := by decide
  have committed : (eager.run (used ++ [back])).committed = 8192 := by decide
  have agree := (run_access made geometry (used ++ [back])).1 before after alters base reserved
  rw [total, committed] at agree
  obtain ⟨held, hphase, withdraws⟩ := (run_access made geometry used).2.1 back
    (.mprotect (base + 8192) 4096 .noAccess 0) (by decide)
  have hbase : held = base := by
    have reserved : (eager.run used).phase = .reserved base := by decide
    exact Phase.reserved.inj (hphase.symm.trans reserved)
  have filled : (eager.run used).committed = 12288 := by decide
  rw [hbase, filled] at withdraws
  exact ⟨made, geometry, alters, agree, withdraws⟩

end Region

end PageArena
