/-
Spans that are in use are never handed out again.

Which spans are in use is nothing a region knows, so a ledger is kept beside it.  It notes
every span with the moment at which it was taken, and every checkpoint with the moment at
which it was pushed.  A span is live until a rollback takes a checkpoint off that is older
than the span, or until the region is closed.

What ties the ledger to the region is `Fits`.  Every live span that holds bytes ends at the
cursor or below.  It also ends at every saved cursor or below whose checkpoint is younger
than it: when that checkpoint was pushed, the cursor it saved was past the span.  So when a
checkpoint is taken off, the spans that stay live are exactly those that the cursor stays
above, and what is taken later comes after all of them.
-/
import Mathlib
import PageArena.Proofs.Region.Run

namespace PageArena

open OsCall (Record)

namespace Span

/-- The address after the last byte. -/
def stop (s : Span) : Nat := s.start + s.length

/-- No byte is in both. -/
def Apart (s t : Span) : Prop := s.stop ≤ t.start ∨ t.stop ≤ s.start

end Span

/-- A span that was handed out, what was asked for, and when. -/
structure Holding where
  span : Span
  size : Nat
  align : Nat
  moment : Nat

/-- What is noted of the life of a region. -/
structure Ledger where
  /-- How many operations there were. -/
  moment : Nat := 0
  /-- When the checkpoints on the stack were pushed, the newest first. -/
  pushed : List Nat := []
  /-- The spans that are live, the newest first. -/
  live : List Holding := []

namespace Ledger

open Region (Request Reply Episode)

/-- One more operation was done. -/
def tick (l : Ledger) : Ledger := { l with moment := l.moment + 1 }

/-- A span was handed out. -/
def take (l : Ledger) (size align : Nat) (span : Span) : Ledger :=
  { l.tick with live := ⟨span, size, align, l.moment⟩ :: l.live }

/-- A checkpoint was pushed. -/
def push (l : Ledger) : Ledger := { l.tick with pushed := l.moment :: l.pushed }

/-- The newest checkpoint was taken off: the spans that were taken before it was pushed stay
live. -/
def pop (l : Ledger) : Ledger :=
  match l.pushed with
  | mark :: older => { l.tick with pushed := older, live := l.live.filter (·.moment < mark) }
  | [] => l.tick

/-- The ledger after one more operation.  A checkpoint may be taken off although the answer
is an error, so it is the stack that is asked, not the answer. -/
def note (l : Ledger) (before : Region) (request : Request) (answer : Except ArenaError Reply)
    (after : Region) : Ledger :=
  if after.isClosed then { moment := l.moment + 1 }
  else
    match request, answer with
    | .slice size align, .ok (.span span) => l.take size align span
    | .checkpoint, .ok _ => l.push
    | .rollback _, _ => if after.depth < before.depth then l.pop else l.tick
    | _, _ => l.tick

/-- The ledger after a run. -/
def follow (l : Ledger) (r : Region) : List Episode → Ledger
  | [] => l
  | e :: es => (l.note r e.request (r.answer e) (r.after e)).follow (r.after e) es

/-- The live spans that hold bytes. -/
def solid (l : Ledger) : List Holding := l.live.filter (0 < ·.size)

/-- A ledger fits the region beside which it was kept. -/
structure Fits (l : Ledger) (r : Region) : Prop where
  /-- Each saved cursor has its checkpoint, and what was live when that was pushed lies
  below. -/
  stacked : List.Forall₂ (fun cursor mark => mark < l.moment ∧
    ∀ base, r.phase = .reserved base → ∀ h ∈ l.solid, h.moment < mark →
      h.span.stop ≤ base + cursor) r.saved l.pushed
  /-- A live span is as long as was asked for. -/
  measured : ∀ h ∈ l.live, h.span.length = h.size
  /-- A live span is aligned and lies between the base and the cursor. -/
  held : ∀ h ∈ l.solid, h.align ∣ h.span.start ∧
    ∃ base, r.phase = .reserved base ∧ base ≤ h.span.start ∧ h.span.stop ≤ base + r.cursor
  /-- Spans lie in the order in which they were taken. -/
  ordered : l.solid.Pairwise fun newer older => older.span.stop ≤ newer.span.start

namespace Fits

variable {l : Ledger} {r r' : Region} {base : Nat}

/-- A region that was just made has an empty ledger. -/
theorem empty (h : r.saved = []) : Fits {} r :=
  { stacked := by rw [h]; exact .nil
    measured := by simp
    held := by simp [solid]
    ordered := by simp [solid] }

/-- Nothing is live in a closed region. -/
theorem closed (moment : Nat) (h : r.saved = []) : Fits { moment := moment } r :=
  { stacked := by rw [h]; exact .nil
    measured := by simp
    held := by simp [solid]
    ordered := by simp [solid] }

/-- Another operation that leaves stack and live spans alone and does not lower the cursor. -/
theorem later (fits : Fits l r) (hphase : r'.phase = r.phase) (hsaved : r'.saved = r.saved)
    (hcursor : r.cursor ≤ r'.cursor) : Fits l.tick r' where
  stacked := by
    rw [hsaved, hphase]
    refine fits.stacked.imp ?_
    intro cursor mark h
    exact ⟨Nat.lt_succ_of_lt h.1, h.2⟩
  measured := fits.measured
  held := by
    intro h hh
    obtain ⟨halign, base, hbase, hstart, hstop⟩ := fits.held h hh
    exact ⟨halign, base, hphase.trans hbase, hstart, by omega⟩
  ordered := fits.ordered

/-- A span without bytes is of no account. -/
theorem took_nothing (fits : Fits l r) {start size align : Nat} (hsize : size = 0) :
    Fits (l.take size align ⟨start, size⟩) r := by
  have later := fits.later rfl rfl (Nat.le_refl r.cursor)
  have hsolid : (l.take size align ⟨start, size⟩).solid = l.tick.solid :=
    List.filter_cons_of_neg (by simp [hsize])
  exact
    { stacked := by rw [hsolid]; exact later.stacked
      measured := List.forall_mem_cons.mpr ⟨rfl, fits.measured⟩
      held := by rw [hsolid]; exact later.held
      ordered := by rw [hsolid]; exact later.ordered }

/-- A first use finds nothing live, and every other use finds the base as it was. -/
theorem obtained (fits : Fits l r) (ok : Region.Sound r) {clock : Nat}
    {answer : Except ArenaError Nat} {made : List Record}
    (h : Region.Obtains r clock answer r' made) : Fits l r' := by
  cases h with
  | held phase => exact fits
  | closed phase => exact fits
  | unreserved phase reserves => exact fits
  | unaddressable phase h => exact fits
  | fresh phase pos h =>
      have hsaved := ok.saved_nil (Or.inl phase)
      have hnone : ∀ h ∈ l.solid, False := by
        intro h hh
        obtain ⟨-, base, hbase, -⟩ := fits.held h hh
        rw [phase] at hbase
        cases hbase
      have hpushed : l.pushed = [] := by
        have := fits.stacked
        rw [hsaved] at this
        exact List.forall₂_nil_left_iff.mp this
      exact
        { stacked := by
            rw [hpushed]
            show List.Forall₂ _ r.saved []
            rw [hsaved]
            exact .nil
          measured := fits.measured
          held := fun h hh => (hnone h hh).elim
          ordered := fits.ordered }

/-- A span that begins at the cursor or after it, and the cursor at its end. -/
theorem took (fits : Fits l r) (hbase : r.phase = .reserved base) (hphase : r'.phase = r.phase)
    (hsaved : r'.saved = r.saved) {start size align : Nat} (hsize : 0 < size)
    (halign : align ∣ start) (hstart : base + r.cursor ≤ start)
    (hcursor : base + r'.cursor = start + size) :
    Fits (l.take size align ⟨start, size⟩) r' := by
  have hsolid : (l.take size align ⟨start, size⟩).solid
      = ⟨⟨start, size⟩, size, align, l.moment⟩ :: l.solid :=
    List.filter_cons_of_pos (by simpa using hsize)
  have hbelow : ∀ h ∈ l.solid, base ≤ h.span.start ∧ h.span.stop ≤ base + r.cursor := by
    intro h hh
    obtain ⟨-, base', hbase', hlow, hhigh⟩ := fits.held h hh
    rw [hbase] at hbase'
    cases hbase'
    exact ⟨hlow, hhigh⟩
  refine ⟨?_, List.forall_mem_cons.mpr ⟨rfl, fits.measured⟩, ?_, ?_⟩
  · rw [hsaved, hphase, hsolid]
    refine fits.stacked.imp ?_
    rintro cursor mark ⟨hmark, hlow⟩
    refine ⟨Nat.lt_succ_of_lt hmark, ?_⟩
    intro base' hbase' h hh hyoung
    rcases List.mem_cons.mp hh with rfl | hh
    · -- The new span is younger than every checkpoint.
      exact absurd hyoung (Nat.not_lt.mpr (Nat.le_of_lt hmark))
    · exact hlow base' hbase' h hh hyoung
  · rw [hsolid]
    intro h hh
    rcases List.mem_cons.mp hh with rfl | hh
    · have hlow : base ≤ start := by omega
      exact ⟨halign, base, hphase.trans hbase, hlow, Nat.le_of_eq hcursor.symm⟩
    · obtain ⟨hal, -⟩ := fits.held h hh
      obtain ⟨hlow, hhigh⟩ := hbelow h hh
      exact ⟨hal, base, hphase.trans hbase, hlow, by omega⟩
  · rw [hsolid]
    refine List.pairwise_cons.mpr ⟨?_, fits.ordered⟩
    intro h hh
    exact Nat.le_trans (hbelow h hh).2 hstart

/-- A new checkpoint saves the cursor, and everything live lies below that. -/
theorem checkpointed (fits : Fits l r) (hphase : r'.phase = r.phase)
    (hsaved : r'.saved = r.cursor :: r.saved) (hcursor : r'.cursor = r.cursor) :
    Fits l.push r' where
  stacked := by
    rw [hsaved, hphase]
    refine .cons ⟨Nat.lt_succ_self _, ?_⟩ (fits.stacked.imp ?_)
    · intro base hbase h hh _
      obtain ⟨-, base', hbase', -, hhigh⟩ := fits.held h hh
      rw [hbase] at hbase'
      cases hbase'
      exact hhigh
    · intro cursor mark h
      exact ⟨Nat.lt_succ_of_lt h.1, h.2⟩
  measured := fits.measured
  held := by
    intro h hh
    rw [hphase, hcursor]
    exact fits.held h hh
  ordered := fits.ordered

/-- A checkpoint is taken off, and with it the spans that are younger. -/
theorem popped (fits : Fits l r) {cursor mark : Nat} {older : List Nat} {marks : List Nat}
    (hsaved : r.saved = cursor :: older) (hpushed : l.pushed = mark :: marks)
    (hphase : r'.phase = r.phase) (holder : r'.saved = older) (hcursor : r'.cursor = cursor) :
    Fits l.pop r' := by
  have hstacked := fits.stacked
  rw [hsaved, hpushed] at hstacked
  obtain ⟨⟨-, hlow⟩, hrest⟩ := List.forall₂_cons.mp hstacked
  rw [show l.pop = { l.tick with
    pushed := marks, live := l.live.filter (·.moment < mark) } by simp only [pop, hpushed]]
  set l' : Ledger := { l.tick with
    pushed := marks, live := l.live.filter (·.moment < mark) } with hl'
  have hmem : ∀ h ∈ l'.solid, h ∈ l.solid ∧ h.moment < mark := by
    intro h hh
    simp only [hl', solid, List.mem_filter, decide_eq_true_eq] at hh ⊢
    exact ⟨⟨hh.1.1, hh.2⟩, hh.1.2⟩
  refine ⟨?_, ?_, ?_, ?_⟩
  · rw [holder, hphase]
    refine hrest.imp ?_
    rintro c m ⟨hm, hc⟩
    exact ⟨Nat.lt_succ_of_lt hm, fun base hbase h hh => hc base hbase h (hmem h hh).1⟩
  · intro h hh
    exact fits.measured h (List.mem_of_mem_filter hh)
  · intro h hh
    obtain ⟨hh, hold⟩ := hmem h hh
    obtain ⟨halign, base, hbase, hstart, -⟩ := fits.held h hh
    refine ⟨halign, base, hphase.trans hbase, hstart, ?_⟩
    rw [hcursor]
    exact hlow base hbase h hh hold
  · exact fits.ordered.sublist (List.Sublist.filter _ List.filter_sublist)

end Fits

variable {l : Ledger} {r r' : Region} {clock : Nat} {made : List Record}

/-- Once the base is known, a cut either leaves the live spans alone or adds one at the
cursor. -/
theorem fits_of_cuts {base size align : Nat} {answer : Except ArenaError Span}
    (fits : l.Fits r) (hbase : r.phase = .reserved base)
    (aligned : Word.isPowerOfTwo align = true) (hopen : r'.isClosed = false)
    (h : Region.Cuts size align base r answer r' made) {before : Region} :
    (l.note before (.slice size align) (answer.map .span) r').Fits r' := by
  have hnot : ¬ r'.isClosed = true := by simp [hopen]
  simp only [note, if_neg hnot]
  cases h with
  | unrounded h => exact fits.later rfl rfl (Nat.le_refl _)
  | oversized rounded h => exact fits.later rfl rfl (Nat.le_refl _)
  | unfit rounded h => exact fits.later rfl rfl (Nat.le_refl _)
  | empty rounded fit h => exact fits.took_nothing h
  | @inside address rounded pos h =>
      have hle := Word.le_of_roundUp? rounded
      have hcursor : base + (address - base + size) = address + size := by omega
      refine fits.took hbase ?_ ?_ pos (Word.dvd_of_roundUp? aligned rounded) hle hcursor
      · rfl
      · rfl
  | @grown address _ _ rounded pos past fit grows =>
      have hle := Word.le_of_roundUp? rounded
      have hcursor : base + (address - base + size) = address + size := by omega
      cases grows with
      | grown hround =>
          refine fits.took hbase ?_ ?_ pos (Word.dvd_of_roundUp? aligned rounded) hle hcursor
          · rfl
          · rfl
  | ungrown rounded pos past fit grows =>
      cases grows with
      | unrounded hround => exact fits.later rfl rfl (Nat.le_refl _)
      | lost hround => simp [Region.isClosed, Region.abandoned] at hopen

/-- **One operation**: the ledger that fitted before fits afterwards. -/
theorem fits_of_meets {request : Request} {answer : Except ArenaError Reply} (fits : l.Fits r)
    (ok : Region.Sound r) (h : Region.Meets r clock request answer r' made) :
    (l.note r request answer r').Fits r' := by
  have ok' : Region.Sound r' := (h.continues ok).sound ok
  cases hopen : r'.isClosed with
  | true =>
      simp only [note, hopen, if_true]
      refine .closed _ (ok'.saved_nil (Or.inr ?_))
      simpa [Region.isClosed] using hopen
  | false =>
      have hnot : ¬ r'.isClosed = true := by simp [hopen]
      cases h with
      | slice h =>
          cases h with
          | misaligned h =>
              simp only [note, if_neg hnot]
              exact fits.later rfl rfl (Nat.le_refl _)
          | unobtained aligned obtains =>
              simp only [note, if_neg hnot]
              exact (fits.obtained ok obtains).later rfl rfl (Nat.le_refl _)
          | obtained aligned obtains cuts =>
              have fits' := fits.obtained ok obtains
              exact fits_of_cuts fits' obtains.phase_of_ok aligned hopen cuts
      | checkpoint h =>
          simp only [note, if_neg hnot]
          cases h with
          | unobtained obtains => exact (fits.obtained ok obtains).later rfl rfl (Nat.le_refl _)
          | pushed obtains => exact (fits.obtained ok obtains).checkpointed rfl rfl rfl
      | rollback h =>
          simp only [note, if_neg hnot]
          cases h with
          | unreserved h =>
              rw [if_neg (Nat.lt_irrefl _)]
              exact fits.later rfl rfl (Nat.le_refl _)
          | stale phase h =>
              rw [if_neg (Nat.lt_irrefl _)]
              exact fits.later rfl rfl (Nat.le_refl _)
          | @popped base cursor older _ _ _ phase saved newest trims =>
              have hstacked := fits.stacked
              rw [saved] at hstacked
              obtain ⟨mark, marks, -, -, hpushed⟩ := List.forall₂_cons_left_iff.mp hstacked
              have hphase' : r'.phase ≠ .closed := by simpa [Region.isClosed] using hopen
              obtain ⟨hphase, hsaved, hcursor⟩ := trims.of_not_closed hphase'
              have hshorter : r'.depth < r.depth := by simp [Region.depth, hsaved, saved]
              rw [if_pos hshorter]
              exact fits.popped saved hpushed hphase hsaved hcursor
      | close h =>
          -- No way of closing leaves the region open.
          cases h with
          | again phase => simp [Region.isClosed, phase] at hopen
          | unused phase => simp [Region.isClosed] at hopen
          | released phase answered => simp [Region.isClosed, Region.abandoned] at hopen

theorem fits_follow (fits : l.Fits r) (ok : Region.Sound r) (es : List Episode) :
    (l.follow r es).Fits (r.run es) := by
  induction es generalizing l r with
  | nil => exact fits
  | cons e es ih =>
      have hmeets := Region.meet_meets ok e
      exact ih (fits_of_meets fits ok hmeets) ((hmeets.continues ok).sound ok)

end Ledger

namespace Region

/-- **Live spans are sound and never meet.**  However a run goes, every live span has the
length that was asked for.  If it holds bytes then it begins at a multiple of its alignment
and lies within the used and the accessible part of the reservation, and no two such spans
share a byte. -/
theorem live_spans_safe {r₀ : Region} (made : r₀.Made) (es : List Episode) :
    let r := r₀.run es
    let l := Ledger.follow {} r₀ es
    (∀ h ∈ l.live, h.span.length = h.size ∧
      (0 < h.size → h.align ∣ h.span.start ∧
        ∃ base, r.phase = .reserved base ∧ base ≤ h.span.start ∧
          h.span.stop ≤ base + r.cursor ∧ h.span.stop ≤ base + r.committed)) ∧
    l.solid.Pairwise fun s t => s.span.Apart t.span := by
  intro r l
  obtain ⟨-, -, -, -, -, hsaved⟩ := made.cases
  have fits : l.Fits r := Ledger.fits_follow (.empty hsaved) made.sound es
  have ok : Sound r := (run_continues made.sound es).sound made.sound
  constructor
  · intro h hh
    refine ⟨fits.measured h hh, fun hsize => ?_⟩
    have hsolid : h ∈ l.solid := List.mem_filter.mpr ⟨hh, by simpa using hsize⟩
    obtain ⟨halign, base, hbase, hstart, hstop⟩ := fits.held h hsolid
    have hcursor := ok.cursor_le
    exact ⟨halign, base, hbase, hstart, hstop, by omega⟩
  · refine fits.ordered.imp ?_
    intro newer older hle
    exact Or.inr hle

/-- A rollback frees the second span, and the third takes its place beside the first. -/
theorem live_spans_safe_in_twoPages :
    let es : List Episode :=
      [⟨{}, .slice 100 16⟩, ⟨{}, .checkpoint⟩, ⟨{}, .slice 5000 1⟩, ⟨{}, .rollback ⟨0⟩⟩,
        ⟨{}, .slice 30 64⟩]
    let l := Ledger.follow {} twoPages es
    twoPages.Made ∧
      l.solid.map (·.span) = [⟨0x100000000080, 30⟩, ⟨0x100000000000, 100⟩] ∧
      l.solid.Pairwise fun s t => s.span.Apart t.span := by
  intro es l
  exact ⟨twoPages_made, by decide, (live_spans_safe twoPages_made es).2⟩

end Region

end PageArena
