/-
The life of a region, from its making on.

A run is a list of episodes: in each, one operation is asked of the region.  Between two of
them anything may happen to the machine.  Time passes, failures are queued for calls to come,
other objects make calls of their own.  Therefore an episode brings the machine along that
the operation meets, and nothing at all is assumed of it.  What holds for every run holds
whatever the operating system does and whenever it does it.

`run_bookkeeping` is what a region's fields satisfy at every point of every run.  One step
of it is `Meets.continues`: each operation continues the region, whichever way it goes.
-/
import Mathlib
import PageArena.Proofs.Region.Continues

namespace PageArena

open OsCall (Record)

namespace Region

/-- What can be asked of a region. -/
inductive Request where
  | slice (size align : Nat)
  | checkpoint
  | rollback (handle : Handle)
  | close
  deriving DecidableEq, Repr

/-- What a request is answered with. -/
inductive Reply where
  | span (span : Span)
  | handle (handle : Handle)
  | done
  deriving DecidableEq, Repr

/-- The operation that a request asks for. -/
def Request.act : Request → Act ArenaError Region Reply
  | .slice size align => do return .span (← Region.slice size align)
  | .checkpoint => do return .handle (← Region.checkpoint)
  | .rollback handle => do
    Region.rollback handle
    return .done
  | .close => do
    Region.close
    return .done

/-- One request and the machine that it meets. -/
structure Episode where
  machine : Machine
  request : Request

/-- What becomes of a region in an episode: the answer, and the world that is left. -/
def meet (r : Region) (e : Episode) : Except ArenaError Reply × World Region :=
  e.request.act.run { e.machine with self := r }

/-- The answer of an episode. -/
def answer (r : Region) (e : Episode) : Except ArenaError Reply := (r.meet e).1

/-- The region after an episode. -/
def after (r : Region) (e : Episode) : Region := (r.meet e).2.self

/-- The calls to the operating system that are made in an episode. -/
def calls (r : Region) (e : Episode) : List Record :=
  (r.meet e).2.kernel.calls.drop e.machine.kernel.calls.length

/-- The region after a run. -/
def run (r : Region) (es : List Episode) : Region := es.foldl after r

/-- A region as it was made, whatever the world it was made in. -/
def Made (r : Region) : Prop :=
  ∃ (size : Nat) (tuning : RegionTuning) (backend : Backend) (w w' : World Unit),
    (onBackend size tuning backend).run w = (.ok (some r), w')

/-! ### One episode -/

variable {r r₀ r' : Region} {clock : Nat} {made : List Record}

/-- How an episode can go, by what is asked for. -/
inductive Meets (r : Region) (clock : Nat) :
    Request → Except ArenaError Reply → Region → List Record → Prop
  | slice {size align : Nat} {answer : Except ArenaError Span} {r' : Region}
      {made : List Record} (h : Slices size align r clock answer r' made) :
      Meets r clock (.slice size align) (answer.map .span) r' made
  | checkpoint {answer : Except ArenaError Handle} {r' : Region} {made : List Record}
      (h : Checkpoints r clock answer r' made) :
      Meets r clock .checkpoint (answer.map .handle) r' made
  | rollback {handle : Handle} {answer : Except ArenaError Unit} {r' : Region}
      {made : List Record} (h : RollsBack handle r clock answer r' made) :
      Meets r clock (.rollback handle) (answer.map fun _ => .done) r' made
  | close {answer : Except ArenaError Unit} {r' : Region} {made : List Record}
      (h : Closes r answer r' made) :
      Meets r clock .close (answer.map fun _ => .done) r' made

/-- An act that only dresses up the answer of another. -/
theorem run_bind_pure {ε σ α β : Type} (act : Act ε σ α) (f : α → β) (w : World σ) :
    (act >>= fun a => pure (f a)).run w = ((act.run w).1.map f, (act.run w).2) := by
  rw [Act.run_bind]
  rcases act.run w with ⟨_ | _, w'⟩
  · rfl
  · rfl

/-- The calls made since a world are those that its machine did not come with. -/
theorem drop_calls {σ : Type} {w w' : World σ} {s : σ} (h : w.Leads w' s made) :
    w'.kernel.calls.drop w.kernel.calls.length = made := by
  rw [h.calls, List.drop_left]

/-- What an operation came to, read off the world that it left. -/
theorem way_of_leads {ε σ α : Type} {w w' : World σ} {answer : Except ε α}
    {Way : Except ε α → σ → List Record → Prop}
    (h : ∃ s made, Way answer s made ∧ w.Leads w' s made) :
    Way answer w'.self (w'.kernel.calls.drop w.kernel.calls.length) := by
  obtain ⟨s, made, way, leads⟩ := h
  rw [leads.self, drop_calls leads]
  exact way

theorem meet_meets (ok : Sound r) (e : Episode) :
    Meets r e.machine.kernel.clock e.request (r.answer e) (r.after e) (r.calls e) := by
  obtain ⟨machine, request⟩ := e
  have okw : Sound (World.mk machine r).self := ok
  unfold answer after calls meet
  cases request with
  | slice size align =>
      simp only [Request.act, run_bind_pure]
      rcases h : (Region.slice size align).run ⟨machine, r⟩ with ⟨answer, w'⟩
      exact .slice (way_of_leads (slice_slices okw h))
  | checkpoint =>
      simp only [Request.act, run_bind_pure]
      rcases h : Region.checkpoint.run ⟨machine, r⟩ with ⟨answer, w'⟩
      exact .checkpoint (way_of_leads (checkpoint_checkpoints h))
  | rollback handle =>
      simp only [Request.act, run_bind_pure]
      rcases h : (Region.rollback handle).run ⟨machine, r⟩ with ⟨answer, w'⟩
      exact .rollback (way_of_leads (rollback_rollsBack okw h))
  | close =>
      simp only [Request.act, run_bind_pure]
      rcases h : Region.close.run ⟨machine, r⟩ with ⟨answer, w'⟩
      exact .close (way_of_leads (close_closes h))

theorem Meets.continues {request : Request} {answer : Except ArenaError Reply} (ok : Sound r)
    (h : Meets r clock request answer r' made) : Continues r r' := by
  cases h with
  | slice h => exact h.continues
  | checkpoint h => exact h.continues
  | rollback h => exact h.continues ok
  | close h => exact h.continues

/-! ### A whole run -/

/-- However a run goes, it continues the region that it began with. -/
theorem run_continues (ok : Sound r) (es : List Episode) : Continues r (r.run es) := by
  induction es generalizing r with
  | nil => exact .refl r
  | cons e es ih =>
      have first := (meet_meets ok e).continues ok
      exact first.trans (ih (first.sound ok))

/-- A region is made from a tuning that is accepted, with a size that is not zero and was
rounded up to a whole reservation. -/
theorem Made.cases (h : r.Made) :
    r.tuning.validate = .ok () ∧
      (∃ size, 0 < size ∧ Word.roundUp? size r.backend.granularity = some r.total) ∧
      r.phase = .unreserved ∧ r.cursor = 0 ∧ r.committed = 0 ∧ r.saved = [] := by
  obtain ⟨size, tuning, backend, w, w', h⟩ := h
  simp only [onBackend] at h
  cases hv : tuning.validate with
  | error e =>
      simp only [hv, Act.settle_error, Act.run_bind, Act.run_raise] at h
      cases h
  | ok u =>
      simp only [hv, Act.settle_ok, Act.run_pure_bind] at h
      by_cases hz : size = 0
      · simp only [hz, if_true, Act.run_raise] at h
        cases h
      · simp only [hz, if_false] at h
        cases hr : Word.roundUp? size backend.granularity with
        | none =>
            simp only [Checked.roundUp_of_none hr, Act.settle_error, Act.run_bind,
              Act.run_raise] at h
            cases h
        | some total =>
            simp only [Checked.roundUp_of_some hr, Act.settle_ok, Act.run_pure_bind] at h
            cases hf : tuning.fits with
            | false =>
                simp only [hf] at h
                cases h
            | true =>
                simp only [hf, if_true, Act.run_now_bind, Act.run_pure] at h
                obtain ⟨hmade, -⟩ := Prod.mk.inj h
                obtain rfl := Option.some.inj (Except.ok.inj hmade)
                exact ⟨hv, ⟨size, Nat.pos_of_ne_zero hz, hr⟩, rfl, rfl, rfl, rfl⟩

/-- Nothing but the machine has a say in how a region is made. -/
theorem made_of_onBackend {σ : Type} {w w' : World σ} {size : Nat} {tuning : RegionTuning}
    {backend : Backend} (h : (onBackend size tuning backend).run w = (.ok (some r), w')) :
    r.Made := by
  refine ⟨size, tuning, backend, ⟨w.toMachine, ()⟩, ⟨w'.toMachine, ()⟩, ?_⟩
  unfold onBackend at h ⊢
  cases hv : tuning.validate with
  | error e =>
      simp only [hv, Act.settle_error, Act.run_bind, Act.run_raise] at h
      cases h
  | ok u =>
      simp only [hv, Act.settle_ok, Act.run_pure_bind] at h ⊢
      by_cases hz : size = 0
      · simp only [hz, if_true, Act.run_raise] at h
        cases h
      · simp only [hz, if_false] at h ⊢
        cases hr : Checked.roundUp size backend.granularity with
        | error e =>
            simp only [hr, Act.settle_error, Act.run_bind, Act.run_raise] at h
            cases h
        | ok total =>
            simp only [hr, Act.settle_ok, Act.run_pure_bind] at h ⊢
            cases hf : tuning.fits with
            | false =>
                simp only [hf] at h
                cases h
            | true =>
                simp only [hf, if_true, Act.run_now_bind, Act.run_pure] at h ⊢
                obtain ⟨hmade, rfl⟩ := Prod.mk.inj h
                rw [hmade]

theorem Made.sound (h : r.Made) : Sound r := by
  obtain ⟨tuned, ⟨size, hsize, hround⟩, phase, cursor, committed, saved⟩ := h.cases
  exact
    { tuned := tuned
      total_pos := Nat.lt_of_lt_of_le hsize (Word.le_of_roundUp? hround)
      committed_le := by rw [committed]; exact Nat.zero_le _
      cursor_le := by rw [cursor]; exact Nat.zero_le _
      chain := by simp [saved]
      addressable := fun base hb => by rw [phase] at hb; cases hb
      base_pos := fun base hb => by rw [phase] at hb; cases hb
      unused := fun _ => ⟨cursor, committed⟩
      unheld := fun _ => saved }

theorem Made.paged (h : r.Made) (geometry : r.backend.toGeometry.Sound) : Paged r := by
  obtain ⟨-, ⟨size, -, hround⟩, -, -, committed, -⟩ := h.cases
  refine ⟨geometry, ?_, by rw [committed]; exact Nat.dvd_zero _⟩
  rw [Word.eq_ceil_of_roundUp? geometry.unit hround]
  exact Word.dvd_ceil size _

/-- Two pages of 4096 bytes, as they are made when 8000 bytes are asked for. -/
def twoPages : Region :=
  { tuning := {}, backend := .posix ⟨4096, 4096⟩, total := 8192, lastTrim := 0 }

theorem twoPages_made : twoPages.Made :=
  ⟨8000, {}, .posix ⟨4096, 4096⟩, ⟨{}, ()⟩, ⟨{}, ()⟩, rfl⟩

theorem twoPages_geometry : twoPages.backend.toGeometry.Sound :=
  Geometry.sound_of_ofPageSize (show Geometry.ofPageSize 4096 = _ from rfl)

/-- **The bookkeeping holds together at every point of every run.**  The size stays what it
was made, a positive number of whole reservations.  The cursor lies below the boundary, the
boundary is a whole page within the reservation, and the saved cursors rise from the bottom
of the stack to the cursor.  Without a reservation there is nothing in use and nothing saved,
a reservation ends at an address, and closed is for good. -/
theorem run_bookkeeping (made : r₀.Made) (geometry : r₀.backend.toGeometry.Sound)
    (es : List Episode) :
    let r := r₀.run es
    (0 < r.total ∧ r₀.backend.granularity ∣ r.total ∧ r.total = r₀.total) ∧
    (r.cursor ≤ r.committed ∧ r.committed ≤ r.total ∧ r₀.backend.pageSize ∣ r.committed ∧
      r.snapshot.isConsistent = true) ∧
    (r.saved.Pairwise (· ≥ ·) ∧ ∀ newest ∈ r.saved.head?, newest ≤ r.cursor) ∧
    (r.phase = .unreserved → r.cursor = 0 ∧ r.committed = 0 ∧ r.saved = []) ∧
    (r.phase = .closed → r.saved = []) ∧
    (∀ base, r.phase = .reserved base → base + r.total < Word.limit) ∧
    (r.phase = .closed → ∀ later, (r.run later).phase = .closed) := by
  intro r
  have life := run_continues made.sound es
  have ok : Sound r := life.sound made.sound
  have paged : Paged r := life.paged made.sound (made.paged geometry)
  have chain := List.pairwise_cons.mp ok.chain
  have whole := paged.total
  have pages := paged.committed
  rw [show r.backend = r₀.backend from life.backend] at whole pages
  refine ⟨⟨ok.total_pos, whole, life.total⟩, ⟨ok.cursor_le, ok.committed_le, pages, ?_⟩,
    ⟨chain.2, ?_⟩, ?_, ?_, ok.addressable, ?_⟩
  · simp [Snapshot.isConsistent, snapshot, ok.cursor_le, ok.committed_le]
  · intro newest hn
    exact chain.1 newest (List.mem_of_mem_head? hn)
  · intro hu
    exact ⟨(ok.unused hu).1, (ok.unused hu).2, ok.saved_nil (Or.inl hu)⟩
  · intro hc
    exact ok.saved_nil (Or.inr hc)
  · intro hc later
    exact (run_continues ok later).closed hc

/-- A commit fails in the second slice: the region is closed, and it still adds up. -/
theorem run_bookkeeping_of_failed_commit :
    let failing : Machine := { kernel := { failures := [⟨.mprotect, 12, 0⟩] } }
    let r := twoPages.run [⟨{}, .slice 100 16⟩, ⟨{}, .checkpoint⟩, ⟨failing, .slice 5000 1⟩]
    twoPages.Made ∧ twoPages.backend.toGeometry.Sound ∧
      r.phase = .closed ∧ r.saved = [] ∧ r.snapshot.isConsistent = true := by
  intro failing r
  have holds := run_bookkeeping twoPages_made twoPages_geometry
    [⟨{}, .slice 100 16⟩, ⟨{}, .checkpoint⟩, ⟨failing, .slice 5000 1⟩]
  have hclosed : r.phase = .closed := by decide
  exact ⟨twoPages_made, twoPages_geometry, hclosed, holds.2.2.2.2.1 hclosed, holds.2.1.2.2.2⟩

end Region

end PageArena
