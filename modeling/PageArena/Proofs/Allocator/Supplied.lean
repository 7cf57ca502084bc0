/-
Batch heaps whose source does not fail.

A source can serve a request if the heap behind it has a place for it, and if the watched
backend has not been told to fail.  Then the request is answered with an address of the
alignment, from either source and by either primitive.  To give memory back cannot fail at all.

So there is little that can happen to a batch heap over such a source, and `Answers` tells all
of it.
-/
import Mathlib
import PageArena.Proofs.Allocator.Depot
import PageArena.Proofs.Region.Indistinct

namespace PageArena

open Commons (Errand)

/-- The heap has a place for so many bytes, and it is aligned as it was asked to be. -/
def RawHeap.HasPlace (h : RawHeap) (size align : Nat) : Prop :=
  ∃ start, h.place h.requests h.blocks (max size 1) (max align Primitive.naturalAlign)
      = some start ∧ max align Primitive.naturalAlign ∣ start

namespace RawSource

/-- The source does not fail a request: the heap has a place for it, and the watched backend
has not been told to fail. -/
def CanServe (source : RawSource) (machine : Machine) (size align : Nat) : Prop :=
  machine.heap.HasPlace size align ∧
    (source = .observer → ∀ kind, machine.observer.failing ≠ some (0, kind))

variable {σ : Type} {w : World σ} {size align start : Nat}

/-- A request that is answered with an address, and changes nothing of its object. -/
def Yields (request : Act HostError σ Nat) (w : World σ) (start : Nat) : Prop :=
  ∃ w', request.run w = (.ok start, w') ∧ w'.self = w.self

theorem yields_granted {requested unit : Nat}
    (h : w.heap.place w.heap.requests w.heap.blocks requested unit = some start) :
    Yields (do granted size align (← Act.heap (RawHeap.obtain? · requested unit))) w start := by
  have hobtained : (w.heap.obtain? requested unit).1 = some start := by
    simp only [RawHeap.obtain?, h]
  refine ⟨{ w with heap := (w.heap.obtain? requested unit).2 }, ?_, rfl⟩
  rw [Act.run_bind, Act.run_heap, hobtained]
  rfl

/-- A backend that has not been told to fail passes the request on. -/
theorem yields_watch {call : Except HostError Nat → Observer.Call}
    {request : Act HostError σ Nat}
    (willing : ∀ kind, w.observer.failing ≠ some (0, kind))
    (h : ∀ o, Yields request { w with observer := o } start) :
    Yields (FromObserver.watch align call request) w start := by
  have hscreen : (w.observer.screen align).1 = none := by
    unfold Observer.screen
    split
    · rfl
    · rename_i kind hfailing
      exact absurd hfailing (willing kind)
    · rfl
  rcases hverdict : w.observer.screen align with ⟨verdict, o⟩
  rw [hverdict] at hscreen
  obtain rfl : verdict = none := hscreen
  obtain ⟨w₁, hrun, hself⟩ := h o
  refine ⟨{ w₁ with observer :=
    (w₁.observer.enrol start).2.record (call (.ok (w₁.observer.enrol start).1)) }, ?_, hself⟩
  simp only [FromObserver.watch, Act.run_bind, Act.run_observer, hverdict, Act.run_attempt, hrun,
    Act.run_pure]

/-- **A request that does not fail** is answered with an address of the alignment. -/
theorem allocate_of_canServe {source : RawSource} (aligned : Word.isPowerOfTwo align = true)
    (serves : source.CanServe w.toMachine size align) :
    ∃ address kind w', (source.allocate size align).run w = (.ok ⟨address, kind⟩, w') ∧
      w'.self = w.self ∧ align ∣ address := by
  obtain ⟨⟨start, hplace, hdvd⟩, willing⟩ := serves
  have natural : Word.isPowerOfTwo Primitive.naturalAlign = true := by decide
  unfold allocate
  by_cases hle : align ≤ Primitive.naturalAlign
  · rw [max_eq_right hle] at hplace hdvd
    have hstart := Nat.dvd_trans (Word.dvd_of_isPowerOfTwo aligned natural hle) hdvd
    have yields (w₁ : World σ) (hheap : w₁.heap = w.heap) :
        Yields (FromHeap.allocate size) w₁ start := yields_granted (hheap ▸ hplace)
    have hkind : Primitive.forAlignment align = .plain := if_pos hle
    cases source with
    | heap =>
        obtain ⟨w', hrun, hself⟩ := yields w rfl
        refine ⟨start, .plain, w', ?_, hself, hstart⟩
        simp only [hkind, Region.run_bind_pure, hrun]
        rfl
    | observer =>
        have watched : Yields (FromObserver.allocate size) w start :=
          yields_watch (willing rfl) fun o => yields { w with observer := o } rfl
        obtain ⟨w', hrun, hself⟩ := watched
        refine ⟨start, .plain, w', ?_, hself, hstart⟩
        simp only [hkind, Region.run_bind_pure, hrun]
        rfl
  · have hlt := Nat.lt_of_not_le hle
    rw [max_eq_left (Nat.le_of_lt hlt)] at hplace hdvd
    have yields (w₁ : World σ) (hheap : w₁.heap = w.heap) :
        Yields (FromHeap.allocateAligned size align) w₁ start := by
      unfold FromHeap.allocateAligned
      rw [if_pos aligned, max_eq_left (show leastAlign ≤ align from
        Nat.le_trans (by decide) (Nat.le_of_lt hlt))]
      exact yields_granted (hheap ▸ hplace)
    have hkind : Primitive.forAlignment align = .aligned := if_neg hle
    cases source with
    | heap =>
        obtain ⟨w', hrun, hself⟩ := yields w rfl
        refine ⟨start, .aligned, w', ?_, hself, hdvd⟩
        simp only [hkind, Region.run_bind_pure, hrun]
        rfl
    | observer =>
        have watched : Yields (FromObserver.allocateAligned size align) w start :=
          yields_watch (willing rfl) fun o => yields { w with observer := o } rfl
        obtain ⟨w', hrun, hself⟩ := watched
        refine ⟨start, .aligned, w', ?_, hself, hdvd⟩
        simp only [hkind, Region.run_bind_pure, hrun]
        rfl

/-- To give memory back is an errand that cannot fail, and nothing else hears of it. -/
theorem releaseAll_ok {ε : Type} (source : RawSource) (entries : List Allocation) (w : World σ) :
    ∃ w', (source.releaseAll entries : Act ε σ Unit).run w = (.ok (), w') ∧ w'.self = w.self := by
  induction entries generalizing w with
  | nil => exact ⟨w, rfl, rfl⟩
  | cons a rest ih =>
      have first : ∃ w₁, (source.release a : Act ε σ Unit).run w = (.ok (), w₁) ∧
          w₁.self = w.self := by
        cases source with
        | heap => exact ⟨_, rfl, rfl⟩
        | observer => exact ⟨_, run_release a w, rfl⟩
      obtain ⟨w₁, hfirst, hself⟩ := first
      obtain ⟨w', hrest, hself'⟩ := ih w₁
      unfold releaseAll
      rw [Act.run_bind_ok hfirst]
      exact ⟨w', hrest, hself'.trans hself⟩

theorem releaseBatch_ok {ε : Type} (source : RawSource) (entries : List Allocation)
    (w : World σ) :
    ∃ w', (source.releaseBatch entries : Act ε σ Unit).run w = (.ok (), w') ∧
      w'.self = w.self := by
  cases source with
  | heap => exact releaseAll_ok .heap entries w
  | observer => exact releaseAll_ok .observer entries _

end RawSource

/-! ### The batch heap -/

namespace BatchHeap

variable {w : World BatchHeap} {size align : Nat}

/-- How a batch heap answers an errand if its source does not fail. -/
inductive Answers (heap : BatchHeap) : Errand → Except ArenaError (Option Span) → BatchHeap → Prop
  | misaligned {size align : Nat} {zeroed : Bool} (h : Word.isPowerOfTwo align = false) :
      Answers heap (.allocate size align zeroed) (.error (.invalidAlignment align)) heap
  | late {size align : Nat} {zeroed : Bool} (aligned : Word.isPowerOfTwo align = true)
      (closed : heap.closed = true) :
      Answers heap (.allocate size align zeroed) (.error (.invalidState StateFault.heapClosed))
        heap
  | given {size align address : Nat} {zeroed : Bool} {heap' : BatchHeap}
      (aligned : Word.isPowerOfTwo align = true) (opened : heap.closed = false)
      (multiple : align ∣ address) (opened' : heap'.closed = false)
      (source : heap'.source = heap.source) :
      Answers heap (.allocate size align zeroed) (.ok (some ⟨address, size⟩)) heap'
  | again (closed : heap.closed = true) :
      Answers heap .close (.error (.invalidState StateFault.heapAlreadyClosed)) heap
  | closed {heap' : BatchHeap} (opened : heap.closed = false) (closed' : heap'.closed = true)
      (source : heap'.source = heap.source) : Answers heap .close (.ok none) heap'
  | dropped {heap' : BatchHeap} (closed' : heap'.closed = true)
      (source : heap'.source = heap.source) : Answers heap .drop (.ok none) heap'

theorem allocate_answers (zeroed : Bool)
    (serves : Word.isPowerOfTwo align = true → w.self.closed = false →
      w.self.source.CanServe w.toMachine size align) :
    Answers w.self (.allocate size align zeroed) (((allocate size align).run w).1.map some)
      ((allocate size align).run w).2.self := by
  unfold allocate
  cases haligned : Word.isPowerOfTwo align with
  | false =>
      rw [Checked.alignment_of_not haligned]
      exact .misaligned haligned
  | true =>
      rw [Checked.alignment_of_isPowerOfTwo haligned, Act.settle_ok, Act.run_pure_bind,
        Act.run_self_bind]
      cases hclosed : w.self.closed with
      | true =>
          simp only [if_true, Act.run_raise]
          exact .late haligned hclosed
      | false =>
          obtain ⟨address, kind, w₁, hrun, hself, hdvd⟩ :=
            RawSource.allocate_of_canServe haligned (serves haligned hclosed)
          simp only [Bool.false_eq_true, if_false, Act.run_bind, Act.run_attempt, hrun,
            Act.run_emit, Act.run_update, Act.run_pure]
          refine .given haligned hclosed hdvd ?_ ?_
          · show w₁.self.closed = false
            rw [hself, hclosed]
          · show w₁.self.source = w.self.source
            rw [hself]

/-- Setting the memory to zero changes neither the answer nor the heap. -/
theorem allocateZeroed_run (size align : Nat) (w : World BatchHeap) :
    ((allocateZeroed size align).run w).1 = ((allocate size align).run w).1 ∧
      ((allocateZeroed size align).run w).2.self = ((allocate size align).run w).2.self := by
  unfold allocateZeroed
  rw [Act.run_bind]
  rcases (allocate size align).run w with ⟨e | span, w'⟩
  · exact ⟨rfl, rfl⟩
  · exact ⟨rfl, rfl⟩

/-- An open heap is closed, whatever it holds. -/
theorem close_of_open (opened : w.self.closed = false) :
    ∃ w', close.run w = (.ok (), w') ∧ w'.self.closed = true ∧
      w'.self.source = w.self.source := by
  unfold close
  rw [Act.run_self_bind]
  simp only [opened, Bool.false_eq_true, if_false, Act.run_bind, Act.run_update]
  by_cases hnone : w.self.entries = []
  · simp only [if_pos hnone, Act.run_pure]
    exact ⟨_, rfl, rfl, rfl⟩
  · simp only [if_neg hnone]
    obtain ⟨w', hrun, hself⟩ := RawSource.releaseBatch_ok (ε := ArenaError) w.self.source
      w.self.entries { w with self := { w.self with closed := true, entries := [] } }
    refine ⟨w', hrun, ?_, ?_⟩
    · rw [hself]
    · rw [hself]

theorem close_answers :
    Answers w.self .close ((close.run w).1.map fun _ => none) (close.run w).2.self := by
  cases hclosed : w.self.closed with
  | true =>
      have hrun : (close.run w).1 = .error (.invalidState StateFault.heapAlreadyClosed) ∧
          (close.run w).2.self = w.self := by
        unfold close
        simp only [Act.run_self_bind, hclosed, if_true, Act.run_raise]
        exact ⟨trivial, trivial⟩
      rw [hrun.1, hrun.2]
      exact .again hclosed
  | false =>
      obtain ⟨w', hrun, hclosed', hsource⟩ := close_of_open hclosed
      rw [hrun]
      exact .closed hclosed hclosed' hsource

theorem discard_answers :
    Answers w.self .drop
      (((discard.mapError Empty.elim : Act ArenaError BatchHeap Unit).run w).1.map fun _ => none)
      (discard.run w).2.self := by
  rw [Act.run_mapError]
  unfold discard
  rw [Act.run_self_bind]
  cases hclosed : w.self.closed with
  | true =>
      simp only [if_true, Act.run_pure]
      exact .dropped hclosed rfl
  | false =>
      simp only [Bool.false_eq_true, if_false]
      -- The report, if there is one, changes nothing of the heap.
      by_cases hnone : w.self.entries ≠ []
      · obtain ⟨w', hrun, hclosed', hsource⟩ :=
          close_of_open (w := { w with log := w.log ++ [.heapDropped w.self.entries.length] })
            hclosed
        simp only [if_pos hnone, Act.run_bind, Act.run_emit, Act.run_attempt, Act.run_pure, hrun]
        exact .dropped hclosed' hsource
      · obtain ⟨w', hrun, hclosed', hsource⟩ := close_of_open hclosed
        simp only [if_neg hnone, Act.run_bind, Act.run_attempt, Act.run_pure, hrun]
        exact .dropped hclosed' hsource

/-- **One errand** at a batch heap whose source does not fail. -/
theorem act_answers {heap : BatchHeap} {machine : Machine} {errand : Errand}
    (serves : ∀ {size align zeroed}, errand = .allocate size align zeroed →
      Word.isPowerOfTwo align = true → heap.closed = false →
      heap.source.CanServe machine size align) :
    Answers heap errand ((Depot.act errand).run { machine with self := heap }).1
      ((Depot.act errand).run { machine with self := heap }).2.self := by
  cases errand with
  | allocate size align zeroed =>
      have answers := allocate_answers (w := ⟨machine, heap⟩) zeroed (serves rfl)
      cases zeroed with
      | false =>
          simp only [Depot.act, Bool.false_eq_true, if_false, Region.run_bind_pure]
          exact answers
      | true =>
          obtain ⟨hanswer, hself⟩ := allocateZeroed_run size align ⟨machine, heap⟩
          simp only [Depot.act, if_true, Region.run_bind_pure, hanswer, hself]
          exact answers
  | close =>
      simp only [Depot.act, Region.run_bind_pure]
      exact close_answers (w := ⟨machine, heap⟩)
  | drop =>
      simp only [Depot.act, Region.run_bind_pure]
      exact discard_answers (w := ⟨machine, heap⟩)

end BatchHeap

end PageArena
