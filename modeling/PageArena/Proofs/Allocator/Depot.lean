/-
What is obtained for batch heaps and what is given back for them.

Any number of batch heaps share one backend.  The history of a run tells what the heaps were
asked and what they answered, and which calls the backend wrote down meanwhile; it is read by
looking at the answers and the calls alone.  `Kept` says of one heap that its log is what it was
asked for and granted, and that its allocations stand in the backend's books under the numbers
that the backend gave them.  `Apart` says what keeps the heaps out of each other's way: no two
hold an allocation at one address, because the address of one that is in use is not handed out.

So a batch finds every entry under its own number, and gives each back once, by the primitive
that made it.
-/
import Mathlib
import PageArena.Allocator.Strategy
import PageArena.Proofs.Allocator.BatchHeap
import PageArena.Proofs.Allocator.Sharing

namespace PageArena

/-- The kind and the number of an allocation that the backend has given. -/
def Observer.Call.obtained? : Observer.Call → Option (Primitive × Nat)
  | .allocate _ (.ok id) => some (.plain, id)
  | .allocateAligned _ _ (.ok id) => some (.aligned, id)
  | _ => none

/-- The kind and the number of an allocation that is given back, by the primitive that is
called. -/
def Observer.Call.released? : Observer.Call → Option (Primitive × Nat)
  | .release id => some (.plain, id)
  | .releaseAligned id => some (.aligned, id)
  | _ => none

/-- How batch heaps over a source come to be: alone, or from a factory. -/
inductive BatchHeap.Made (source : RawSource) : BatchHeap → Prop
  | alone {σ : Type} {w w' : World σ} {tuning : HeapTuning} {heap : BatchHeap}
      (h : (BatchHeap.ofSource source tuning).run w = (.ok (some heap), w')) : Made source heap
  | byFactory {σ : Type} {w w' : World σ} {tuning : HeapTuning} {factory : Factory}
      {heap : BatchHeap} {either : Bool}
      (h : (Factory.ofSource source tuning).run w = (.ok factory, w'))
      (made : factory.makeOver none = some ⟨.heap heap, either⟩) : Made source heap

theorem BatchHeap.eq_of_fresh? {source : RawSource} {tuning : HeapTuning} {heap : BatchHeap}
    (h : BatchHeap.fresh? source tuning = some heap) : heap = { source := source } := by
  unfold BatchHeap.fresh? at h
  split at h
  · exact (Option.some.inj h).symm
  · cases h

theorem BatchHeap.Made.eq {source : RawSource} {heap : BatchHeap} (made : Made source heap) :
    heap = { source := source } := by
  cases made with
  | @alone _ w w' tuning _ h =>
      unfold BatchHeap.ofSource at h
      obtain ⟨_, w₁, -, h⟩ | ⟨e, -, h⟩ := Act.run_bind_cases h
      · exact BatchHeap.eq_of_fresh? (Except.ok.inj (Prod.mk.inj h).1)
      · cases h
  | @byFactory _ w w' tuning factory _ either h made =>
      unfold Factory.ofSource at h
      obtain ⟨_, w₁, -, h⟩ | ⟨e, -, h⟩ := Act.run_bind_cases h
      · obtain rfl := Except.ok.inj (Prod.mk.inj h).1
        obtain ⟨fresh, hfresh, hsame⟩ := Option.map_eq_some_iff.mp made
        cases hsame
        exact BatchHeap.eq_of_fresh? hfresh
      · cases h

/-- Batch heaps, and the machine whose backend they share. -/
structure Depot where
  machine : Machine
  heaps : Nat → BatchHeap

namespace Depot

open Commons (Errand)

/-- The operation of an errand at a batch heap, and the span that it gives if it gives one. -/
def act : Errand → Act ArenaError BatchHeap (Option Span)
  | .allocate size align zeroed => do
    return some (← if zeroed then BatchHeap.allocateZeroed size align
      else BatchHeap.allocate size align)
  | .close => do
    BatchHeap.close
    return none
  | .drop => do
    BatchHeap.discard.mapError Empty.elim
    return none

/-- One errand at one heap, and how the backend's allocations fail meanwhile. -/
structure Turn where
  heap : Nat
  errand : Errand
  failing : Option (Nat × Observer.FailureKind) := none

/-- The world that a turn finds. -/
def found (d : Depot) (u : Turn) : World BatchHeap :=
  { d.machine with
    observer := { d.machine.observer with failing := u.failing }
    self := d.heaps u.heap }

/-- What becomes of a heap and the machine in a turn. -/
def meet (d : Depot) (u : Turn) : Except ArenaError (Option Span) × World BatchHeap :=
  (act u.errand).run (d.found u)

/-- The depot after a turn. -/
def after (d : Depot) (u : Turn) : Depot where
  machine := (d.meet u).2.toMachine
  heaps := Function.update d.heaps u.heap (d.meet u).2.self

/-- The depot after a run. -/
def run (d : Depot) (us : List Turn) : Depot := us.foldl after d

/-- What can be seen of a turn: what a heap was asked and what it answered, and the calls of
the backend. -/
structure Happening where
  heap : Nat
  errand : Errand
  answer : Except ArenaError (Option Span)
  calls : List Observer.Call

/-- What can be seen of a turn. -/
def happening (d : Depot) (u : Turn) : Happening where
  heap := u.heap
  errand := u.errand
  answer := (d.meet u).1
  calls := (d.meet u).2.observer.calls.drop d.machine.observer.calls.length

/-- What can be seen of a run. -/
def history (d : Depot) : List Turn → List Happening
  | [] => []
  | u :: us => d.happening u :: (d.after u).history us

/-- What was granted: where it begins, and the primitive for the alignment that was asked for. -/
def Happening.granted? (x : Happening) : Option Allocation :=
  match x.errand, x.answer with
  | .allocate _ align _, .ok (some span) =>
    some ⟨span.start, if Primitive.naturalAlign < align then .aligned else .plain⟩
  | _, _ => none

/-- What is seen of one heap. -/
def ofHeap (hs : List Happening) (h : Nat) : List Happening := hs.filter (·.heap = h)

/-- The allocations that were granted, in their order. -/
def granted (hs : List Happening) : List Allocation := hs.filterMap Happening.granted?

/-- The kinds and numbers of the allocations that the backend gave, in their order. -/
def obtained (hs : List Happening) : List (Primitive × Nat) :=
  hs.flatMap fun x => x.calls.filterMap Observer.Call.obtained?

/-- The kinds and numbers of the allocations that the backend got back, in their order. -/
def released (hs : List Happening) : List (Primitive × Nat) :=
  hs.flatMap fun x => x.calls.filterMap Observer.Call.released?

/-! ### Histories -/

variable {d d' : Depot} {hs : List Happening} {x : Happening} {h : Nat}

theorem run_concat (d : Depot) (us : List Turn) (u : Turn) :
    d.run (us ++ [u]) = (d.run us).after u := List.foldl_concat ..

theorem history_concat (d : Depot) (us : List Turn) (u : Turn) :
    d.history (us ++ [u]) = d.history us ++ [(d.run us).happening u] := by
  induction us generalizing d with
  | nil => rfl
  | cons first us ih => exact congrArg (d.happening first :: ·) (ih (d.after first))

theorem granted_concat (hs : List Happening) (x : Happening) :
    granted (hs ++ [x]) = granted hs ++ granted [x] := List.filterMap_append

theorem obtained_append (hs later : List Happening) :
    obtained (hs ++ later) = obtained hs ++ obtained later := List.flatMap_append

theorem released_append (hs later : List Happening) :
    released (hs ++ later) = released hs ++ released later := List.flatMap_append

theorem ofHeap_concat_self (hs : List Happening) (x : Happening) :
    ofHeap (hs ++ [x]) x.heap = ofHeap hs x.heap ++ [x] := by
  unfold ofHeap
  rw [List.filter_append, List.filter_cons_of_pos (by simp)]
  rfl

theorem ofHeap_concat_of_ne (hs : List Happening) (hne : h ≠ x.heap) :
    ofHeap (hs ++ [x]) h = ofHeap hs h := by
  unfold ofHeap
  rw [List.filter_append, List.filter_cons_of_neg (by simpa using hne.symm)]
  exact List.append_nil _

/-- One request for memory gives what the backend answered, and gives nothing back. -/
theorem filterMap_asking (size align : Nat) (result : Except HostError Nat) :
    [Observer.Call.asking size align result].filterMap Observer.Call.obtained? =
        (result.toOption.map (Primitive.forAlignment align, ·)).toList ∧
      [Observer.Call.asking size align result].filterMap Observer.Call.released? = [] := by
  unfold Observer.Call.asking
  cases Primitive.forAlignment align with
  | plain =>
      cases result with
      | error e => exact ⟨rfl, rfl⟩
      | ok id => exact ⟨rfl, rfl⟩
  | aligned =>
      cases result with
      | error e => exact ⟨rfl, rfl⟩
      | ok id => exact ⟨rfl, rfl⟩

/-- A batch gives nothing, and gives back what it is said to. -/
theorem filterMap_batch (numbers : List (Primitive × Nat)) :
    (Observer.Call.batch numbers).filterMap Observer.Call.obtained? = [] ∧
      (Observer.Call.batch numbers).filterMap Observer.Call.released? = numbers := by
  have one : ∀ number : Primitive × Nat, (Observer.Call.releasing number).obtained? = none ∧
      (Observer.Call.releasing number).released? = some number := by
    rintro ⟨kind, id⟩
    cases kind with
    | plain => exact ⟨rfl, rfl⟩
    | aligned => exact ⟨rfl, rfl⟩
  unfold Observer.Call.batch
  by_cases hnone : numbers = []
  · rw [if_pos hnone, hnone]
    exact ⟨rfl, rfl⟩
  · rw [if_neg hnone]
    constructor
    · show (numbers.map _).filterMap _ = _
      rw [List.filterMap_map, List.filterMap_eq_nil_iff]
      exact fun number _ => (one number).1
    · show (numbers.map _).filterMap _ = _
      rw [List.filterMap_map]
      exact (List.filterMap_congr fun number _ => (one number).2).trans List.filterMap_some

/-! ### One heap -/

/-- A heap's log is what was granted to it, and stands in the books under the numbers that were
given for it; nothing is given back before its end, and everything at its end. -/
structure Kept (heap : BatchHeap) (m : Supply) (hs : List Happening) : Prop where
  closed : heap.closed = true ↔ ∃ x ∈ hs, x.errand.Ends
  entries : heap.entries = if heap.closed then [] else granted hs
  obtained : heap.closed = false → obtained hs = m.numbers heap.entries
  released : released hs = if heap.closed then Depot.obtained hs else []

variable {heap : BatchHeap} {m m' : Supply}

/-- The books may change for others. -/
theorem Kept.others (kept : Kept heap m hs)
    (h : m'.numbers heap.entries = m.numbers heap.entries) : Kept heap m' hs :=
  { kept with obtained := fun opened => (kept.obtained opened).trans h.symm }

theorem ends_concat (hs : List Happening) (x : Happening) :
    (∃ y ∈ hs ++ [x], y.errand.Ends) ↔ (∃ y ∈ hs, y.errand.Ends) ∨ x.errand.Ends := by
  simp only [List.mem_append, List.mem_singleton, or_and_right, exists_or, exists_eq_left]

/-- A happening that gives the heap nothing, and does not end it. -/
theorem Kept.idle (kept : Kept heap m hs) (ends : x.errand.Ends → heap.closed = true)
    (ungranted : Depot.granted [x] = []) (unobtained : Depot.obtained [x] = [])
    (unreleased : Depot.released [x] = []) : Kept heap m (hs ++ [x]) where
  closed := by
    rw [ends_concat, ← kept.closed]
    exact ⟨Or.inl, fun h => h.elim id ends⟩
  entries := by
    rw [granted_concat, ungranted, List.append_nil]
    exact kept.entries
  obtained opened := by
    rw [obtained_append, unobtained, List.append_nil]
    exact kept.obtained opened
  released := by
    rw [released_append, obtained_append, unobtained, unreleased, List.append_nil, List.append_nil]
    exact kept.released

/-- An allocation is granted to the heap. -/
theorem Kept.granted (kept : Kept heap m hs) {a : Allocation} {id : Nat}
    (opened : heap.closed = false) (stays : ¬ x.errand.Ends) (given : Depot.granted [x] = [a])
    (obtained : Depot.obtained [x] = [(a.kind, id)]) (unreleased : Depot.released [x] = [])
    (numbers : m'.numbers (heap.entries ++ [a]) = m.numbers heap.entries ++ [(a.kind, id)]) :
    Kept { heap with entries := heap.entries ++ [a] } m' (hs ++ [x]) where
  closed := by
    rw [ends_concat, ← kept.closed]
    exact ⟨Or.inl, fun h => h.resolve_right stays⟩
  entries := by
    have hentries := kept.entries
    rw [opened] at hentries ⊢
    rw [granted_concat, given, hentries]
    rfl
  obtained _ := by
    rw [obtained_append, obtained, kept.obtained opened]
    exact numbers.symm
  released := by
    rw [released_append, unreleased, List.append_nil, kept.released, opened]
    rfl

/-- The heap is ended. -/
theorem Kept.ended (kept : Kept heap m hs) (opened : heap.closed = false)
    (ends : x.errand.Ends) (unobtained : Depot.obtained [x] = [])
    (released : Depot.released [x] = m.numbers heap.entries) :
    Kept { heap with closed := true, entries := [] } m' (hs ++ [x]) where
  closed := by
    rw [ends_concat]
    exact ⟨fun _ => Or.inr ends, fun _ => rfl⟩
  entries := rfl
  obtained := nofun
  released := by
    rw [released_append, obtained_append, unobtained, released, kept.released, opened,
      List.append_nil, kept.obtained opened]
    rfl

/-! ### One turn -/

/-- The heaps use the watched backend, and everything that they have been granted is in use, no
two allocations at one address. -/
structure Apart (d : Depot) : Prop where
  watched : ∀ h, (d.heaps h).source = .observer
  sized : ∀ b ∈ d.machine.heap.blocks, 0 < b.size
  places : RawHeap.PlacesApart d.machine.heap.place
  held : ∀ h, ∀ a ∈ (d.heaps h).entries, ∃ b ∈ d.machine.heap.blocks, b.start = a.address
  distinct : ∀ h, ((d.heaps h).entries.map Allocation.address).Nodup
  disjoint : ∀ h k, h ≠ k → ∀ a ∈ (d.heaps h).entries, ∀ b ∈ (d.heaps k).entries,
    a.address ≠ b.address

/-- A turn replaces the one heap. -/
theorem heaps_after (d : Depot) (u : Turn) :
    (d.after u).heaps = Function.update d.heaps u.heap ((d.after u).heaps u.heap) := by
  show Function.update _ _ _ = Function.update _ _ (Function.update _ _ _ _)
  rw [Function.update_self]

/-- How a turn can go for the heap and the backend that it meets, with the calls that it makes. -/
inductive Meets (heap : BatchHeap) (m : Supply) :
    Errand → Except ArenaError (Option Span) → BatchHeap → Supply → List Observer.Call → Prop
  | allocate {size align : Nat} {zeroed : Bool} {answer : Except ArenaError Span}
      {heap' : BatchHeap} {m' : Supply} {made : List Observer.Call}
      (h : BatchHeap.Allocates size align heap m answer heap' m' made) :
      Meets heap m (.allocate size align zeroed) (answer.map some) heap' m' made
  | ended {errand : Errand} {answer : Except ArenaError (Option Span)} {heap' : BatchHeap}
      {m' : Supply} {made : List Observer.Call} (ends : errand.Ends)
      (h : BatchHeap.Closes heap m heap' m' made) : Meets heap m errand answer heap' m' made

theorem Meets.calls {errand : Errand} {answer : Except ArenaError (Option Span)}
    {heap' : BatchHeap} {made : List Observer.Call}
    (h : Meets heap m errand answer heap' m' made) : m'.calls = m.calls ++ made := by
  cases h with
  | allocate h => exact h.calls
  | ended ends h => exact h.calls

theorem meet_meets (apart : d.Apart) (u : Turn) :
    ∃ made, Meets (d.heaps u.heap) d.machine.supply u.errand (d.meet u).1 (d.meet u).2.self
      (d.meet u).2.supply made := by
  have watched : (d.found u).self.source = .observer := apart.watched u.heap
  have distinct : ((d.found u).self.entries.map Allocation.address).Nodup := apart.distinct u.heap
  have hself : (d.found u).self = d.heaps u.heap := rfl
  have hsupply : (d.found u).supply = d.machine.supply := rfl
  unfold meet
  rw [← hself, ← hsupply]
  generalize d.found u = w at watched distinct
  cases u.errand with
  | allocate size align zeroed =>
      cases zeroed with
      | false =>
          simp only [act, Bool.false_eq_true, if_false, Region.run_bind_pure]
          exact (BatchHeap.allocate_allocates watched rfl).imp fun _ h => .allocate h
      | true =>
          simp only [act, if_true, Region.run_bind_pure]
          exact (BatchHeap.allocateZeroed_allocates watched rfl).imp fun _ h => .allocate h
  | close =>
      simp only [act, Region.run_bind_pure]
      exact (BatchHeap.close_closes watched distinct rfl).imp fun _ h => .ended trivial h
  | drop =>
      simp only [act, Region.run_bind_pure, Act.run_mapError]
      exact (BatchHeap.discard_closes watched distinct rfl).imp fun _ h => .ended trivial h

/-- What happens in a turn is what the heap and the backend meet in it. -/
theorem Apart.meets (apart : d.Apart) (u : Turn) :
    Meets (d.heaps u.heap) d.machine.supply u.errand (d.happening u).answer
      ((d.after u).heaps u.heap) (d.after u).machine.supply (d.happening u).calls := by
  obtain ⟨made, hmeets⟩ := meet_meets apart u
  have hcalls : (d.happening u).calls = made := by
    show (d.meet u).2.supply.calls.drop d.machine.supply.calls.length = made
    rw [hmeets.calls, List.drop_left]
  have hheap : (d.after u).heaps u.heap = (d.meet u).2.self := Function.update_self ..
  rw [hcalls, hheap]
  exact hmeets

/-- An allocation asks the backend at most once; one that fails changes no heap, and a lack of
memory is told in the caller's numbers. -/
theorem Apart.allocates (apart : d.Apart) {u : Turn} {size align : Nat} {zeroed : Bool}
    (h : u.errand = .allocate size align zeroed) :
    ((d.happening u).calls = [] ∨
      ∃ result, (d.happening u).calls = [.asking size align result]) ∧
    (∀ error, (d.happening u).answer = .error error → (d.after u).heaps = d.heaps) ∧
    ∀ bytes unit, (d.happening u).calls =
        [.asking size align (.error (.allocationFailed bytes unit))] →
      (d.happening u).answer = .error (.allocationFailed size align) := by
  have hmeets := apart.meets u
  have hheaps := heaps_after d u
  rw [h] at hmeets
  generalize (d.happening u).calls = calls at hmeets ⊢
  generalize (d.happening u).answer = answer at hmeets ⊢
  generalize (d.after u).machine.supply = m at hmeets
  generalize (d.after u).heaps u.heap = heap at hmeets hheaps
  cases hmeets with
  | ended ends => exact ends.elim
  | allocate h =>
      cases h with
      | rejected keeps =>
          refine ⟨Or.inl rfl, fun error herror => ?_, nofun⟩
          rw [hheaps, Function.update_eq_self]
      | failed opened keeps told =>
          refine ⟨Or.inr ⟨_, rfl⟩, fun error herror => ?_, fun bytes unit hsame => ?_⟩
          · rw [hheaps, Function.update_eq_self]
          · have hresult := Observer.Call.asking_inj (List.singleton_inj.mp hsame)
            exact congrArg Except.error (told bytes unit (Except.error.inj hresult))
      | granted opened grants =>
          refine ⟨Or.inr ⟨_, rfl⟩, nofun, fun bytes unit hsame => ?_⟩
          exact absurd (Observer.Call.asking_inj (List.singleton_inj.mp hsame)) nofun

/-- The first end of a heap is one batch of its log. -/
theorem Apart.ends (apart : d.Apart) {u : Turn} (ends : u.errand.Ends)
    (opened : (d.heaps u.heap).closed = false) :
    (d.happening u).calls =
      Observer.Call.batch (d.machine.supply.numbers (d.heaps u.heap).entries) := by
  have hmeets := apart.meets u
  generalize (d.happening u).calls = calls at hmeets ⊢
  generalize (d.happening u).answer = answer at hmeets
  generalize (d.after u).machine.supply = m at hmeets
  generalize (d.after u).heaps u.heap = heap at hmeets
  generalize u.errand = errand at hmeets ends
  cases hmeets with
  | allocate h => exact ends.elim
  | ended _ h =>
      cases h with
      | again closed keeps => exact absurd (opened.symm.trans closed) Bool.false_ne_true
      | released _ releases => rfl

/-- A heap that was ended calls nobody. -/
theorem Apart.silent (apart : d.Apart) {u : Turn} (closed : (d.heaps u.heap).closed = true) :
    (d.happening u).calls = [] := by
  have hmeets := apart.meets u
  have open_not : (d.heaps u.heap).closed ≠ false := by
    rw [closed]
    exact Bool.false_ne_true.symm
  generalize (d.happening u).calls = calls at hmeets ⊢
  generalize (d.happening u).answer = answer at hmeets
  generalize (d.after u).machine.supply = m at hmeets
  generalize (d.after u).heaps u.heap = heap at hmeets
  generalize u.errand = errand at hmeets
  cases hmeets with
  | allocate h =>
      cases h with
      | rejected keeps => rfl
      | failed opened keeps told => exact absurd opened open_not
      | granted opened grants => exact absurd opened open_not
  | ended _ h =>
      cases h with
      | again closed keeps => rfl
      | released opened releases => exact absurd opened open_not

/-- What a turn does to a depot. -/
inductive Goes (d : Depot) (x : Happening) (d' : Depot) : Prop
  | idle (heaps : d'.heaps = d.heaps) (keeps : d.machine.supply.Keeps d'.machine.supply x.calls)
      (ends : x.errand.Ends → (d.heaps x.heap).closed = true) (ungranted : granted [x] = [])
      (unobtained : obtained [x] = []) (unreleased : released [x] = [])
  | granted {a : Allocation} (opened : (d.heaps x.heap).closed = false)
      (stays : ¬ x.errand.Ends)
      (heaps : d'.heaps = Function.update d.heaps x.heap
        { d.heaps x.heap with entries := (d.heaps x.heap).entries ++ [a] })
      (grants : d.machine.supply.Grants d'.machine.supply a.address x.calls)
      (given : granted [x] = [a])
      (obtained : Depot.obtained [x] = [(a.kind, d.machine.supply.nextId)])
      (unreleased : released [x] = [])
  | ended (opened : (d.heaps x.heap).closed = false) (ends : x.errand.Ends)
      (heaps : d'.heaps = Function.update d.heaps x.heap
        { d.heaps x.heap with closed := true, entries := [] })
      (releases : d.machine.supply.Releases d'.machine.supply (d.heaps x.heap).entries)
      (unobtained : obtained [x] = [])
      (released : released [x] = d.machine.supply.numbers (d.heaps x.heap).entries)

theorem obtained_singleton (x : Happening) :
    obtained [x] = x.calls.filterMap Observer.Call.obtained? := List.flatMap_singleton ..

theorem released_singleton (x : Happening) :
    released [x] = x.calls.filterMap Observer.Call.released? := List.flatMap_singleton ..

theorem granted_of_ends (ends : x.errand.Ends) : granted [x] = [] := by
  obtain ⟨heap, errand, answer, calls⟩ := x
  cases errand with
  | allocate size align zeroed => exact ends.elim
  | close => rfl
  | drop => rfl

theorem granted_of_error {e : ArenaError} (h : x.answer = .error e) : granted [x] = [] := by
  obtain ⟨heap, errand, answer, calls⟩ := x
  obtain rfl : answer = .error e := h
  cases errand with
  | allocate size align zeroed => rfl
  | close => rfl
  | drop => rfl

theorem granted_of_ok {size align : Nat} {zeroed : Bool} {span : Span}
    (herrand : x.errand = .allocate size align zeroed) (h : x.answer = .ok (some span)) :
    granted [x] = [⟨span.start, Primitive.forAlignment align⟩] := by
  have hkind : Primitive.forAlignment align =
      if Primitive.naturalAlign < align then .aligned else .plain := by
    unfold Primitive.forAlignment
    by_cases halign : align ≤ Primitive.naturalAlign
    · rw [if_pos halign, if_neg (Nat.not_lt.mpr halign)]
    · rw [if_neg halign, if_pos (Nat.lt_of_not_le halign)]
  obtain ⟨heap, errand, answer, calls⟩ := x
  obtain rfl : errand = _ := herrand
  obtain rfl : answer = _ := h
  rw [hkind]
  rfl

/-- **One turn.** -/
theorem Apart.goes (apart : d.Apart) (u : Turn) : Goes d (d.happening u) (d.after u) := by
  have hmeets := apart.meets u
  have hheaps := heaps_after d u
  have hobtained := obtained_singleton (d.happening u)
  have hreleased := released_singleton (d.happening u)
  have hheap : (d.happening u).heap = u.heap := rfl
  have herrand : (d.happening u).errand = u.errand := rfl
  generalize d.happening u = x at *
  generalize d.after u = d' at *
  rw [← hheap] at hheaps
  rw [← hheap, ← herrand] at hmeets
  generalize hmade : x.calls = made at hmeets hobtained hreleased
  generalize hanswer : x.answer = answer at hmeets
  generalize herrand : x.errand = errand at hmeets
  generalize hsupply : d'.machine.supply = m at hmeets
  generalize d'.heaps x.heap = heap at hmeets hheaps
  cases hmeets with
  | allocate h =>
      have stays : ¬ x.errand.Ends := by
        rw [herrand]
        exact id
      cases h with
      | rejected keeps =>
          refine .idle ?_ ?_ (fun ends => absurd ends stays) (granted_of_error hanswer) hobtained
            hreleased
          · rw [hheaps, Function.update_eq_self]
          · rw [hsupply, hmade]
            exact keeps
      | failed opened keeps told =>
          obtain ⟨gives, gets⟩ := filterMap_asking _ _ _
          refine .idle ?_ ?_ (fun ends => absurd ends stays) (granted_of_error hanswer)
            (hobtained.trans gives) (hreleased.trans gets)
          · rw [hheaps, Function.update_eq_self]
          · rw [hsupply, hmade]
            exact keeps
      | granted opened grants =>
          obtain ⟨gives, gets⟩ := filterMap_asking _ _ _
          refine .granted opened stays hheaps ?_ (granted_of_ok herrand hanswer)
            (hobtained.trans gives) (hreleased.trans gets)
          rw [hsupply, hmade]
          exact grants
  | ended ends h =>
      rw [← herrand] at ends
      cases h with
      | again closed keeps =>
          refine .idle ?_ ?_ (fun _ => closed) (granted_of_ends ends) hobtained hreleased
          · rw [hheaps, Function.update_eq_self]
          · rw [hsupply, hmade]
            exact keeps
      | released opened releases =>
          obtain ⟨gives, gets⟩ := filterMap_batch
            (d.machine.supply.numbers (d.heaps x.heap).entries)
          refine .ended opened ends hheaps ?_ (hobtained.trans gives) (hreleased.trans gets)
          rw [hsupply]
          exact releases

/-! ### Whole runs -/

/-- What is granted lies where nothing else does. -/
theorem Apart.fresh (apart : d.Apart) {start : Nat} {m : Supply} {made : List Observer.Call}
    (grants : d.machine.supply.Grants m start made) :
    ∀ h, ∀ a ∈ (d.heaps h).entries, a.address ≠ start := by
  intro h a ha
  obtain ⟨b, hb, hstart⟩ := apart.held h a ha
  obtain ⟨request, size, align, aligned, placed⟩ := grants.placed
  rw [← hstart]
  exact apart.places request _ size align start apart.sized aligned placed b hb

/-- What one heap gives back is at no address of another. -/
theorem Apart.spared (apart : d.Apart) {k : Nat} (hne : h ≠ k) :
    ∀ a ∈ (d.heaps h).entries, a.address ∉ (d.heaps k).entries.map Allocation.address := by
  intro a ha hmem
  obtain ⟨b, hb, hsame⟩ := List.mem_map.mp hmem
  exact apart.disjoint h k hne a ha b hb hsame.symm

/-- A heap keeps its source. -/
theorem Goes.source (goes : Goes d x d') (h : Nat) :
    (d'.heaps h).source = (d.heaps h).source := by
  have update : ∀ heap : BatchHeap, heap.source = (d.heaps x.heap).source →
      (Function.update d.heaps x.heap heap h).source = (d.heaps h).source := by
    intro heap hsource
    by_cases hh : h = x.heap
    · rw [hh, Function.update_self, hsource]
    · rw [Function.update_of_ne hh]
  cases goes with
  | idle heaps keeps ends ungranted unobtained unreleased => rw [heaps]
  | granted opened stays heaps grants given obtained unreleased => exact heaps ▸ update _ rfl
  | ended opened ends heaps releases unobtained released => exact heaps ▸ update _ rfl

theorem Apart.step (apart : d.Apart) (goes : Goes d x d') : d'.Apart := by
  have watched : ∀ h, (d'.heaps h).source = .observer := fun h =>
    (goes.source h).trans (apart.watched h)
  cases goes with
  | idle heaps keeps ends ungranted unobtained unreleased =>
      have hblocks : d'.machine.heap.blocks = d.machine.heap.blocks := keeps.blocks
      have hplace : d'.machine.heap.place = d.machine.heap.place := keeps.place
      obtain ⟨-, sized, places, held, distinct, disjoint⟩ := apart
      rw [← hblocks] at sized held
      rw [← hplace] at places
      rw [← heaps] at held distinct disjoint
      exact ⟨watched, sized, places, held, distinct, disjoint⟩
  | @granted new opened stays heaps grants given obtained unreleased =>
      have hfresh := apart.fresh grants
      obtain ⟨size, hpos, hblocks⟩ := grants.blocks
      have hblocks : d'.machine.heap.blocks = ⟨new.address, size⟩ :: d.machine.heap.blocks :=
        hblocks
      have hplace : d'.machine.heap.place = d.machine.heap.place := grants.place
      have hself : d'.heaps x.heap = _ := heaps ▸ Function.update_self ..
      have hother : ∀ h ≠ x.heap, d'.heaps h = d.heaps h := fun h hne =>
        heaps ▸ Function.update_of_ne hne ..
      have hentries : ∀ h, ∀ a ∈ (d'.heaps h).entries,
          a ∈ (d.heaps h).entries ∨ h = x.heap ∧ a = new := by
        intro h a ha
        by_cases hh : h = x.heap
        · rw [hh, hself, List.mem_append, List.mem_singleton] at ha
          exact ha.imp (hh ▸ ·) (⟨hh, ·⟩)
        · exact Or.inl (hother h hh ▸ ha)
      refine ⟨watched, ?_, hplace ▸ apart.places, ?_, ?_, ?_⟩
      · rw [hblocks]
        exact List.forall_mem_cons.mpr ⟨hpos, apart.sized⟩
      · intro h a ha
        rw [hblocks]
        obtain hold | ⟨-, rfl⟩ := hentries h a ha
        · obtain ⟨b, hb, hstart⟩ := apart.held h a hold
          exact ⟨b, List.mem_cons_of_mem _ hb, hstart⟩
        · exact ⟨_, List.mem_cons_self, rfl⟩
      · intro h
        by_cases hh : h = x.heap
        · rw [hh, hself, List.map_append]
          refine List.nodup_append.mpr ⟨apart.distinct x.heap, List.nodup_singleton _, ?_⟩
          intro address haddress _ hnew
          obtain ⟨a, ha, rfl⟩ := List.mem_map.mp haddress
          rw [List.mem_singleton.mp hnew]
          exact hfresh x.heap a ha
        · rw [hother h hh]
          exact apart.distinct h
      · intro h k hne a ha b hb
        obtain hold | ⟨rfl, rfl⟩ := hentries h a ha
        · obtain hold' | ⟨rfl, rfl⟩ := hentries k b hb
          · exact apart.disjoint h k hne a hold b hold'
          · exact hfresh h a hold
        · obtain hold' | ⟨rfl, -⟩ := hentries k b hb
          · exact (hfresh k b hold').symm
          · exact absurd rfl hne
  | ended opened ends heaps releases unobtained released =>
      have hself : d'.heaps x.heap = _ := heaps ▸ Function.update_self ..
      have hother : ∀ h ≠ x.heap, d'.heaps h = d.heaps h := fun h hne =>
        heaps ▸ Function.update_of_ne hne ..
      have hplace : d'.machine.heap.place = d.machine.heap.place := releases.place
      have hentries : ∀ h, ∀ a ∈ (d'.heaps h).entries, h ≠ x.heap ∧ a ∈ (d.heaps h).entries := by
        intro h a ha
        by_cases hh : h = x.heap
        · rw [hh, hself] at ha
          exact absurd ha List.not_mem_nil
        · exact ⟨hh, hother h hh ▸ ha⟩
      refine ⟨watched, ?_, hplace ▸ apart.places, ?_, ?_, ?_⟩
      · exact fun b hb => apart.sized b (releases.blocks.subset hb)
      · intro h a ha
        obtain ⟨hh, hold⟩ := hentries h a ha
        obtain ⟨b, hb, hstart⟩ := apart.held h a hold
        exact ⟨b, releases.kept b hb (hstart ▸ apart.spared hh a hold), hstart⟩
      · intro h
        by_cases hh : h = x.heap
        · rw [hh, hself]
          exact List.nodup_nil
        · rw [hother h hh]
          exact apart.distinct h
      · intro h k hne a ha b hb
        exact apart.disjoint h k hne a (hentries h a ha).2 b (hentries k b hb).2

/-- What can be said of a depot after what was seen of it. -/
structure Accounted (d : Depot) (hs : List Happening) : Prop where
  apart : d.Apart
  kept : ∀ h, Kept (d.heaps h) d.machine.supply (ofHeap hs h)
  numbered : ∀ number ∈ obtained hs, number.2 < d.machine.supply.nextId
  once : ((obtained hs).map Prod.snd).Nodup

/-- What the backend gives in a turn has the next number. -/
theorem Goes.obtained (goes : Goes d x d') :
    Depot.obtained [x] = [] ∧ d'.machine.supply.nextId = d.machine.supply.nextId ∨
      ∃ kind, Depot.obtained [x] = [(kind, d.machine.supply.nextId)] ∧
        d'.machine.supply.nextId = d.machine.supply.nextId + 1 := by
  cases goes with
  | idle heaps keeps ends ungranted unobtained unreleased =>
      exact Or.inl ⟨unobtained, keeps.nextId⟩
  | granted opened stays heaps grants given obtained unreleased =>
      exact Or.inr ⟨_, obtained, grants.nextId⟩
  | ended opened ends heaps releases unobtained released =>
      exact Or.inl ⟨unobtained, releases.nextId⟩

theorem Accounted.step (accounted : d.Accounted hs) (goes : Goes d x d') :
    d'.Accounted (hs ++ [x]) := by
  obtain ⟨apart, kept, numbered, once⟩ := accounted
  have hself := ofHeap_concat_self hs x
  have hother : ∀ h ≠ x.heap, ofHeap (hs ++ [x]) h = ofHeap hs h := fun h hne =>
    ofHeap_concat_of_ne hs hne
  refine ⟨apart.step goes, ?_, ?_, ?_⟩
  · intro h
    cases goes with
    | idle heaps keeps ends ungranted unobtained unreleased =>
        rw [heaps]
        have others := (kept h).others (Supply.numbers_congr fun a _ => keeps.idOf a.address)
        by_cases hh : h = x.heap
        · subst hh
          rw [hself]
          exact others.idle ends ungranted unobtained unreleased
        · rw [hother h hh]
          exact others
    | @granted new opened stays heaps grants given obtained unreleased =>
        have hfresh := apart.fresh grants
        have hnumbers : ∀ h, d'.machine.supply.numbers (d.heaps h).entries =
            d.machine.supply.numbers (d.heaps h).entries := fun h =>
          Supply.numbers_congr fun a ha => grants.idOf_of_ne (hfresh h a ha)
        rw [heaps]
        by_cases hh : h = x.heap
        · subst hh
          rw [hself, Function.update_self]
          refine (kept x.heap).granted opened stays given obtained unreleased ?_
          rw [← hnumbers, ← grants.idOf_start]
          exact List.map_append
        · rw [hother h hh, Function.update_of_ne hh]
          exact (kept h).others (hnumbers h)
    | ended opened ends heaps releases unobtained released =>
        rw [heaps]
        by_cases hh : h = x.heap
        · subst hh
          rw [hself, Function.update_self]
          exact (kept x.heap).ended opened ends unobtained released
        · rw [hother h hh, Function.update_of_ne hh]
          exact (kept h).others
            (Supply.numbers_congr fun a ha => releases.idOf _ (apart.spared hh a ha))
  · intro number hnumber
    rw [obtained_append, List.mem_append] at hnumber
    obtain ⟨hnone, hnext⟩ | ⟨kind, hone, hnext⟩ := goes.obtained
    · rw [hnone] at hnumber
      exact hnext ▸ numbered number (hnumber.resolve_right List.not_mem_nil)
    · rw [hone, List.mem_singleton] at hnumber
      rw [hnext]
      obtain hold | rfl := hnumber
      · exact Nat.lt_succ_of_lt (numbered number hold)
      · exact Nat.lt_succ_self _
  · rw [obtained_append, List.map_append]
    obtain ⟨hnone, -⟩ | ⟨kind, hone, -⟩ := goes.obtained
    · rw [hnone]
      exact (List.append_nil _).symm ▸ once
    · rw [hone]
      refine List.nodup_append.mpr ⟨once, List.nodup_singleton _, ?_⟩
      intro id hid _ hnew
      obtain ⟨number, hnumber, rfl⟩ := List.mem_map.mp hid
      rw [List.mem_singleton.mp hnew]
      exact Nat.ne_of_lt (numbered number hnumber)

/-- **A whole run**: after it everything can be accounted for. -/
theorem Accounted.run (accounted : d.Accounted []) (us : List Turn) :
    (d.run us).Accounted (d.history us) := by
  induction us using List.reverseRecOn with
  | nil => exact accounted
  | append_singleton us u ih =>
      rw [run_concat, history_concat]
      exact ih.step (ih.apart.goes u)

/-- A depot before anything was asked of it. -/
structure Opened (d : Depot) : Prop where
  made : ∀ h, BatchHeap.Made .observer (d.heaps h)
  sized : ∀ b ∈ d.machine.heap.blocks, 0 < b.size
  places : RawHeap.PlacesApart d.machine.heap.place

theorem Opened.accounted (opened : d.Opened) : d.Accounted [] := by
  have hheaps : ∀ h, d.heaps h = { source := .observer } := fun h => (opened.made h).eq
  refine ⟨⟨?_, opened.sized, opened.places, ?_, ?_, ?_⟩, ?_, nofun, List.nodup_nil⟩
  · intro h
    rw [hheaps]
  · intro h a ha
    rw [hheaps] at ha
    exact absurd ha List.not_mem_nil
  · intro h
    rw [hheaps]
    exact List.nodup_nil
  · intro h k hne a ha
    rw [hheaps] at ha
    exact absurd ha List.not_mem_nil
  · intro h
    rw [hheaps]
    exact ⟨⟨nofun, fun ⟨_, hx, _⟩ => absurd hx List.not_mem_nil⟩, rfl, fun _ => rfl, rfl⟩

/-! ### What comes together from all heaps -/

/-- What agrees key by key is the same in another order. -/
theorem flatMap_perm_of_filter {α β : Type} (key : α → Nat) (f g : α → List β) (l : List α)
    (same : ∀ k, (l.filter (key · = k)).flatMap f = (l.filter (key · = k)).flatMap g) :
    (l.flatMap f).Perm (l.flatMap g) := by
  -- The elements with the key of the first one are taken out, so the rest is shorter.
  induction hlength : l.length using Nat.strong_induction_on generalizing l with
  | _ length ih =>
      cases l with
      | nil => exact .nil
      | cons first rest =>
          set l := first :: rest
          have hothers : (l.filter fun a => !decide (key a = key first)).length < length := by
            rw [← hlength]
            exact List.length_filter_lt_length_iff_exists.mpr ⟨first, List.mem_cons_self, by simp⟩
          have hsplit := List.filter_append_perm (key · = key first) l
          have hf := (hsplit.flatMap_right f).symm
          have hg := hsplit.flatMap_right g
          rw [List.flatMap_append] at hf hg
          rw [same] at hf
          refine hf.trans ((List.Perm.append_left _ (ih _ hothers _ ?_ rfl)).trans hg)
          intro k
          rw [List.filter_filter]
          by_cases hk : k = key first
          · rw [List.filter_eq_nil_iff.mpr (by simp [hk])]
            rfl
          · have hkeep : ∀ a, (decide (key a = k) && !decide (key a = key first)) =
                decide (key a = k) := by
              intro a
              by_cases ha : key a = k
              · simp [ha, hk]
              · simp [ha]
            simp only [hkeep]
            exact same k

/-- **Everything is given back once.**  Batch heaps over one backend, whatever is asked of them in
whatever order and however the backend fails. -/
theorem grants_given_back_once {d : Depot} (opened : d.Opened) (us : List Turn) :
    -- The log of a heap is what it has granted, until the heap is ended.
    (∀ h, (((d.run us).heaps h).closed = true ↔ ∃ x ∈ ofHeap (d.history us) h, x.errand.Ends) ∧
      ((d.run us).heaps h).entries =
        if ((d.run us).heaps h).closed then [] else granted (ofHeap (d.history us) h)) ∧
    -- An allocation asks the backend at most once; one that fails changes no log, and is told in
    -- the caller's numbers if the backend had no memory.
    (∀ u size align zeroed, u.errand = .allocate size align zeroed →
      (((d.run us).happening u).calls = [] ∨
        ∃ result, ((d.run us).happening u).calls = [.asking size align result]) ∧
      (∀ error, ((d.run us).happening u).answer = .error error →
        ((d.run us).after u).heaps = (d.run us).heaps) ∧
      ∀ bytes unit, ((d.run us).happening u).calls =
          [.asking size align (.error (.allocationFailed bytes unit))] →
        ((d.run us).happening u).answer = .error (.allocationFailed size align)) ∧
    -- The first end gives the log back in one batch, if there is anything in it.
    (∀ u, u.errand.Ends → ((d.run us).heaps u.heap).closed = false →
      ((d.run us).happening u).calls =
        Observer.Call.batch
          ((d.run us).machine.supply.numbers (granted (ofHeap (d.history us) u.heap))) ∧
      (d.run us).machine.supply.numbers (granted (ofHeap (d.history us) u.heap)) =
        obtained (ofHeap (d.history us) u.heap)) ∧
    -- After it the backend is not called any more.
    (∀ u, ((d.run us).heaps u.heap).closed = true → ((d.run us).happening u).calls = []) ∧
    -- What was obtained is given back once, by the primitive that made it.
    ((obtained (d.history us)).map Prod.snd).Nodup ∧
    (∀ h, released (ofHeap (d.history us) h) =
      if ((d.run us).heaps h).closed then obtained (ofHeap (d.history us) h) else []) ∧
    ((∀ h, granted (ofHeap (d.history us) h) ≠ [] → ((d.run us).heaps h).closed = true) →
      (released (d.history us)).Perm (obtained (d.history us))) := by
  have accounted := opened.accounted.run us
  have apart := accounted.apart
  have kept := accounted.kept
  have whole : ∀ h, ((d.run us).heaps h).closed = false →
      ((d.run us).heaps h).entries = granted (ofHeap (d.history us) h) := by
    intro h hopen
    rw [(kept h).entries, hopen]
    rfl
  refine ⟨fun h => ⟨(kept h).closed, (kept h).entries⟩, fun u size align zeroed => apart.allocates,
    ?_, fun u => apart.silent, accounted.once, fun h => (kept h).released, ?_⟩
  · intro u ends hopen
    rw [← whole u.heap hopen]
    exact ⟨apart.ends ends hopen, ((kept u.heap).obtained hopen).symm⟩
  · intro hended
    refine flatMap_perm_of_filter Happening.heap _ _ _ fun h => ?_
    show released (ofHeap _ h) = obtained (ofHeap _ h)
    rw [(kept h).released]
    cases hclosed : ((d.run us).heaps h).closed with
    | true => rfl
    | false =>
        have hnone : granted (ofHeap (d.history us) h) = [] := by
          by_contra hsome
          exact absurd (hclosed.symm.trans (hended h hsome)) Bool.false_ne_true
        rw [(kept h).obtained hclosed, whole h hclosed, hnone]
        rfl

/-- A heap alone, and heaps of a factory, that have not been asked for anything. -/
def untouched : Depot := ⟨{}, fun _ => { source := .observer }⟩

/-- Two heaps allocate in turn, the backend has no memory once, and in the end one heap is closed
twice and the other dropped. -/
theorem grants_of_two_heaps_given_back :
    let us : List Turn :=
      [⟨0, .allocate 24 8 false, none⟩, ⟨1, .allocate 100 16 true, none⟩,
        ⟨0, .allocate 40 64 false, some (0, .refused)⟩, ⟨0, .allocate 8 32 false, none⟩]
    let ends : List Turn := [⟨0, .close, none⟩, ⟨0, .close, none⟩, ⟨1, .drop, none⟩]
    untouched.Opened ∧
      ((untouched.run us).heaps 0).entries = [⟨0x10000, .plain⟩, ⟨0x100a0, .aligned⟩] ∧
      ((untouched.run us).happening ⟨0, .close, none⟩).calls =
        [.releaseBatch [(.plain, 0), (.aligned, 2)], .release 0, .releaseAligned 2] ∧
      (∃ x ∈ untouched.history us, x.calls =
          [.asking 40 64 (.error (.allocationFailed 0 0))] ∧
        x.answer = .error (.allocationFailed 40 64)) ∧
      released (untouched.history (us ++ ends)) = [(.plain, 0), (.aligned, 2), (.plain, 1)] ∧
      (released (untouched.history (us ++ ends))).Perm
        (obtained (untouched.history (us ++ ends))) := by
  intro us ends
  have opened : untouched.Opened := by
    refine ⟨fun h => ?_, nofun, RawHeap.behindAll_placesApart⟩
    let w : World Unit := ⟨{}, ()⟩
    cases h with
    | zero =>
        have alone : (BatchHeap.ofSource .observer {}).run w =
          (.ok (some { source := .observer }), w) := rfl
        exact .alone alone
    | succ h =>
        have factory : (Factory.ofSource .observer {}).run w =
          (.ok { source := .observer }, w) := rfl
        exact .byFactory factory rfl
  obtain ⟨-, -, -, -, -, -, balanced⟩ := grants_given_back_once opened (us ++ ends)
  refine ⟨opened, by decide, rfl, ?_, rfl, balanced ?_⟩
  · let u : Turn := ⟨0, .allocate 40 64 false, some (0, .refused)⟩
    refine ⟨(untouched.run (us.take 2)).happening u, ?_, rfl, rfl⟩
    exact List.mem_of_getElem? (i := 2) rfl
  · intro h hsome
    have heaps : (untouched.history (us ++ ends)).map Happening.heap = [0, 1, 0, 0, 0, 0, 1] := rfl
    obtain ⟨x, hx⟩ := List.exists_mem_of_ne_nil _ fun hnone : ofHeap _ h = [] => hsome (hnone ▸ rfl)
    obtain ⟨hmem, hheap⟩ := List.mem_filter.mp hx
    obtain rfl : x.heap = h := of_decide_eq_true hheap
    have hone : x.heap ∈ [0, 1, 0, 0, 0, 0, 1] := heaps ▸ List.mem_map_of_mem hmem
    have hended : ∀ h ∈ [0, 1, 0, 0, 0, 0, 1],
        ((untouched.run (us ++ ends)).heaps h).closed = true := by decide
    exact hended x.heap hone

end Depot

end PageArena
