/-
The ways a batch heap can go over the watched backend.

Of the world of a batch heap four things matter: which blocks are in use, which of them the
backend has numbered, the next number, and the calls that were written down.  A request is
granted or it is not (`Supply.Grants`, `Supply.Keeps`); what is given back leaves the books one
entry after the other (`Supply.freed`).  An allocation is one request, if it gets as far as that,
and an end is one batch, if there is anything in it.

Nothing is assumed of where blocks are placed but what a backend owes its callers: that no
block is placed at the start of one in use.
-/
import Mathlib
import PageArena.Allocator.BatchHeap
import PageArena.Proofs.Region.Run

namespace PageArena

namespace RawHeap

/-- A way of placing blocks that never uses the start of a block in use. -/
def PlacesApart (place : Nat → List Block → Nat → Nat → Option Nat) : Prop :=
  ∀ request blocks size align start, (∀ b ∈ blocks, 0 < b.size) → 0 < align →
    place request blocks size align = some start → ∀ b ∈ blocks, b.start ≠ start

/-- How a request for a block can go. -/
inductive Serves (h : RawHeap) : Option Nat → RawHeap → Prop
  | placed {request size align start : Nat} {h' : RawHeap} (pos : 0 < size) (aligned : 0 < align)
      (placed : h.place request h.blocks size align = some start)
      (blocks : h'.blocks = ⟨start, size⟩ :: h.blocks) (place : h'.place = h.place) :
      Serves h (some start) h'
  | refused {h' : RawHeap} (blocks : h'.blocks = h.blocks) (place : h'.place = h.place) :
      Serves h none h'

theorem obtain?_serves (h : RawHeap) {size align : Nat} (pos : 0 < size) (aligned : 0 < align) :
    h.Serves (h.obtain? size align).1 (h.obtain? size align).2 := by
  unfold obtain?
  cases hplace : h.place h.requests h.blocks size align with
  | none => exact .refused rfl rfl
  | some start => exact .placed pos aligned hplace rfl rfl

/-- The highest of some ends is not below any of them, nor below where it was started from. -/
theorem le_foldl_stop (blocks : List Block) (start : Nat) :
    start ≤ blocks.foldl (fun t b => max t b.stop) start ∧
      ∀ b ∈ blocks, b.stop ≤ blocks.foldl (fun t b => max t b.stop) start := by
  induction blocks generalizing start with
  | nil => exact ⟨Nat.le_refl start, nofun⟩
  | cons first rest ih =>
      obtain ⟨hstart, hrest⟩ := ih (max start first.stop)
      refine ⟨Nat.le_trans (Nat.le_max_left _ _) hstart, List.forall_mem_cons.mpr ⟨?_, hrest⟩⟩
      exact Nat.le_trans (Nat.le_max_right _ _) hstart

/-- Placing blocks behind all others keeps them apart. -/
theorem behindAll_placesApart : PlacesApart behindAll := by
  intro request blocks size align start sized aligned h b hb
  unfold behindAll at h
  split at h
  · cases h
  · obtain rfl := Option.some.inj h
    have hstop : b.stop ≤ top blocks := (le_foldl_stop blocks bottom).2 b hb
    have hsize := sized b hb
    have hround := Nat.div_add_mod' (top blocks + (align - 1)) align
    have hrest := Nat.mod_lt (top blocks + (align - 1)) aligned
    unfold Block.stop at hstop
    omega

end RawHeap

namespace Observer

/-- The call by which memory of an alignment is asked for. -/
def Call.asking (size align : Nat) (result : Except HostError Nat) : Call :=
  match Primitive.forAlignment align with
  | .plain => .allocate size result
  | .aligned => .allocateAligned size align result

theorem Call.asking_inj {size align : Nat} {result result' : Except HostError Nat}
    (h : Call.asking size align result = Call.asking size align result') : result = result' := by
  unfold asking at h
  cases hkind : Primitive.forAlignment align with
  | plain =>
      rw [hkind] at h
      exact (Call.allocate.inj h).2
  | aligned =>
      rw [hkind] at h
      exact (Call.allocateAligned.inj h).2.2

/-- The call by which an allocation of some kind and number is given back. -/
def Call.releasing : Primitive × Nat → Call
  | (.plain, id) => .release id
  | (.aligned, id) => .releaseAligned id

/-- The calls by which numbered allocations are given back in one batch. -/
def Call.batch (numbers : List (Primitive × Nat)) : List Call :=
  if numbers = [] then [] else .releaseBatch numbers :: numbers.map Call.releasing

/-- What is struck off under one address is found under no other. -/
theorem lookup_eraseP_of_ne {ids : List (Nat × Nat)} {address struck : Nat}
    (h : address ≠ struck) : (ids.eraseP (·.1 == struck)).lookup address = ids.lookup address := by
  induction ids with
  | nil => rfl
  | cons first rest ih =>
      obtain ⟨key, id⟩ := first
      by_cases hkey : key = struck
      · rw [List.eraseP_cons_of_pos (by simp [hkey]), List.lookup_cons, hkey,
          beq_eq_false_iff_ne.mpr h]
      · rw [List.eraseP_cons_of_neg (by simp [hkey]), List.lookup_cons, List.lookup_cons, ih]

/-- Whether an allocation has to fail is no matter of what is in use. -/
theorem screen_frame {o o' : Observer} {align : Nat} {verdict : Option HostError}
    (h : o.screen align = (verdict, o')) :
    o'.ids = o.ids ∧ o'.nextId = o.nextId ∧ o'.calls = o.calls := by
  unfold screen at h
  split at h
  · obtain ⟨-, rfl⟩ := Prod.mk.inj h
    exact ⟨rfl, rfl, rfl⟩
  · obtain ⟨-, rfl⟩ := Prod.mk.inj h
    exact ⟨rfl, rfl, rfl⟩
  · obtain ⟨-, rfl⟩ := Prod.mk.inj h
    exact ⟨rfl, rfl, rfl⟩

end Observer

/-- What the watched backend knows, and the heap behind it. -/
structure Supply where
  /-- The numbers of the allocations in use, by their addresses. -/
  ids : List (Nat × Nat)
  nextId : Nat
  calls : List Observer.Call
  heap : RawHeap

/-- The backend of a machine. -/
def Machine.supply (m : Machine) : Supply :=
  ⟨m.observer.ids, m.observer.nextId, m.observer.calls, m.heap⟩

/-- A world with another backend. -/
def World.withSupply {σ : Type} (w : World σ) (m : Supply) : World σ :=
  { w with
    observer := { w.observer with ids := m.ids, nextId := m.nextId, calls := m.calls }
    heap := m.heap }

namespace Supply

/-- The number of the allocation at an address. -/
def idOf (m : Supply) (address : Nat) : Nat := (m.ids.lookup address).getD 0

/-- The kinds and the numbers of allocations. -/
def numbers (m : Supply) (entries : List Allocation) : List (Primitive × Nat) :=
  entries.map fun a => (a.kind, m.idOf a.address)

/-- The backend after calls that gave nothing. -/
structure Keeps (m m' : Supply) (made : List Observer.Call) : Prop where
  ids : m'.ids = m.ids
  nextId : m'.nextId = m.nextId
  calls : m'.calls = m.calls ++ made
  blocks : m'.heap.blocks = m.heap.blocks
  place : m'.heap.place = m.heap.place

/-- The backend after a call that gave an allocation. -/
structure Grants (m m' : Supply) (start : Nat) (made : List Observer.Call) : Prop where
  ids : m'.ids = (start, m.nextId) :: m.ids
  nextId : m'.nextId = m.nextId + 1
  calls : m'.calls = m.calls ++ made
  blocks : ∃ size, 0 < size ∧ m'.heap.blocks = ⟨start, size⟩ :: m.heap.blocks
  place : m'.heap.place = m.heap.place
  placed : ∃ request size align, 0 < align ∧
    m.heap.place request m.heap.blocks size align = some start

/-- The backend after a batch was given back. -/
structure Releases (m m' : Supply) (entries : List Allocation) : Prop where
  nextId : m'.nextId = m.nextId
  calls : m'.calls = m.calls ++ Observer.Call.batch (m.numbers entries)
  idOf : ∀ address ∉ entries.map Allocation.address, m'.idOf address = m.idOf address
  blocks : m'.heap.blocks.Sublist m.heap.blocks
  kept : ∀ b ∈ m.heap.blocks, b.start ∉ entries.map Allocation.address → b ∈ m'.heap.blocks
  place : m'.heap.place = m.heap.place

/-- The backend after an allocation was given back. -/
def freed (m : Supply) (a : Allocation) : Supply where
  ids := m.ids.eraseP (·.1 == a.address)
  nextId := m.nextId
  calls := m.calls ++ [.releasing (a.kind, m.idOf a.address)]
  heap := m.heap.free a.address

variable {m m' : Supply} {made : List Observer.Call} {entries : List Allocation}
  {start address : Nat}

theorem numbers_congr (h : ∀ a ∈ entries, m'.idOf a.address = m.idOf a.address) :
    m'.numbers entries = m.numbers entries :=
  List.map_congr_left fun a ha => congrArg (a.kind, ·) (h a ha)

theorem Keeps.refl (m : Supply) : m.Keeps m [] :=
  ⟨rfl, rfl, (List.append_nil _).symm, rfl, rfl⟩

theorem Keeps.idOf (keeps : m.Keeps m' made) (address : Nat) :
    m'.idOf address = m.idOf address := by
  unfold Supply.idOf
  rw [keeps.ids]

theorem Grants.idOf_start (grants : m.Grants m' start made) : m'.idOf start = m.nextId := by
  unfold idOf
  rw [grants.ids, List.lookup_cons_self]
  rfl

theorem Grants.idOf_of_ne (grants : m.Grants m' start made) (h : address ≠ start) :
    m'.idOf address = m.idOf address := by
  unfold idOf
  rw [grants.ids, List.lookup_cons, beq_eq_false_iff_ne.mpr h]

/-- To give nothing back changes nothing. -/
theorem Releases.nil (m : Supply) : m.Releases m [] :=
  ⟨rfl, (List.append_nil _).symm, fun _ _ => rfl, List.Sublist.refl _, fun _ hb _ => hb, rfl⟩

/-- What is given back leaves the numbers of all others. -/
theorem idOf_freed {a : Allocation} (h : address ≠ a.address) :
    (m.freed a).idOf address = m.idOf address := by
  show ((m.ids.eraseP (·.1 == a.address)).lookup address).getD 0 = _
  rw [Observer.lookup_eraseP_of_ne h]
  rfl

theorem numbers_freed {a : Allocation} (h : a.address ∉ entries.map Allocation.address) :
    (m.freed a).numbers entries = m.numbers entries := by
  refine numbers_congr fun b hb => idOf_freed ?_
  rintro hsame
  exact h (hsame ▸ List.mem_map_of_mem hb)

/-- Entries that lie apart are given back one after the other. -/
theorem calls_foldl_freed (entries : List Allocation)
    (apart : (entries.map Allocation.address).Nodup) :
    (entries.foldl freed m).calls =
      m.calls ++ (m.numbers entries).map Observer.Call.releasing := by
  induction entries generalizing m with
  | nil => exact (List.append_nil _).symm
  | cons a rest ih =>
      obtain ⟨hfirst, hrest⟩ := List.nodup_cons.mp apart
      rw [List.foldl_cons, ih hrest, numbers_freed hfirst]
      show (m.calls ++ [_]) ++ _ = _
      rw [List.append_assoc]
      rfl

/-- Nothing but what is given back is changed. -/
theorem frame_foldl_freed (entries : List Allocation) :
    (entries.foldl freed m).nextId = m.nextId ∧
      (∀ address ∉ entries.map Allocation.address,
        (entries.foldl freed m).idOf address = m.idOf address) ∧
      (entries.foldl freed m).heap.blocks.Sublist m.heap.blocks ∧
      (∀ b ∈ m.heap.blocks, b.start ∉ entries.map Allocation.address →
        b ∈ (entries.foldl freed m).heap.blocks) ∧
      (entries.foldl freed m).heap.place = m.heap.place := by
  induction entries generalizing m with
  | nil => exact ⟨rfl, fun _ _ => rfl, List.Sublist.refl _, fun b hb _ => hb, rfl⟩
  | cons a rest ih =>
      obtain ⟨hnext, hids, hblocks, hkept, hplace⟩ := ih (m := m.freed a)
      refine ⟨hnext, ?_, hblocks.trans List.eraseP_sublist, ?_, hplace⟩
      · intro address hother
        rw [List.map_cons, List.mem_cons, not_or] at hother
        exact (hids address hother.2).trans (idOf_freed hother.1)
      · intro b hb hother
        rw [List.map_cons, List.mem_cons, not_or] at hother
        refine hkept b ?_ hother.2
        exact (List.mem_eraseP_of_neg (by simpa using hother.1)).mpr hb

end Supply

namespace RawSource

variable {σ : Type} {w w' : World σ} {size align : Nat}

/-- A request of the heap is answered as the heap serves it, and touches nothing else. -/
def Passes (request : Act HostError σ Nat) : Prop :=
  ∀ {w answer w'}, request.run w = (answer, w') →
    w'.self = w.self ∧ w'.observer = w.observer ∧ w.heap.Serves answer.toOption w'.heap

theorem passes_granted {requested unit : Nat} (pos : 0 < requested) (aligned : 0 < unit) :
    Passes (σ := σ) (do granted size align (← Act.heap (RawHeap.obtain? · requested unit))) := by
  intro w answer w' h
  have hserves := w.heap.obtain?_serves pos aligned
  rw [Act.run_bind, Act.run_heap] at h
  generalize w.heap.obtain? requested unit = obtained at h hserves
  obtain ⟨start, heap⟩ := obtained
  cases start with
  | none =>
      obtain ⟨rfl, rfl⟩ := Prod.mk.inj h
      exact ⟨rfl, rfl, hserves⟩
  | some start =>
      obtain ⟨rfl, rfl⟩ := Prod.mk.inj h
      exact ⟨rfl, rfl, hserves⟩

theorem FromHeap.passes_allocate (size : Nat) : Passes (σ := σ) (FromHeap.allocate size) :=
  passes_granted (Nat.lt_of_lt_of_le Nat.one_pos (Nat.le_max_right _ _)) (by decide)

theorem FromHeap.passes_allocateAligned (aligned : Word.isPowerOfTwo align = true) :
    Passes (σ := σ) (FromHeap.allocateAligned size align) := by
  unfold FromHeap.allocateAligned
  rw [if_pos aligned]
  exact passes_granted (Nat.lt_of_lt_of_le Nat.one_pos (Nat.le_max_right _ _))
    (Nat.lt_of_lt_of_le (by decide) (Nat.le_max_right align leastAlign))

/-- How the watched backend answers a request. -/
inductive Watched (call : Except HostError Nat → Observer.Call) (m : Supply) :
    Except HostError Nat → Supply → Prop
  | granted {start : Nat} {m' : Supply}
      (grants : m.Grants m' start [call (.ok m.nextId)]) : Watched call m (.ok start) m'
  | denied {error : HostError} {m' : Supply} (keeps : m.Keeps m' [call (.error error)]) :
      Watched call m (.error error) m'

theorem FromObserver.watch_watched {call : Except HostError Nat → Observer.Call}
    {request : Act HostError σ Nat} {answer : Except HostError Nat} (passes : Passes request)
    (h : (FromObserver.watch align call request).run w = (answer, w')) :
    w'.self = w.self ∧ Watched call w.supply answer w'.supply := by
  simp only [FromObserver.watch, Act.run_bind, Act.run_observer] at h
  rcases hscreen : w.observer.screen align with ⟨verdict, o⟩
  obtain ⟨hids, hnext, hcalls⟩ := Observer.screen_frame hscreen
  simp only [hscreen] at h
  cases verdict with
  | some error =>
      obtain ⟨rfl, rfl⟩ := Prod.mk.inj h
      refine ⟨rfl, .denied ⟨hids, hnext, ?_, rfl, rfl⟩⟩
      exact congrArg (· ++ [call (.error error)]) hcalls
  | none =>
      rcases hrequest : request.run { w with observer := o } with ⟨answered, w₁⟩
      obtain ⟨hself, hobserver, hserves⟩ := passes hrequest
      have hobserver : w₁.observer = o := hobserver
      simp only [Act.run_bind, Act.run_attempt, hrequest] at h
      cases answered with
      | error error =>
          obtain ⟨rfl, rfl⟩ := Prod.mk.inj h
          cases hserves with
          | refused blocks place =>
              refine ⟨hself, .denied ⟨?_, ?_, ?_, blocks, place⟩⟩
              · exact (congrArg Observer.ids hobserver).trans hids
              · exact (congrArg Observer.nextId hobserver).trans hnext
              · show w₁.observer.calls ++ _ = _
                rw [hobserver]
                exact congrArg (· ++ [call (.error error)]) hcalls
      | ok start =>
          obtain ⟨rfl, rfl⟩ := Prod.mk.inj h
          cases hserves with
          | placed pos aligned placed blocks place =>
              refine ⟨hself, .granted ⟨?_, ?_, ?_, ⟨_, pos, blocks⟩, place, _, _, _, aligned,
                placed⟩⟩
              · show (start, w₁.observer.nextId) :: w₁.observer.ids =
                  (start, w.observer.nextId) :: w.observer.ids
                rw [hobserver, hids, hnext]
              · show w₁.observer.nextId + 1 = w.observer.nextId + 1
                rw [hobserver, hnext]
              · show w₁.observer.calls ++ [call (.ok w₁.observer.nextId)] =
                  w.observer.calls ++ [call (.ok w.observer.nextId)]
                rw [hobserver, hnext, hcalls]

/-- The watched backend is asked by the primitive that serves the alignment. -/
theorem allocate_watched {answer : Except HostError Allocation}
    (aligned : Word.isPowerOfTwo align = true)
    (h : (RawSource.observer.allocate size align).run w = (answer, w')) :
    w'.self = w.self ∧ ∃ answered,
      answer = answered.map (⟨·, Primitive.forAlignment align⟩) ∧
      Watched (Observer.Call.asking size align) w.supply answered w'.supply := by
  unfold allocate Observer.Call.asking at *
  cases hkind : Primitive.forAlignment align with
  | plain =>
      simp only [hkind, Region.run_bind_pure] at h ⊢
      rcases hrun : (FromObserver.allocate size).run w with ⟨answered, w₁⟩
      rw [hrun] at h
      obtain ⟨rfl, rfl⟩ := Prod.mk.inj h
      obtain ⟨hself, watched⟩ := FromObserver.watch_watched (FromHeap.passes_allocate size) hrun
      exact ⟨hself, answered, rfl, watched⟩
  | aligned =>
      simp only [hkind, Region.run_bind_pure] at h ⊢
      rcases hrun : (FromObserver.allocateAligned size align).run w with ⟨answered, w₁⟩
      rw [hrun] at h
      obtain ⟨rfl, rfl⟩ := Prod.mk.inj h
      obtain ⟨hself, watched⟩ :=
        FromObserver.watch_watched (FromHeap.passes_allocateAligned aligned) hrun
      exact ⟨hself, answered, rfl, watched⟩

theorem run_release {ε : Type} (a : Allocation) (w : World σ) :
    (RawSource.observer.release a : Act ε σ Unit).run w = (.ok (), w.withSupply (w.supply.freed a)) := by
  obtain ⟨address, kind⟩ := a
  cases kind with
  | plain => rfl
  | aligned => rfl

theorem run_releaseAll {ε : Type} (entries : List Allocation) (w : World σ) :
    (RawSource.observer.releaseAll entries : Act ε σ Unit).run w =
      (.ok (), w.withSupply (entries.foldl Supply.freed w.supply)) := by
  induction entries generalizing w with
  | nil => rfl
  | cons a rest ih =>
      unfold releaseAll
      rw [Act.run_bind_ok (run_release a w), ih]
      rfl

/-- A batch is written down as a whole, and then entry by entry. -/
theorem releaseBatch_releases {ε : Type} {entries : List Allocation} (some : entries ≠ [])
    (apart : (entries.map Allocation.address).Nodup) {answer : Except ε Unit}
    (h : (RawSource.observer.releaseBatch entries).run w = (answer, w')) :
    w'.self = w.self ∧ answer = .ok () ∧ w.supply.Releases w'.supply entries := by
  unfold releaseBatch at h
  simp only [Act.run_bind, Act.run_observer, run_releaseAll] at h
  obtain ⟨rfl, rfl⟩ := Prod.mk.inj h
  refine ⟨rfl, rfl, ?_⟩
  obtain ⟨hnext, hids, hblocks, hkept, hplace⟩ := Supply.frame_foldl_freed
    (m := { w.supply with calls := w.supply.calls ++ [.releaseBatch (w.supply.numbers entries)] })
    entries
  refine ⟨hnext, ?_, hids, hblocks, hkept, hplace⟩
  have hnumbers : w.supply.numbers entries ≠ [] :=
    fun hnone => some (List.map_eq_nil_iff.mp hnone)
  rw [Observer.Call.batch, if_neg hnumbers]
  exact (Supply.calls_foldl_freed entries apart).trans (List.append_assoc _ _ _)

end RawSource

namespace BatchHeap

/-- How an allocation from a batch heap can go, with the calls that it makes. -/
inductive Allocates (size align : Nat) (heap : BatchHeap) (m : Supply) :
    Except ArenaError Span → BatchHeap → Supply → List Observer.Call → Prop
  /-- The backend was not asked. -/
  | rejected {e : ArenaError} {m' : Supply} (keeps : m.Keeps m' []) :
      Allocates size align heap m (.error e) heap m' []
  | failed {error : HostError} {e : ArenaError} {m' : Supply} (opened : heap.closed = false)
      (keeps : m.Keeps m' [.asking size align (.error error)])
      (told : ∀ bytes unit, error = .allocationFailed bytes unit → e = .allocationFailed size align) :
      Allocates size align heap m (.error e) heap m' [.asking size align (.error error)]
  | granted {start : Nat} {m' : Supply} (opened : heap.closed = false)
      (grants : m.Grants m' start [.asking size align (.ok m.nextId)]) :
      Allocates size align heap m (.ok ⟨start, size⟩)
        { heap with entries := heap.entries ++ [⟨start, Primitive.forAlignment align⟩] } m'
        [.asking size align (.ok m.nextId)]

variable {w w' : World BatchHeap} {size align : Nat} {heap heap' : BatchHeap} {m m' : Supply}
  {made : List Observer.Call}

theorem Allocates.calls {answer : Except ArenaError Span}
    (h : Allocates size align heap m answer heap' m' made) : m'.calls = m.calls ++ made := by
  cases h with
  | rejected keeps => exact keeps.calls
  | failed opened keeps told => exact keeps.calls
  | granted opened grants => exact grants.calls

theorem allocate_allocates (watched : w.self.source = .observer) {answer : Except ArenaError Span}
    (h : (allocate size align).run w = (answer, w')) :
    ∃ made, Allocates size align w.self w.supply answer w'.self w'.supply made := by
  unfold allocate at h
  cases haligned : Word.isPowerOfTwo align with
  | false =>
      rw [Checked.alignment_of_not haligned] at h
      obtain ⟨rfl, rfl⟩ := Prod.mk.inj h
      exact ⟨_, .rejected (.refl w.supply)⟩
  | true =>
      rw [Checked.alignment_of_isPowerOfTwo haligned, Act.settle_ok, Act.run_pure_bind,
        Act.run_self_bind] at h
      cases hclosed : w.self.closed with
      | true =>
          simp only [hclosed, if_true, Act.run_raise] at h
          obtain ⟨rfl, rfl⟩ := Prod.mk.inj h
          exact ⟨_, .rejected (.refl w.supply)⟩
      | false =>
          rcases hrun : (RawSource.observer.allocate size align).run w with ⟨answered, w₁⟩
          obtain ⟨hself, result, rfl, hwatched⟩ := RawSource.allocate_watched haligned hrun
          simp only [hclosed, Bool.false_eq_true, if_false, watched, Act.run_bind, Act.run_attempt,
            hrun] at h
          generalize hsupply : w₁.supply = supply at hwatched
          cases hwatched with
          | @granted start _ grants =>
              obtain ⟨rfl, rfl⟩ := Prod.mk.inj h
              show ∃ made, Allocates size align w.self w.supply (.ok ⟨start, size⟩)
                { w₁.self with entries := w₁.self.entries ++ [⟨start, _⟩] } w₁.supply made
              rw [hself, hsupply]
              exact ⟨_, .granted hclosed grants⟩
          | @denied error _ keeps =>
              have way : ∀ e, (∀ bytes unit, error = .allocationFailed bytes unit →
                  e = .allocationFailed size align) →
                  ∃ made, Allocates size align w.self w.supply (.error e) w₁.self w₁.supply
                    made := by
                intro e told
                rw [hself, hsupply]
                exact ⟨_, .failed hclosed keeps told⟩
              cases error with
              | allocationFailed bytes unit =>
                  obtain ⟨rfl, rfl⟩ := Prod.mk.inj h
                  exact way _ fun _ _ _ => rfl
              | unsupportedOs text =>
                  obtain ⟨rfl, rfl⟩ := Prod.mk.inj h
                  exact way _ nofun
              | platform text code =>
                  obtain ⟨rfl, rfl⟩ := Prod.mk.inj h
                  exact way _ nofun
              | invalidAlignment align =>
                  obtain ⟨rfl, rfl⟩ := Prod.mk.inj h
                  exact way _ nofun

/-- Setting the memory to zero is nothing to the backend. -/
theorem allocateZeroed_allocates (watched : w.self.source = .observer)
    {answer : Except ArenaError Span} (h : (allocateZeroed size align).run w = (answer, w')) :
    ∃ made, Allocates size align w.self w.supply answer w'.self w'.supply made := by
  unfold allocateZeroed at h
  obtain ⟨span, w₁, ha, h⟩ | ⟨e, ha, rfl⟩ := Act.run_bind_cases h
  · obtain ⟨made, hallocates⟩ := allocate_allocates watched ha
    obtain ⟨rfl, rfl⟩ := Prod.mk.inj h
    refine ⟨made, ?_⟩
    show Allocates size align w.self w.supply (.ok span) w₁.self _ made
    generalize w₁.self = heap at hallocates ⊢
    generalize hsupply : w₁.supply = supply at hallocates
    cases hallocates with
    | granted opened grants =>
        obtain ⟨ids, nextId, calls, blocks, place, placed⟩ := hsupply ▸ grants
        exact .granted opened ⟨ids, nextId, calls, blocks, place, placed⟩
  · exact allocate_allocates watched ha

/-- How the end of a batch heap can go, with the calls that it makes. -/
inductive Closes (heap : BatchHeap) (m : Supply) :
    BatchHeap → Supply → List Observer.Call → Prop
  | again {m' : Supply} (closed : heap.closed = true) (keeps : m.Keeps m' []) :
      Closes heap m heap m' []
  | released {m' : Supply} (opened : heap.closed = false) (releases : m.Releases m' heap.entries) :
      Closes heap m { heap with closed := true, entries := [] } m'
        (Observer.Call.batch (m.numbers heap.entries))

theorem Closes.calls (h : Closes heap m heap' m' made) : m'.calls = m.calls ++ made := by
  cases h with
  | again closed keeps => exact keeps.calls
  | released opened releases => exact releases.calls

theorem close_closes (watched : w.self.source = .observer)
    (apart : (w.self.entries.map Allocation.address).Nodup) {answer : Except ArenaError Unit}
    (h : close.run w = (answer, w')) : ∃ made, Closes w.self w.supply w'.self w'.supply made := by
  unfold close at h
  rw [Act.run_self_bind] at h
  cases hclosed : w.self.closed with
  | true =>
      simp only [hclosed, if_true, Act.run_raise] at h
      obtain ⟨rfl, rfl⟩ := Prod.mk.inj h
      exact ⟨_, .again hclosed (.refl w.supply)⟩
  | false =>
      simp only [hclosed, Bool.false_eq_true, if_false, Act.run_bind, Act.run_update] at h
      by_cases hnone : w.self.entries = []
      · simp only [if_pos hnone, Act.run_pure] at h
        obtain ⟨rfl, rfl⟩ := Prod.mk.inj h
        refine ⟨_, .released hclosed ?_⟩
        rw [hnone]
        exact .nil w.supply
      · simp only [if_neg hnone, watched] at h
        obtain ⟨hself, -, releases⟩ := RawSource.releaseBatch_releases hnone apart h
        have way := Closes.released hclosed releases
        rw [watched] at way
        rw [hself]
        exact ⟨_, way⟩

theorem discard_closes (watched : w.self.source = .observer)
    (apart : (w.self.entries.map Allocation.address).Nodup) {answer : Except Empty Unit}
    (h : discard.run w = (answer, w')) :
    ∃ made, Closes w.self w.supply w'.self w'.supply made := by
  unfold discard at h
  rw [Act.run_self_bind] at h
  cases hclosed : w.self.closed with
  | true =>
      simp only [hclosed, if_true, Act.run_pure] at h
      obtain ⟨rfl, rfl⟩ := Prod.mk.inj h
      exact ⟨_, .again hclosed (.refl w.supply)⟩
  | false =>
      simp only [hclosed, Bool.false_eq_true, if_false] at h
      -- The report comes before the end and touches neither heap nor backend.
      have ends : ∀ w₁ : World BatchHeap, w' = (close.run w₁).2 → w₁.self = w.self →
          w₁.supply = w.supply → ∃ made, Closes w.self w.supply w'.self w'.supply made := by
        rintro w₁ rfl hself hsupply
        rw [← hself, ← hsupply]
        exact close_closes (hself ▸ watched) (hself ▸ apart) rfl
      by_cases hnone : w.self.entries ≠ []
      · simp only [if_pos hnone, Act.run_bind, Act.run_emit, Act.run_attempt, Act.run_pure] at h
        exact ends _ (Prod.mk.inj h).2.symm rfl rfl
      · simp only [if_neg hnone, Act.run_bind, Act.run_attempt, Act.run_pure] at h
        exact ends _ (Prod.mk.inj h).2.symm rfl rfl

end BatchHeap

end PageArena
