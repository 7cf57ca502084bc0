/-
The two strategies side by side.

A batch heap and a pool are asked the same, errand by errand.  The source of the heap does not
fail, the pool has its region to itself and finds room in it, and no call to the system fails.
Each may meet a machine of its own in every call, and the region may have been through anything
before.

Then they answer alike, but for two calls.  After its end a heap still looks at the alignment
before it looks at its own state, while a pool does not; so a late request with a bad alignment
is told two different things.  And a pool that has begun is closed with a rollback, which
fails where the threshold of its region is no word.  `answers_alike_iff` says that the strategy
shows in these calls and in no others.

What the pool does follows from how it stands (`Stands`), and that from what was asked before
and nothing else.
-/
import Mathlib
import PageArena.Proofs.Allocator.Stays
import PageArena.Proofs.Allocator.Supplied

namespace PageArena

open Commons (Errand Ask Lodged)

namespace Region

/-- The region can give so many bytes, once it has this base. -/
def HasRoom (r : Region) (base size align : Nat) : Prop :=
  Word.ceil (base + r.cursor) align + size ≤ base + r.total

/-- Where there is room, the end of the words is far. -/
theorem Outline.slice_of_room {o : Outline} {base size align : Nat}
    (stage : o.stage = .reserved) (aligned : Word.isPowerOfTwo align = true) (pos : 0 < base)
    (hend : base + o.total < Word.limit)
    (room : Word.ceil (base + o.cursor) align + size ≤ base + o.total) :
    ∃ address, (o.slice base size align).1 = .ok ⟨address, size⟩ ∧ align ∣ address := by
  have hceil := Word.le_ceil (base + o.cursor) (Word.pos_of_isPowerOfTwo aligned)
  have hdvd := Word.dvd_ceil (base + o.cursor) align
  have hnext := Word.add_le_limit aligned hdvd (by omega) (by omega)
  have hrounded : Word.roundUp? (base + o.cursor) align
      = some (Word.ceil (base + o.cursor) align) := by
    obtain ⟨k, rfl⟩ := Word.isPowerOfTwo_iff.mp aligned
    rw [Word.roundUp?_two_pow, if_pos]
    have hunder : base + o.cursor ≤ Word.ceil (base + o.cursor) (2 ^ k) := hceil
    have hmask := Nat.div_add_mod' (base + o.cursor + (2 ^ k - 1)) (2 ^ k)
    have hrest := Nat.mod_lt (base + o.cursor + (2 ^ k - 1)) (Nat.two_pow_pos k)
    unfold Word.ceil at hnext
    omega
  have henter : o.enter = .ok o := by
    unfold Outline.enter
    rw [stage, if_neg nofun, ← stage]
  generalize Word.ceil (base + o.cursor) align = address at *
  have hword : ¬ Word.limit ≤ address - base + size := by omega
  have hfits : ¬ o.total < address - base + size := by omega
  refine ⟨address, ?_, hdvd⟩
  unfold Outline.slice
  rw [if_pos aligned, henter]
  simp only [Outline.cut, hrounded, if_neg hword, if_neg hfits]
  split
  · rfl
  · rfl

end Region

namespace Commons

/-- How the only pool stands, by what was asked of it. -/
inductive Stands (c : Commons) : List Errand → Prop
  | fresh (pool : c.pools 0 = .fresh) : Stands c []
  /-- It has begun, and its checkpoint is the newest. -/
  | begun {past : List Errand} {handle : Handle} {base : Nat} (asked : past ≠ [])
      (going : ∀ e ∈ past, ¬ e.Ends) (lodged : Lodged handle base c)
      (newest : c.region.depth = handle.index + 1) : Stands c past
  | ended {past : List Errand} (late : ∃ e ∈ past, e.Ends) (pool : c.pools 0 = .closed) :
      Stands c past

/-- How a pool that has a region to itself answers an errand if no call fails and there is
room, by what was asked before. -/
inductive Answers (threshold : Nat) (past : List Errand) :
    Errand → Except ArenaError (Option Span) → Prop
  | late {size align : Nat} {zeroed : Bool} (h : ∃ e ∈ past, e.Ends) :
      Answers threshold past (.allocate size align zeroed)
        (.error (.invalidState StateFault.poolClosed))
  | misaligned {size align : Nat} {zeroed : Bool} (going : ∀ e ∈ past, ¬ e.Ends)
      (h : Word.isPowerOfTwo align = false) :
      Answers threshold past (.allocate size align zeroed) (.error (.invalidAlignment align))
  | given {size align address : Nat} {zeroed : Bool} (going : ∀ e ∈ past, ¬ e.Ends)
      (aligned : Word.isPowerOfTwo align = true) (multiple : align ∣ address) :
      Answers threshold past (.allocate size align zeroed) (.ok (some ⟨address, size⟩))
  | again (h : ∃ e ∈ past, e.Ends) :
      Answers threshold past .close (.error (.invalidState StateFault.poolAlreadyClosed))
  | closed (going : ∀ e ∈ past, ¬ e.Ends) (fits : past ≠ [] → threshold < Word.limit) :
      Answers threshold past .close (.ok none)
  | unmeasured (going : ∀ e ∈ past, ¬ e.Ends) (asked : past ≠ []) (h : Word.limit ≤ threshold) :
      Answers threshold past .close (.error (.sizeOverflow Arithmetic.mul))
  | dropped : Answers threshold past .drop (.ok none)

variable {c : Commons} {past : List Errand} {a : Ask} {handle : Handle} {base : Nat}

theorem going_concat {e : Errand} (going : ∀ e ∈ past, ¬ e.Ends) (h : ¬ e.Ends) :
    ∀ e' ∈ past ++ [e], ¬ e'.Ends := by
  intro e' he'
  rcases List.mem_append.mp he' with hpast | hnew
  · exact going e' hpast
  · rw [List.mem_singleton.mp hnew]
    exact h

/-! ### Allocations -/

theorem late_concat {e : Errand} (late : ∃ e ∈ past, e.Ends) : ∃ e' ∈ past ++ [e], e'.Ends := by
  obtain ⟨e', he', hends⟩ := late
  exact ⟨e', List.mem_append_left _ he', hends⟩

theorem not_going (late : ∃ e ∈ past, e.Ends) : ¬ ∀ e ∈ past, ¬ e.Ends := by
  obtain ⟨e, he, hends⟩ := late
  exact fun going => going e he hends

theorem Stands.pool_of_late (stands : c.Stands past) (late : ∃ e ∈ past, e.Ends) :
    c.pools 0 = .closed := by
  cases stands with
  | fresh pool => simp at late
  | begun asked going lodged newest => exact absurd going (not_going late)
  | ended late pool => exact pool

theorem Stands.pool_of_going (stands : c.Stands past) (going : ∀ e ∈ past, ¬ e.Ends) :
    c.pools 0 ≠ .closed := by
  cases stands with
  | fresh pool =>
      rw [pool]
      exact nofun
  | begun asked going lodged newest =>
      rw [lodged.pool]
      exact nofun
  | ended late pool => exact absurd going (not_going late)

/-- **One allocation** of a pool that has begun and has room. -/
theorem Lodged.answers (lodged : Lodged handle base c) (going : ∀ e ∈ past, ¬ e.Ends)
    (threshold : Nat) (zeroed : Bool)
    (room : Word.isPowerOfTwo a.align = true → c.region.HasRoom base a.size a.align)
    (hopen : (c.after a.turn).region.phase ≠ .closed) :
    Answers threshold past (.allocate a.size a.align zeroed) (c.answer a.turn) := by
  obtain ⟨hanswer, -⟩ := lodged.allocate a hopen
  rw [hanswer]
  cases haligned : Word.isPowerOfTwo a.align with
  | false =>
      have hrefused : (c.region.outline.slice base a.size a.align).1
          = .error (.invalidAlignment a.align) := by
        rw [Region.Outline.slice, if_neg (by simp [haligned])]
      rw [hrefused]
      exact .misaligned going haligned
  | true =>
      have hend := lodged.sound.addressable base lodged.phase
      obtain ⟨address, hgiven, hdvd⟩ := Region.Outline.slice_of_room (o := c.region.outline)
        (congrArg Region.Phase.stage lodged.phase) haligned
        (lodged.sound.base_pos base lodged.phase) hend (room haligned)
      rw [hgiven]
      exact .given going haligned hdvd

/-- A pool that was not ended might as well have begun before, on a region with the same room. -/
theorem Stands.lodged (stands : c.Stands past) (ok : Region.Sound c.region)
    (paged : Region.Paged c.region) (going : ∀ e ∈ past, ¬ e.Ends)
    (accepted : c.region.reservation ⟨a.machine, .checkpoint⟩ = .ok base) :
    ∃ (handle : Handle) (c₁ : Commons) (a₁ : Ask), Lodged handle base c₁ ∧
      c₁.region.depth = handle.index + 1 ∧ a₁.wanted = a.wanted ∧
      (∀ size align, c.region.HasRoom base size align → c₁.region.HasRoom base size align) ∧
      c.answer a.turn = c₁.answer a₁.turn ∧ c.after a.turn = c₁.after a₁.turn := by
  cases stands with
  | fresh pool =>
      obtain ⟨c₁, a₁, lodged, houtline, hwanted, -, hanswer, hafter⟩ :=
        begin_stay ok paged pool a accepted
      refine ⟨_, c₁, a₁, lodged, ?_, hwanted, ?_, hanswer, hafter⟩
      · exact congrArg (fun o => o.saved.length) houtline
      · intro size align room
        have htotal : c₁.region.total = c.region.total := congrArg Region.Outline.total houtline
        have hcursor : c₁.region.cursor = c.region.cursor := congrArg Region.Outline.cursor houtline
        unfold Region.HasRoom at room ⊢
        rw [htotal, hcursor]
        exact room
  | begun asked going lodged newest =>
      rename_i handle held
      have hheld : c.region.reservation ⟨a.machine, .checkpoint⟩ = .ok held := by
        simp only [Region.reservation, Region.obtainBase, Act.run_bind, Act.run_self, lodged.phase,
          Act.run_pure]
      obtain rfl := Except.ok.inj (hheld.symm.trans accepted)
      exact ⟨handle, c, a, lodged, newest, rfl, fun _ _ => id, rfl, rfl⟩
  | ended late pool => exact absurd going (not_going late)

/-- **One allocation**, whether it is the first or not. -/
theorem Stands.allocate (stands : c.Stands past) (ok : Region.Sound c.region)
    (paged : Region.Paged c.region) (going : ∀ e ∈ past, ¬ e.Ends) (threshold : Nat)
    (accepted : c.region.reservation ⟨a.machine, .checkpoint⟩ = .ok base)
    (room : Word.isPowerOfTwo a.align = true → c.region.HasRoom base a.size a.align)
    (hopen : (c.after a.turn).region.phase ≠ .closed) :
    Answers threshold past a.turn.errand (c.answer a.turn) ∧
      (c.after a.turn).Stands (past ++ [a.turn.errand]) := by
  obtain ⟨handle, c₁, a₁, lodged, newest, hwanted, hroom, hanswer, hafter⟩ :=
    stands.lodged ok paged going accepted
  obtain ⟨hsize, halign⟩ := Prod.mk.inj hwanted
  rw [hafter] at hopen ⊢
  rw [hanswer]
  have room₁ : Word.isPowerOfTwo a₁.align = true → c₁.region.HasRoom base a₁.size a₁.align := by
    rw [hsize, halign]
    exact fun aligned => hroom _ _ (room aligned)
  have answers := lodged.answers going threshold a.zeroed room₁ hopen
  rw [hsize, halign] at answers
  obtain ⟨-, -, hsaved, next⟩ := lodged.allocate a₁ hopen
  refine ⟨answers, .begun (by simp) (going_concat going id) next ?_⟩
  exact (congrArg List.length hsaved).trans newest

/-- A pool that was ended answers without a look at what it is asked. -/
theorem allocate_of_closed (pool : c.pools 0 = .closed) (ok : Region.Sound c.region) (a : Ask) :
    c.answer a.turn = .error (.invalidState StateFault.poolClosed) ∧
      (c.after a.turn).pools 0 = .closed := by
  have hgoes := meet_goes ok a.turn
  have hpool := pools_after_self c a.turn
  show _ ∧ (c.after a.turn).pools a.turn.pool = .closed
  rw [hpool]
  rw [show c.pools a.turn.pool = .closed from pool] at hgoes
  generalize (c.meet a.turn).2.self = t' at hgoes ⊢
  generalize c.answer a.turn = answer at hgoes ⊢
  generalize c.calls a.turn = made at hgoes
  cases hgoes with
  | allocate h =>
      cases h with
      | closed h => exact ⟨rfl, rfl⟩
      | active h slices => cases h
      | unstarted h checkpoints => cases h
      | started h checkpoints slices => cases h

/-! ### The end -/

/-- Ending the pool closes it, and what that answers depends on how the pool stood. -/
theorem Stands.close {clock : Nat} {close : Except ArenaError Unit} {t' : Tenancy}
    {made : List OsCall.Record} (stands : c.Stands past)
    (closes : Pool.Closes ⟨c.pools 0, c.region⟩ clock close t' made)
    (hopen : t'.region.phase ≠ .closed) :
    t'.pool = .closed ∧
      Answers c.region.thresholdBytes past .close (close.map fun _ => none) := by
  cases stands with
  | fresh pool =>
      rw [pool] at closes
      cases closes with
      | again h => cases h
      | unused h => exact ⟨rfl, .closed nofun fun asked => absurd rfl asked⟩
      | rolled h rolls => cases h
  | ended late pool =>
      rw [pool] at closes
      cases closes with
      | again h => exact ⟨rfl, .again late⟩
      | unused h => cases h
      | rolled h rolls => cases h
  | begun asked going lodged newest =>
      rw [lodged.pool] at closes
      cases closes with
      | again h => cases h
      | unused h => cases h
      | rolled h rolls =>
          obtain rfl := Pool.active.inj h
          refine ⟨rfl, ?_⟩
          -- The checkpoint is the newest, so the rollback happens; what is left is the trim.
          cases rolls with
          | unreserved h => exact absurd lodged.phase (h _)
          | stale phase h => exact absurd newest h
          | popped phase saved newest' trims =>
              cases trims with
              | unmeasured h => exact .unmeasured going asked h
              | kept fits h => exact .closed going fun _ => fits
              | trimmed fits due => exact .closed going fun _ => fits
              | lost fits due uncommits => exact absurd rfl hopen

end Commons

/-- A batch heap and a region with its pools. -/
structure Tandem where
  heap : BatchHeap
  commons : Commons

namespace Tandem

/-- What both are asked, and the machine that each of them meets. -/
structure Call where
  errand : Errand
  atHeap : Machine
  atPool : Machine

/-- The turn of the pool. -/
def Call.turn (u : Call) : Commons.Turn := ⟨u.atPool, 0, u.errand⟩

/-- What becomes of the heap in a call. -/
def meet (p : Tandem) (u : Call) : Except ArenaError (Option Span) × World BatchHeap :=
  (Depot.act u.errand).run { u.atHeap with self := p.heap }

/-- What the heap answers. -/
def heapAnswer (p : Tandem) (u : Call) : Except ArenaError (Option Span) := (p.meet u).1

/-- What the pool answers. -/
def poolAnswer (p : Tandem) (u : Call) : Except ArenaError (Option Span) := p.commons.answer u.turn

/-- Both after a call. -/
def after (p : Tandem) (u : Call) : Tandem := ⟨(p.meet u).2.self, p.commons.after u.turn⟩

/-- Both after a run. -/
def run (p : Tandem) (us : List Call) : Tandem := us.foldl after p

/-- What both need for a call.  The heap needs a source that can serve it, and the pool needs a
base for its region, if it has not got it yet, and room; and no change of pages may fail, which
would close the region. -/
structure Provides (p : Tandem) (u : Call) : Prop where
  memory : ∀ {size align zeroed}, u.errand = .allocate size align zeroed →
    Word.isPowerOfTwo align = true → p.heap.closed = false →
    p.heap.source.CanServe u.atHeap size align
  room : ∀ {size align zeroed}, u.errand = .allocate size align zeroed →
    p.commons.pools 0 ≠ .closed →
    ∃ base, p.commons.region.reservation ⟨u.atPool, .checkpoint⟩ = .ok base ∧
      (Word.isPowerOfTwo align = true → p.commons.region.HasRoom base size align)
  stays : (p.after u).commons.region.phase ≠ .closed

/-- Both get what they need in every call of a run. -/
def ProvidesAll (p : Tandem) : List Call → Prop
  | [] => True
  | u :: us => p.Provides u ∧ (p.after u).ProvidesAll us

/-- Two answers to an errand that are alike: spans of the length that was asked for at multiples
of the alignment, or nothing where nothing was asked for, or errors of one category. -/
inductive Alike : Errand → Except ArenaError (Option Span) → Except ArenaError (Option Span) → Prop
  | given {size align start start' : Nat} {zeroed : Bool} (multiple : align ∣ start)
      (multiple' : align ∣ start') :
      Alike (.allocate size align zeroed) (.ok (some ⟨start, size⟩)) (.ok (some ⟨start', size⟩))
  | done {errand : Errand} (ends : errand.Ends) : Alike errand (.ok none) (.ok none)
  | refused {errand : Errand} {e e' : ArenaError} (same : e.code = e'.code) :
      Alike errand (.error e) (.error e')

theorem Alike.code {errand : Errand} {e e' : ArenaError}
    (alike : Alike errand (.error e) (.error e')) : e.code = e'.code := by
  cases alike with
  | refused same => exact same

theorem not_alike_of_ok {errand : Errand} {span? : Option Span} {e : ArenaError} :
    ¬ Alike errand (.ok span?) (.error e) := fun alike => nomatch alike

/-- A request with a bad alignment after the end. -/
def Belated (past : List Errand) (errand : Errand) : Prop :=
  (∃ e ∈ past, e.Ends) ∧
    ∃ size align zeroed, errand = .allocate size align zeroed ∧ Word.isPowerOfTwo align = false

/-- The first end, after there were requests, where the threshold is no word. -/
def Unmeasured (threshold : Nat) (past : List Errand) (errand : Errand) : Prop :=
  errand = .close ∧ past ≠ [] ∧ (∀ e ∈ past, ¬ e.Ends) ∧ Word.limit ≤ threshold

variable {p : Tandem} {r : Region} {past : List Errand} {u : Call}

/-- Both after what was asked, on a region that goes on from `r`. -/
structure Abreast (r : Region) (past : List Errand) (p : Tandem) : Prop where
  life : Region.Continues r p.commons.region
  stands : p.commons.Stands past
  closed : p.heap.closed = true ↔ ∃ e ∈ past, e.Ends

/-- Both are closed, or neither is. -/
theorem Abreast.isClosed (abreast : Abreast r past p) :
    p.heap.closed = (p.commons.pools 0).isClosed := by
  by_cases late : ∃ e ∈ past, e.Ends
  · rw [abreast.closed.mpr late, abreast.stands.pool_of_late late]
    rfl
  · have hheap : p.heap.closed = false :=
      Bool.eq_false_iff.mpr fun hclosed => late (abreast.closed.mp hclosed)
    have hpool := abreast.stands.pool_of_going fun e he hends => late ⟨e, he, hends⟩
    rw [hheap]
    generalize p.commons.pools 0 = pool at hpool
    cases pool with
    | fresh => rfl
    | active handle => rfl
    | closed => exact absurd rfl hpool

/-! ### One call -/

/-- **One call** of the pool. -/
theorem Provides.pool_answers (provides : p.Provides u) (ok : Region.Sound p.commons.region)
    (paged : Region.Paged p.commons.region) (stands : p.commons.Stands past) :
    Commons.Answers p.commons.region.thresholdBytes past u.errand (p.poolAnswer u) ∧
      (p.after u).commons.Stands (past ++ [u.errand]) := by
  obtain ⟨-, room, stays⟩ := provides
  obtain ⟨errand, atHeap, atPool⟩ := u
  cases errand with
  | allocate size align zeroed =>
      let a : Ask := ⟨atPool, size, align, zeroed⟩
      by_cases late : ∃ e ∈ past, e.Ends
      · obtain ⟨hanswer, hpool⟩ := Commons.allocate_of_closed (stands.pool_of_late late) ok a
        have hanswer : p.poolAnswer ⟨.allocate size align zeroed, atHeap, atPool⟩ = _ := hanswer
        rw [hanswer]
        exact ⟨.late late, .ended (Commons.late_concat late) hpool⟩
      · have going : ∀ e ∈ past, ¬ e.Ends := fun e he hends => late ⟨e, he, hends⟩
        obtain ⟨base, accepted, hroom⟩ := room rfl (stands.pool_of_going going)
        exact stands.allocate (a := a) ok paged going _ accepted hroom stays
  | close =>
      have hgoes := Commons.meet_goes ok ⟨atPool, 0, .close⟩
      have hpool := Commons.pools_after_self p.commons ⟨atPool, 0, .close⟩
      have stays : (p.commons.meet ⟨atPool, 0, .close⟩).2.self.region.phase ≠ .closed := stays
      show Commons.Answers _ _ _ (p.commons.answer ⟨atPool, 0, .close⟩) ∧ _
      generalize (p.commons.meet ⟨atPool, 0, .close⟩).2.self = t' at hgoes hpool stays
      generalize p.commons.answer ⟨atPool, 0, .close⟩ = answer at hgoes ⊢
      generalize p.commons.calls ⟨atPool, 0, .close⟩ = made at hgoes
      cases hgoes with
      | close h =>
          obtain ⟨hclosed, answers⟩ := stands.close h stays
          exact ⟨answers, .ended ⟨.close, by simp, trivial⟩ (hpool.trans hclosed)⟩
  | drop =>
      have hgoes := Commons.meet_goes ok ⟨atPool, 0, .drop⟩
      have hpool := Commons.pools_after_self p.commons ⟨atPool, 0, .drop⟩
      have stays : (p.commons.meet ⟨atPool, 0, .drop⟩).2.self.region.phase ≠ .closed := stays
      show Commons.Answers _ _ _ (p.commons.answer ⟨atPool, 0, .drop⟩) ∧ _
      generalize (p.commons.meet ⟨atPool, 0, .drop⟩).2.self = t' at hgoes hpool stays
      generalize p.commons.answer ⟨atPool, 0, .drop⟩ = answer at hgoes ⊢
      generalize p.commons.calls ⟨atPool, 0, .drop⟩ = made at hgoes
      cases hgoes with
      | drop h =>
          obtain ⟨hclosed, -⟩ := stands.close h stays
          exact ⟨.dropped, .ended ⟨.drop, by simp, trivial⟩ (hpool.trans hclosed)⟩

/-- A heap is closed from its end on. -/
theorem closed_of_answers {heap heap' : BatchHeap} {errand : Errand}
    {answer : Except ArenaError (Option Span)} (answers : heap.Answers errand answer heap')
    (closed : heap.closed = true ↔ ∃ e ∈ past, e.Ends) :
    heap'.closed = true ↔ ∃ e ∈ past ++ [errand], e.Ends := by
  have split : (∃ e ∈ past ++ [errand], e.Ends) ↔ heap.closed = true ∨ errand.Ends := by
    rw [closed]
    simp only [List.mem_append, List.mem_singleton, or_and_right, exists_or, exists_eq_left]
  rw [split]
  cases answers with
  | misaligned h => exact (or_iff_left id).symm
  | late aligned closed => exact (or_iff_left id).symm
  | given aligned opened multiple opened' source => simp [opened, opened', Errand.Ends]
  | again closed => simp [closed]
  | closed opened closed' source => simp [closed', Errand.Ends]
  | dropped closed' source => simp [closed', Errand.Ends]

/-- **Two answers** to one errand are alike but for a belated request and an end that is not
measured. -/
theorem alike_cases {heap heap' : BatchHeap} {errand : Errand} {threshold : Nat}
    {answer answer' : Except ArenaError (Option Span)}
    (ofHeap : heap.Answers errand answer heap')
    (ofPool : Commons.Answers threshold past errand answer')
    (closed : heap.closed = true ↔ ∃ e ∈ past, e.Ends) :
    (Alike errand answer answer' ∧ ¬ Belated past errand ∧ ¬ Unmeasured threshold past errand) ∨
      (Belated past errand ∧ (∃ align, answer = .error (.invalidAlignment align)) ∧
        answer' = .error (.invalidState StateFault.poolClosed)) ∨
      (Unmeasured threshold past errand ∧ answer = .ok none ∧
        answer' = .error (.sizeOverflow Arithmetic.mul)) := by
  have opened (hopen : heap.closed = false) : ¬ ∃ e ∈ past, e.Ends := by
    rw [← closed, hopen]
    exact Bool.false_ne_true
  cases ofHeap with
  | misaligned h =>
      cases ofPool with
      | late late => exact Or.inr (Or.inl ⟨⟨late, _, _, _, rfl, h⟩, ⟨_, rfl⟩, rfl⟩)
      | misaligned going h =>
          exact Or.inl ⟨.refused rfl, fun belated => Commons.not_going belated.1 going,
            fun unmeasured => nomatch unmeasured.1⟩
      | given going aligned multiple =>
          rw [h] at aligned
          cases aligned
  | late aligned hclosed =>
      cases ofPool with
      | late late =>
          refine Or.inl ⟨.refused rfl, ?_, fun unmeasured => nomatch unmeasured.1⟩
          rintro ⟨-, _, _, _, ⟨⟩, h⟩
          rw [h] at aligned
          cases aligned
      | misaligned going h => exact absurd going (Commons.not_going (closed.mp hclosed))
      | given going aligned multiple =>
          exact absurd going (Commons.not_going (closed.mp hclosed))
  | given aligned hopen multiple hopen' source =>
      cases ofPool with
      | late late => exact absurd late (opened hopen)
      | misaligned going h =>
          rw [h] at aligned
          cases aligned
      | given going aligned multiple' =>
          exact Or.inl ⟨.given multiple multiple', fun belated => opened hopen belated.1,
            fun unmeasured => nomatch unmeasured.1⟩
  | again hclosed =>
      have late := closed.mp hclosed
      cases ofPool with
      | again late =>
          refine Or.inl ⟨.refused rfl, ?_, ?_⟩
          · rintro ⟨-, _, _, _, ⟨⟩, -⟩
          · exact fun unmeasured => Commons.not_going late unmeasured.2.2.1
      | closed going fits => exact absurd going (Commons.not_going late)
      | unmeasured going asked h => exact absurd going (Commons.not_going late)
  | closed hopen hclosed' source =>
      cases ofPool with
      | again late => exact absurd late (opened hopen)
      | closed going fits =>
          refine Or.inl ⟨.done trivial, ?_, ?_⟩
          · rintro ⟨-, _, _, _, ⟨⟩, -⟩
          · exact fun unmeasured => absurd (fits unmeasured.2.1) (Nat.not_lt.mpr unmeasured.2.2.2)
      | unmeasured going asked h => exact Or.inr (Or.inr ⟨⟨rfl, asked, going, h⟩, rfl, rfl⟩)
  | dropped hclosed' source =>
      cases ofPool with
      | dropped =>
          refine Or.inl ⟨.done trivial, ?_, fun unmeasured => nomatch unmeasured.1⟩
          rintro ⟨-, _, _, _, ⟨⟩, -⟩

/-! ### A run -/

theorem Abreast.step (abreast : Abreast r past p) (ok : Region.Sound r) (paged : Region.Paged r)
    (provides : p.Provides u) : Abreast r (past ++ [u.errand]) (p.after u) := by
  have ok' := abreast.life.sound ok
  have paged' := abreast.life.paged ok paged
  exact
    { life := abreast.life.trans (Commons.after_continues ok' u.turn)
      stands := (provides.pool_answers ok' paged' abreast.stands).2
      closed := closed_of_answers (BatchHeap.act_answers provides.memory) abreast.closed }

theorem Abreast.run (abreast : Abreast r past p) (ok : Region.Sound r) (paged : Region.Paged r)
    {us : List Call} (provided : p.ProvidesAll (us ++ [u])) :
    Abreast r (past ++ us.map Call.errand) (p.run us) ∧ (p.run us).Provides u := by
  induction us generalizing p past with
  | nil =>
      rw [List.map_nil, List.append_nil]
      exact ⟨abreast, provided.1⟩
  | cons first us ih =>
      have next := ih (abreast.step ok paged provided.1) provided.2
      rw [List.append_assoc] at next
      exact next

/-- **The strategies can be exchanged, but for two calls.**  A batch heap and a pool are asked
the same, in any order and with any sizes and alignments.  In every call both answer alike, and
both are closed after it or neither is, unless it is a belated request with a bad alignment or
an end that is not measured.  These two they answer differently, and it is said how.

The heap may be over either source, and the region may have been through anything before the
pool came to it. -/
theorem answers_alike_iff {source : RawSource} {heap : BatchHeap} {r₀ : Region}
    (made : BatchHeap.Made source heap) (made₀ : r₀.Made)
    (geometry : r₀.backend.toGeometry.Sound) (os : List Commons.Occasion) (us : List Call)
    (u : Call)
    (provided : ProvidesAll ⟨heap, Commons.of ((Commons.of r₀).through os).region⟩ (us ++ [u])) :
    let r := ((Commons.of r₀).through os).region
    let p := Tandem.run ⟨heap, Commons.of r⟩ us
    let past := us.map Call.errand
    ((p.after u).heap.closed = ((p.after u).commons.pools 0).isClosed ∧
      ((p.after u).heap.closed = true ↔ ∃ e ∈ past ++ [u.errand], e.Ends)) ∧
    (Alike u.errand (p.heapAnswer u) (p.poolAnswer u) ↔
      ¬ Belated past u.errand ∧ ¬ Unmeasured r.thresholdBytes past u.errand) ∧
    (Belated past u.errand → (∃ align, p.heapAnswer u = .error (.invalidAlignment align)) ∧
      p.poolAnswer u = .error (.invalidState StateFault.poolClosed)) ∧
    (Unmeasured r.thresholdBytes past u.errand → p.heapAnswer u = .ok none ∧
      p.poolAnswer u = .error (.sizeOverflow Arithmetic.mul)) := by
  intro r p past
  have life₀ : Region.Continues r₀ r :=
    Commons.through_continues (c := Commons.of r₀) made₀.sound os
  have ok : Region.Sound r := life₀.sound made₀.sound
  have paged : Region.Paged r := life₀.paged made₀.sound (made₀.paged geometry)
  have start : Abreast r [] ⟨heap, Commons.of r⟩ := by
    refine ⟨.refl r, .fresh rfl, ?_⟩
    rw [made.eq]
    simp
  obtain ⟨abreast, provides⟩ := start.run ok paged provided
  rw [List.nil_append] at abreast
  have hthreshold : p.commons.region.thresholdBytes = r.thresholdBytes := by
    unfold Region.thresholdBytes
    rw [abreast.life.tuning, abreast.life.backend]
  have next := abreast.step ok paged provides
  have ofHeap := BatchHeap.act_answers provides.memory
  have ofPool := (provides.pool_answers (abreast.life.sound ok) (abreast.life.paged ok paged)
    abreast.stands).1
  rw [hthreshold] at ofPool
  refine ⟨⟨next.isClosed, next.closed⟩, ?_⟩
  rcases alike_cases ofHeap ofPool abreast.closed with
    ⟨alike, hbelated, hunmeasured⟩ | ⟨belated, ⟨align, hheap⟩, hpool⟩ | ⟨unmeasured, hheap, hpool⟩
  · exact ⟨⟨fun _ => ⟨hbelated, hunmeasured⟩, fun _ => alike⟩,
      fun h => absurd h hbelated, fun h => absurd h hunmeasured⟩
  · have hheap : p.heapAnswer u = .error (.invalidAlignment align) := hheap
    refine ⟨⟨fun alike => ?_, fun h => absurd belated h.1⟩, fun _ => ⟨⟨align, hheap⟩, hpool⟩, ?_⟩
    · rw [hheap, hpool] at alike
      exact absurd alike.code (by simp [ArenaError.code])
    · exact fun h => absurd h.2.2.1 (Commons.not_going belated.1)
  · have hheap : p.heapAnswer u = .ok none := hheap
    refine ⟨⟨fun alike => ?_, fun h => absurd unmeasured h.2⟩, ?_, fun _ => ⟨hheap, hpool⟩⟩
    · rw [hheap, hpool] at alike
      exact absurd alike not_alike_of_ok
    · exact fun h => absurd unmeasured.2.2.1 (Commons.not_going h.1)

/-- Two requests, of which one is refused, then the end and a request that comes too late: the
strategies answer the last one alike, and both are closed. -/
theorem answers_alike_in_twoPages :
    let us : List Call := [⟨.allocate 100 64 false, {}, {}⟩,
      ⟨.allocate 8 3 true, { heap := { requests := 1, blocks := [⟨65536, 100⟩] } }, {}⟩,
      ⟨.close, { heap := { requests := 1, blocks := [⟨65536, 100⟩] } }, {}⟩]
    let u : Call := ⟨.allocate 8 8 false, { heap := { requests := 1 } }, {}⟩
    let p₀ : Tandem := ⟨{ source := .heap }, Commons.of Region.twoPages⟩
    let p := p₀.run us
    BatchHeap.Made .heap { source := .heap } ∧ Region.twoPages.Made ∧
      Region.twoPages.backend.toGeometry.Sound ∧ p₀.ProvidesAll (us ++ [u]) ∧
      p.heapAnswer u = .error (.invalidState StateFault.heapClosed) ∧
      p.poolAnswer u = .error (.invalidState StateFault.poolClosed) ∧
      Alike u.errand (p.heapAnswer u) (p.poolAnswer u) ∧
      (p.after u).heap.closed = ((p.after u).commons.pools 0).isClosed := by
  intro us u p₀ p
  have made : BatchHeap.Made .heap { source := .heap } :=
    .alone (show (BatchHeap.ofSource .heap {}).run ⟨{}, ()⟩ = (.ok (some _), ⟨{}, ()⟩) from rfl)
  have provided : p₀.ProvidesAll (us ++ [u]) := by
    refine ⟨⟨?_, ?_, by decide⟩, ⟨?_, ?_, by decide⟩, ⟨?_, ?_, by decide⟩,
      ⟨?_, ?_, by decide⟩, trivial⟩
    · rintro size align zeroed ⟨⟩ - -
      exact ⟨⟨65536, by decide, by decide⟩, nofun⟩
    · rintro size align zeroed ⟨⟩ -
      refine ⟨0x100000000000, by decide, fun _ => ?_⟩
      unfold Region.HasRoom
      decide
    · rintro size align zeroed ⟨⟩ aligned
      cases aligned
    · rintro size align zeroed ⟨⟩ -
      refine ⟨0x100000000000, by decide, ?_⟩
      intro aligned
      cases aligned
    · rintro size align zeroed ⟨⟩
    · rintro size align zeroed ⟨⟩
    · rintro size align zeroed ⟨⟩ - opened
      cases opened
    · rintro size align zeroed ⟨⟩ opened
      exact absurd (by decide) opened
  have holds := answers_alike_iff made Region.twoPages_made Region.twoPages_geometry [] us u provided
  refine ⟨made, Region.twoPages_made, Region.twoPages_geometry, provided, by decide, by decide,
    holds.2.1.mpr ⟨?_, ?_⟩, by decide⟩
  · rintro ⟨-, _, _, _, ⟨⟩, h⟩
    cases h
  · rintro ⟨⟨⟩, -⟩

/-- The end comes first, and then a request with a bad alignment: the heap speaks of the
alignment, and the pool of its end. -/
theorem belated_request_shows_strategy :
    let us : List Call := [⟨.close, {}, {}⟩]
    let u : Call := ⟨.allocate 8 3 false, {}, {}⟩
    let p₀ : Tandem := ⟨{ source := .heap }, Commons.of Region.twoPages⟩
    let p := p₀.run us
    p₀.ProvidesAll (us ++ [u]) ∧
      p.heapAnswer u = .error (.invalidAlignment 3) ∧
      p.poolAnswer u = .error (.invalidState StateFault.poolClosed) ∧
      ¬ Alike u.errand (p.heapAnswer u) (p.poolAnswer u) := by
  intro us u p₀ p
  have hheap : p.heapAnswer u = .error (.invalidAlignment 3) := by decide
  have hpool : p.poolAnswer u = .error (.invalidState StateFault.poolClosed) := by decide
  refine ⟨⟨⟨?_, ?_, by decide⟩, ⟨?_, ?_, by decide⟩, trivial⟩, hheap, hpool, ?_⟩
  · rintro size align zeroed ⟨⟩
  · rintro size align zeroed ⟨⟩
  · rintro size align zeroed ⟨⟩ aligned
    cases aligned
  · rintro size align zeroed ⟨⟩ opened
    exact absurd (by decide) opened
  · rw [hheap, hpool]
    exact fun alike => absurd alike.code (by simp [ArenaError.code])

end Tandem

end PageArena
