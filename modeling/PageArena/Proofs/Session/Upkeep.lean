/-
What a session keeps up.

Whatever is done with regions, pools and factories, the binding of the thread stays what it is
and so do the guards: only entering a scope and leaving one touch them.  An allocator stays
over the region that it was made over, or over none, until it is dropped, and nothing that is
entered or left changes this.  `Upholds` says both of two sessions, and there is a lemma
`upholds_` for each of the acts that steps are put together from.
-/
import Mathlib
import PageArena.Proofs.Session.Turn

namespace PageArena

open Act (Along Frame Still frame_still)

/-- Only the region beneath an allocator decides which of the two it is. -/
theorem Strategy.isHeap_eq (strategy : Strategy) : strategy.isHeap = strategy.region?.isNone := by
  cases strategy with
  | heap heap => rfl
  | pool pool id => rfl

namespace Session

variable {s s' s₁ : Session} {w w₁ w' : World Session} {id a : Nat} {region : Region}
variable {lost : Option Nat} {ε α β : Type}

/-- Every allocator is still there, over the same region or over none; only the one that is
lost need not be. -/
def Keeps (lost : Option Nat) (s s' : Session) : Prop :=
  ∀ a old, lost ≠ some a → s.allocators.find? a = some old →
    ∃ new, s'.allocators.find? a = some new ∧ new.strategy.region? = old.strategy.region?

/-- The binding, the guards and the allocators are kept up. -/
structure Upholds (lost : Option Nat) (s s' : Session) : Prop where
  bound : s'.bound = s.bound
  guards : ∀ g, s'.guards.find? g = s.guards.find? g
  allocators : Keeps lost s s'

theorem Keeps.refl (s : Session) : Keeps lost s s := fun _ old _ hfind => ⟨old, hfind, rfl⟩

theorem Keeps.trans (first : Keeps lost s s₁) (next : Keeps lost s₁ s') : Keeps lost s s' := by
  intro a old hlost hfind
  obtain ⟨mid, hmid, hsame⟩ := first a old hlost hfind
  obtain ⟨new, hnew, hsame'⟩ := next a mid hlost hmid
  exact ⟨new, hnew, hsame'.trans hsame⟩

theorem Upholds.refl (s : Session) : Upholds lost s s := ⟨rfl, fun _ => rfl, .refl s⟩

theorem Upholds.trans (first : Upholds lost s s₁) (next : Upholds lost s₁ s') :
    Upholds lost s s' where
  bound := next.bound.trans first.bound
  guards g := (next.guards g).trans (first.guards g)
  allocators := first.allocators.trans next.allocators

theorem upholds_of_eq (bound : s'.bound = s.bound) (guards : s'.guards = s.guards)
    (allocators : s'.allocators = s.allocators) : Upholds lost s s' := by
  refine ⟨bound, fun _ => by rw [guards], ?_⟩
  intro a old _ hfind
  exact ⟨old, by rw [allocators]; exact hfind, rfl⟩

/-- An allocator more takes the place of none. -/
theorem keeps_push (s : Session) (x : Option Allocator) :
    Keeps lost s { s with allocators := s.allocators.push x } := by
  intro a old _ hfind
  refine ⟨old, ?_, rfl⟩
  have hne : a ≠ s.allocators.next := Nat.ne_of_lt (Slots.lt_next_of_find? hfind)
  exact (Slots.find?_push_of_ne s.allocators x hne).trans hfind

theorem upholds_setRegion (s : Session) (id : RegionId) (region : Region) :
    Upholds lost s (s.setRegion id region) := by
  unfold setRegion
  split
  · exact upholds_of_eq rfl rfl rfl
  · exact .refl s

/-- An allocator in its place, over the same region. -/
theorem upholds_putAllocator {new : Allocator}
    (h : ∀ old, lost ≠ some a → s.allocators.find? a = some old →
      new.strategy.region? = old.strategy.region?) :
    Upholds lost s { s with allocators := s.allocators.put a (some new) } := by
  refine ⟨rfl, fun _ => rfl, ?_⟩
  intro b old hlost hfind
  by_cases hb : a = b
  · subst hb
    exact ⟨new, Slots.find?_put_of_some hfind _, h old hlost hfind⟩
  · exact ⟨old, (Slots.find?_put_of_ne s.allocators _ hb).trans hfind, rfl⟩

theorem upholds_setStrategy {strategy : Strategy}
    (h : ∀ old, lost ≠ some a → s.allocators.find? a = some old →
      strategy.region? = old.strategy.region?) :
    Upholds lost s (s.setStrategy a strategy) := by
  unfold setStrategy
  split
  · exact upholds_putAllocator h
  · exact .refl s

/-- The allocator that is lost may go. -/
theorem upholds_loseAllocator (s : Session) (a : Nat) :
    Upholds (some a) s { s with allocators := s.allocators.put a none } := by
  refine ⟨rfl, fun _ => rfl, ?_⟩
  intro b old hlost hfind
  have hne : a ≠ b := fun h => hlost (congrArg some h)
  exact ⟨old, (Slots.find?_put_of_ne s.allocators none hne).trans hfind, rfl⟩

/-! ### Acts -/

/-- The session of a world is kept up. -/
def Upholding (lost : Option Nat) (w w' : World Session) : Prop := Upholds lost w.self w'.self

theorem frame_upholding : Frame (Upholding lost) where
  of_still h := by
    unfold Upholding
    rw [h.2]
    exact .refl _
  trans h h' := h.trans h'

theorem upholds_still {act : Act ε Session α} (h : Along Still act) :
    Along (Upholding lost) act :=
  .of_still frame_upholding h

theorem upholds_pure (x : α) : Along (Upholding lost) (pure x : Act ε Session α) :=
  upholds_still (Act.still_pure x)

theorem upholds_self : Along (Upholding lost) (Act.self : Act ε Session Session) :=
  upholds_still Act.still_self

theorem upholds_need (x : Option α) : Along (Upholding lost) (need x) :=
  upholds_still (still_need x)

theorem upholds_made (x : Option α) : Along (Upholding lost) (made x) := by
  cases x with
  | some value => exact upholds_pure value
  | none => exact upholds_still (Act.still_fail _)

/-- A step that needs something, and knows what it has then. -/
theorem upholds_need_bind {x : Option α} {next : α → Work β}
    (h : ∀ y, x = some y → Upholding lost w ((next y).run w).2) :
    Upholding lost w ((need x >>= next).run w).2 :=
  of_need (.refl w.self) h

/-- A step that needs something more in one of its forms. -/
theorem upholds_ite_need {p : Prop} [Decidable p] {x : Option α} {rest : Work β}
    (h : Upholding lost w (rest.run w).2) :
    Upholding lost w ((if p then need x >>= fun _ => rest else rest).run w).2 :=
  of_ite_need (.refl w.self) h

/-- An act that is known to keep the session up here, and what is done after it. -/
theorem upholds_bind {first : Act ε Session α} {next : α → Act ε Session β}
    (hfirst : Upholding lost w (first.run w).2) (hnext : ∀ x, Along (Upholding lost) (next x)) :
    Upholding lost w ((first >>= next).run w).2 :=
  of_bind hfirst fun x w₁ upholds => upholds.trans (hnext x w₁)

/-- An act of the library is kept to as a part of a step. -/
theorem upholds_call {act : Act ArenaError Session α} (h : Upholding lost w (act.run w).2) :
    Upholding lost w ((call act).run w).2 := h

/-- What leaves the session alone. -/
theorem upholds_aside {act : Act ε Session α} (h : Along Aside act) :
    Along (Upholding lost) act := by
  intro w
  unfold Upholding
  rw [(h w).2]
  exact .refl _

/-! What is taken of a kind. -/

theorem upholds_addRegion (x : Option RegionCell) :
    Along (Upholding lost) (addRegion x : Act ε Session Nat) :=
  fun _ => upholds_of_eq rfl rfl rfl

theorem upholds_addHandle (x : Option Handle) :
    Along (Upholding lost) (addHandle x : Act ε Session Nat) :=
  fun _ => upholds_of_eq rfl rfl rfl

theorem upholds_addAllocator (x : Option Allocator) :
    Along (Upholding lost) (addAllocator x : Act ε Session Nat) :=
  fun w => ⟨rfl, fun _ => rfl, keeps_push w.self x⟩

theorem upholds_addFactory (x : Option Factory) :
    Along (Upholding lost) (addFactory x : Act ε Session Nat) :=
  fun _ => upholds_of_eq rfl rfl rfl

theorem upholds_addLease (x : Option Lease) :
    Along (Upholding lost) (addLease x : Act ε Session Nat) :=
  fun _ => upholds_of_eq rfl rfl rfl

theorem upholds_addBlock (x : Option Span) :
    Along (Upholding lost) (addBlock x : Act ε Session Nat) :=
  fun _ => upholds_of_eq rfl rfl rfl

/-- A number that is used up. -/
theorem upholds_skip (kind : Kind) : Along (Upholding lost) (skip kind : Act ε Session Nat) := by
  cases kind with
  | region => exact upholds_addRegion none
  | handle => exact upholds_addHandle none
  | allocator => exact upholds_addAllocator none
  | factory => exact upholds_addFactory none
  | guard =>
      intro w
      exact ⟨rfl, fun g => Slots.find?_push_none w.self.guards g, fun _ old _ h => ⟨old, h, rfl⟩⟩
  | lease => exact upholds_addLease none
  | block => exact upholds_addBlock none

theorem upholds_present (allocator : Allocator) : Along (Upholding lost) (present allocator) :=
  .bind frame_upholding (upholds_addAllocator _) fun _ => upholds_pure _

/-! What is done with a region or an allocator in its place. -/

theorem upholds_onRegion (id : RegionId) (region : Region) (act : Act ε Region α) :
    Along (Upholding lost) (onRegion id region act) :=
  fun w => upholds_setRegion w.self id _

theorem upholds_onHeap {allocator : Allocator} {heap : BatchHeap}
    (hfind : w.self.allocators.find? a = some allocator)
    (hstrategy : allocator.strategy = .heap heap) (act : Act ε BatchHeap α) :
    Upholding lost w ((onHeap a heap act).run w).2 := by
  refine upholds_setStrategy fun old _ hold => ?_
  obtain rfl := Option.some.inj (hfind.symm.trans hold)
  rw [hstrategy]
  rfl

theorem upholds_onPool {allocator : Allocator} {pool : Pool}
    (hfind : w.self.allocators.find? a = some allocator)
    (hstrategy : allocator.strategy = .pool pool id) (region : Region) (act : Act ε Tenancy α) :
    Upholding lost w ((onPool a pool id region act).run w).2 := by
  refine (upholds_setRegion w.self id _).trans (upholds_setStrategy fun old _ hold => ?_)
  have hold' : w.self.allocators.find? a = some old := by
    unfold setRegion at hold
    split at hold
    · exact hold
    · exact hold
  obtain rfl := Option.some.inj (hfind.symm.trans hold')
  rw [hstrategy]
  rfl

theorem upholds_discardUnheld (id : RegionId) :
    Along (Upholding lost) (discardUnheld id : Act ε Session Unit) := by
  intro w
  rcases hrun : (discardUnheld id : Act ε Session Unit).run w with ⟨answer, w'⟩
  obtain ⟨-, made, letsGo⟩ := discardUnheld_letsGo hrun
  cases letsGo with
  | kept h same => exact same ▸ Upholds.refl w.self
  | ended found unheld discards calls self =>
      unfold Upholding
      rw [self]
      exact upholds_of_eq rfl rfl rfl

theorem upholds_dropRegion (id : RegionId) :
    Along (Upholding lost) (dropRegion id : Act ε Session Unit) := by
  refine .bind frame_upholding upholds_self fun s => ?_
  cases s.regions.find? id with
  | none => exact upholds_pure ()
  | some cell =>
      refine .bind frame_upholding (fun _ => upholds_of_eq rfl rfl rfl) fun _ => ?_
      exact upholds_discardUnheld id

/-- Dropping an allocator loses no other. -/
theorem upholds_dropAllocator (a : Nat) (allocator : Allocator) :
    Along (Upholding (some a)) (dropAllocator a allocator : Act ε Session Unit) := by
  have lose : Along (Upholding (some a)) (Act.update fun s : Session =>
      { s with allocators := s.allocators.put a none } : Act ε Session Unit) :=
    fun w => upholds_loseAllocator w.self a
  -- What becomes of the allocator that is lost does not matter.
  have set (s : Session) (strategy : Strategy) : Upholds (some a) s (s.setStrategy a strategy) :=
    upholds_setStrategy fun _ hlost => absurd rfl hlost
  unfold dropAllocator
  cases allocator.strategy with
  | heap heap =>
      exact .bind frame_upholding (fun w => set w.self _) fun _ => lose
  | pool pool id =>
      refine .bind frame_upholding upholds_self fun s => ?_
      have ends : Along (Upholding (some a)) (do
          Act.update fun s : Session => { s with allocators := s.allocators.put a none }
          discardUnheld id : Act ε Session Unit) :=
        .bind frame_upholding lose fun _ => upholds_discardUnheld id
      cases s.region? id with
      | none => exact ends
      | some region =>
          refine .bind frame_upholding (fun w => ?_) fun _ => ends
          exact (upholds_setRegion w.self id _).trans (set _ _)

theorem upholds_allocate (a size align : Nat) (manner : Manner) :
    Along (Upholding lost) (allocate a size align manner) := by
  have lease (x : Lease) (value : Nat → Value) : Along (Upholding lost) (do
      let number ← addLease (some x)
      return value number : Work Value) :=
    .bind frame_upholding (upholds_addLease _) fun _ => upholds_pure _
  intro w
  refine upholds_need_bind fun allocator hfind => upholds_ite_need ?_
  cases hstrategy : allocator.strategy with
  | heap heap =>
      refine upholds_bind (upholds_call (upholds_onHeap hfind hstrategy _)) fun span => ?_
      exact lease ⟨span, .heap a⟩ (.lease · span.length none)
  | pool pool id =>
      refine upholds_need_bind fun region _ => ?_
      refine upholds_bind (upholds_call (upholds_onPool hfind hstrategy region _)) fun span => ?_
      exact lease ⟨span, .pool a id⟩ (.lease · span.length (some span.start))

theorem upholds_closeAllocator (a : Nat) : Along (Upholding lost) (closeAllocator a) := by
  intro w
  unfold closeAllocator
  rw [Act.run_self_bind]
  refine upholds_need_bind fun allocator hfind => ?_
  cases hstrategy : allocator.strategy with
  | heap heap => exact upholds_onHeap hfind hstrategy BatchHeap.close
  | pool pool id =>
      refine upholds_need_bind fun region _ => ?_
      exact upholds_onPool hfind hstrategy region Pool.close

theorem upholds_makeRegion (size : Nat) (origin : RegionOrigin) :
    Along (Upholding lost) (makeRegion size origin) := by
  have still : Along Still (call (making size origin)) := still_making size origin
  show Along (Upholding lost) (call (making size origin) >>= _)
  refine .bind frame_upholding (upholds_still still) fun answer => ?_
  refine .bind frame_upholding (upholds_made _) fun region => ?_
  exact .bind frame_upholding (upholds_addRegion _) fun _ => upholds_pure _

/-! ### Steps -/

/-- Entering a scope and leaving one. -/
def Step.onScope : Step → Bool
  | .enter _ | .exit _ => true
  | _ => false

/-- The allocator that a step drops. -/
def Step.drops : Step → Option Nat
  | .dropAllocator a => some a
  | _ => none

/-- **Every other step** leaves the binding and the guards alone, and of the allocators loses
none but the one that it drops. -/
theorem perform_upholds (step : Step) (h : step.onScope = false) :
    Along (Upholding step.drops) (perform step) := by
  intro w
  unfold perform
  rw [Act.run_self_bind]
  cases step with
  | region size origin => exact upholds_makeRegion size origin w
  | checkpoint r =>
      refine upholds_need_bind fun region _ => ?_
      refine upholds_bind (upholds_call (upholds_onRegion r region _ w)) fun handle => ?_
      exact .bind frame_upholding (upholds_addHandle _) fun _ => upholds_pure _
  | rollback r c =>
      refine upholds_need_bind fun region _ => upholds_need_bind fun handle _ => ?_
      exact upholds_bind (upholds_call (upholds_onRegion r region _ w)) fun _ => upholds_pure _
  | sameHandle x y =>
      exact upholds_need_bind fun _ _ => upholds_need_bind fun _ _ => upholds_pure _ w
  | slice r size align =>
      refine upholds_need_bind fun region _ => ?_
      refine upholds_bind (upholds_call (upholds_onRegion r region _ w)) fun span => ?_
      exact .bind frame_upholding (upholds_addLease _) fun _ => upholds_pure _
  | close r =>
      refine upholds_need_bind fun region _ => ?_
      exact upholds_bind (upholds_call (upholds_onRegion r region _ w)) fun _ => upholds_pure _
  | dropRegion r =>
      refine upholds_need_bind fun region _ => ?_
      exact upholds_bind (upholds_dropRegion r w) fun _ => upholds_pure _
  | state r => exact upholds_pure _ w
  | describeRegion r style => exact upholds_need_bind fun _ _ => upholds_pure _ w
  | heap origin =>
      have still : Along Still (call (BatchHeap.ofSource origin.parts.1 origin.parts.2)) :=
        .bind frame_still (Act.still_settle _) fun _ => Act.still_pure _
      refine upholds_bind (upholds_still still w) fun answer => ?_
      exact .bind frame_upholding (upholds_made _) fun _ => upholds_present _
  | pool r => exact upholds_need_bind fun _ _ => upholds_present _ w
  | factory origin =>
      have still : Along Still (call (Factory.ofSource origin.parts.1 origin.parts.2)) :=
        .bind frame_still (Act.still_settle _) fun _ => Act.still_pure _
      refine upholds_bind (upholds_still still w) fun factory => ?_
      exact .bind frame_upholding (upholds_addFactory _) fun _ => upholds_pure _
  | makeBound f =>
      refine upholds_need_bind fun factory _ => ?_
      exact upholds_bind (upholds_made _ w) fun _ => upholds_present _
  | makeOver f r =>
      cases r with
      | none =>
          refine upholds_need_bind fun factory _ => ?_
          exact upholds_bind (upholds_made _ w) fun _ => upholds_present _
      | some r =>
          refine upholds_need_bind fun factory _ => upholds_need_bind fun _ _ => ?_
          exact upholds_bind (upholds_made _ w) fun _ => upholds_present _
  | intoEither a =>
      refine upholds_need_bind fun allocator hfind => ?_
      refine upholds_putAllocator fun old _ hold => ?_
      obtain rfl := Option.some.inj (hfind.symm.trans hold)
      rfl
  | allocate a size align manner => exact upholds_allocate a size align manner w
  | closeAllocator a => exact upholds_bind (upholds_closeAllocator a w) fun _ => upholds_pure _
  | closeAndAsk a =>
      refine upholds_bind (upholds_closeAllocator a w) fun _ => ?_
      refine .bind frame_upholding upholds_self fun s => ?_
      exact .bind frame_upholding (upholds_need _) fun _ => upholds_pure _
  | dropAllocator a =>
      refine upholds_need_bind fun allocator _ => ?_
      exact upholds_bind (upholds_dropAllocator a allocator w) fun _ => upholds_pure _
  | info a => exact upholds_need_bind fun _ _ => upholds_pure _ w
  | strategyName a => exact upholds_need_bind fun _ _ => upholds_pure _ w
  | describeAllocator a style =>
      refine upholds_need_bind fun allocator _ => ?_
      exact upholds_bind (upholds_need _ w) fun _ => upholds_pure _
  | enter r => cases h
  | exit g => cases h
  | bound => exact upholds_pure _ w
  | reserve size =>
      refine upholds_bind (upholds_aside (aside_reserve size) w) fun start => ?_
      exact .bind frame_upholding (upholds_addBlock _) fun _ => upholds_pure _
  | commit b offset length =>
      refine upholds_bind (upholds_still (still_blockPart b offset length) w) fun start => ?_
      refine .bind frame_upholding (upholds_aside (aside_commit start length)) fun _ => ?_
      exact upholds_pure _
  | uncommit b offset length =>
      refine upholds_bind (upholds_still (still_blockPart b offset length) w) fun start => ?_
      refine .bind frame_upholding (upholds_aside (aside_uncommit start length)) fun _ => ?_
      exact upholds_pure _
  | release b =>
      refine upholds_need_bind fun block _ => ?_
      refine upholds_bind (upholds_aside (aside_release _ _) w) fun _ => ?_
      exact .bind frame_upholding (fun _ => upholds_of_eq rfl rfl rfl) fun _ => upholds_pure _
  | write number offset length byte =>
      exact upholds_still (still_write number offset length byte) w
  | read number offset length => exact upholds_still (still_read number offset length) w
  | advance time => exact upholds_of_eq rfl rfl rfl
  | failNext failure => exact upholds_of_eq rfl rfl rfl
  | placeNext address => exact upholds_of_eq rfl rfl rfl
  | failAllocations n kind => exact upholds_of_eq rfl rfl rfl
  | malformed makes r a => exact .refl w.self

/-- What a step that failed uses up. -/
theorem outcome_upholds_perform (step : Step) (w : World Session) :
    Upholds lost ((perform step).run w).2.self (outcome step w).2.self := by
  unfold outcome
  rcases (perform step).run w with ⟨e | value, w₁⟩
  · cases step.makes with
    | none => exact .refl w₁.self
    | some kind => exact upholds_skip kind w₁
  · exact .refl w₁.self

theorem outcome_upholds (step : Step) (h : step.onScope = false) (w : World Session) :
    Upholds step.drops w.self (outcome step w).2.self :=
  (perform_upholds step h w).trans (outcome_upholds_perform step w)

/-! ### Scopes -/

/-- A session after a region was bound: a guard remembers what was bound before. -/
def bindTo (s : Session) (r : RegionId) : Session :=
  { s with bound := some r, guards := s.guards.push (some ⟨s.bound⟩) }

theorem outcome_enter {r : RegionId} {region : Region} (h : w.self.named? r = some region) :
    outcome (.enter r) w
      = (.ok (.guard w.self.guards.next), { w with self := w.self.bindTo r }) := by
  unfold outcome perform
  rw [Act.run_self_bind]
  simp only [h, need, Act.run_pure_bind]
  rfl

/-- Nobody enters a scope of a region that the thread does not refer to. -/
theorem outcome_enter_refused {r : RegionId} (h : w.self.named? r = none) :
    outcome (.enter r) w = (.error .refused, { w with self := { w.self with
      guards := w.self.guards.push none } }) := by
  unfold outcome perform
  rw [Act.run_self_bind]
  simp only [h, need, refuse]
  rfl

/-- A session after a guard was dropped. -/
def restore (s : Session) (g : Nat) (guard : Guard) : Session :=
  { s with guards := s.guards.put g none, bound := guard.previous }

/-- A scope is left, and the region that was bound may end. -/
theorem leave_upholds (g : Nat) (guard : Guard) (w : World Session) :
    ∃ w', (leave g guard : Act ε Session Unit).run w = (.ok (), w') ∧
      Upholds lost (w.self.restore g guard) w'.self := by
  unfold leave
  rw [Act.run_self_bind]
  cases w.self.bound with
  | none => exact ⟨_, rfl, .refl _⟩
  | some id =>
      rw [Act.run_bind, Act.run_update]
      have ends : Along (Upholding lost) (discardUnheld id : Act ε Session Unit) :=
        upholds_discardUnheld id
      have upholds := ends { w with self := w.self.restore g guard }
      rcases hrun : (discardUnheld id : Act ε Session Unit).run
        { w with self := w.self.restore g guard } with ⟨answer, w'⟩
      obtain ⟨rfl, -⟩ := discardUnheld_letsGo hrun
      rw [hrun] at upholds
      exact ⟨w', hrun, upholds⟩

theorem outcome_exit {g : Nat} {guard : Guard} (h : w.self.guards.find? g = some guard) :
    ∃ w', outcome (.exit g) w = (.ok .nothing, w') ∧
      Upholds none (w.self.restore g guard) w'.self := by
  obtain ⟨w', hrun, upholds⟩ := leave_upholds (ε := Failure) g guard w
  refine ⟨w', ?_, upholds⟩
  unfold outcome perform
  rw [Act.run_self_bind]
  simp only [h, need, Act.run_pure_bind, Act.run_bind_ok hrun, Act.run_pure]

theorem outcome_exit_refused {g : Nat} (h : w.self.guards.find? g = none) :
    outcome (.exit g) w = (.error .refused, w) := by
  unfold outcome perform
  rw [Act.run_self_bind]
  simp only [h, need, refuse]
  rfl

/-! ### Turns -/

/-- The allocator that a move drops. -/
def Move.drops : Move → Option Nat
  | .step x => x.drops
  | .unbind => none

theorem keeps_of_eq (h : s'.allocators = s.allocators) : Keeps lost s s' := by
  intro a old _ hfind
  exact ⟨old, by rw [h]; exact hfind, rfl⟩

/-- **A turn loses no allocator but the one that it drops**, and puts none over another
region. -/
theorem after_keeps (s : Session) (t : Turn) : Keeps t.move.drops s (s.after t) := by
  obtain ⟨machine, move⟩ := t
  let w : World Session := { machine with self := s }
  cases move with
  | unbind =>
      show Keeps none s ((unbind : Act Empty Session Unit).run w).2.self
      unfold unbind
      rw [Act.run_self_bind]
      cases s.bound with
      | none => exact .refl s
      | some id =>
          have cleared : Keeps none s { s with bound := none } := keeps_of_eq rfl
          have ends : Along (Upholding none) (discardUnheld id : Act Empty Session Unit) :=
            upholds_discardUnheld id
          exact cleared.trans (ends { w with self := { s with bound := none } }).allocators
  | step step =>
      show Keeps step.drops s (outcome step w).2.self
      cases hscope : step.onScope with
      | false => exact (outcome_upholds step hscope w).allocators
      | true =>
          cases step with
          | enter r =>
              cases hnamed : s.named? r with
              | none =>
                  rw [outcome_enter_refused (w := w) hnamed]
                  exact keeps_of_eq rfl
              | some region =>
                  rw [outcome_enter (w := w) hnamed]
                  exact keeps_of_eq rfl
          | exit g =>
              cases hguard : s.guards.find? g with
              | none =>
                  rw [outcome_exit_refused (w := w) hguard]
                  exact .refl s
              | some guard =>
                  obtain ⟨w', hrun, upholds⟩ := outcome_exit (w := w) hguard
                  have restored : Keeps none s (s.restore g guard) := keeps_of_eq rfl
                  rw [hrun]
                  exact restored.trans upholds.allocators
          | _ => cases hscope

/-- An allocator that is not dropped stays over its region. -/
theorem play_keeps {ts : List Turn} {old : Allocator} (hfind : s.allocators.find? a = some old)
    (kept : ∀ t ∈ ts, t.move.drops ≠ some a) :
    ∃ new, (s.play ts).allocators.find? a = some new ∧
      new.strategy.region? = old.strategy.region? := by
  induction ts generalizing s old with
  | nil => exact ⟨old, hfind, rfl⟩
  | cons t ts ih =>
      have hlost := kept t List.mem_cons_self
      obtain ⟨mid, hmid, hsame⟩ := after_keeps s t a old hlost hfind
      obtain ⟨new, hnew, hsame'⟩ := ih hmid fun t ht => kept t (List.mem_cons_of_mem _ ht)
      exact ⟨new, hnew, hsame'.trans hsame⟩

end Session

end PageArena
