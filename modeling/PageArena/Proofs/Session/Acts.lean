/-
The acts of a session on its regions.

A step of a session is put together from a few acts: something is done with a region in its
place, or with a pool and the region beneath it, someone lets go of a region, and something is
made that refers to one.  For each there is a lemma `goes_` that says that the session keeps
to its course with the region that the act is about, and is in order afterwards.
-/
import Mathlib
import PageArena.Proofs.Region.Run
import PageArena.Proofs.Session.Course

namespace PageArena

open OsCall (Record)
open Act (Along Still Silent frame_still)

namespace Region

variable {σ : Type} {size : Nat} {tuning : RegionTuning} {region : Region}

/-- To make a region takes no call for address space. -/
theorem still_onBackend (size : Nat) (tuning : RegionTuning) (backend : Backend) :
    Along Still (onBackend size tuning backend (σ := σ)) := by
  refine .bind frame_still (Act.still_settle _) fun _ => ?_
  by_cases hsize : size = 0
  · simp only [if_pos hsize]
    exact Act.still_raise _
  · simp only [if_neg hsize]
    refine .bind frame_still (Act.still_settle _) fun total => ?_
    cases tuning.fits with
    | true => exact .bind frame_still (fun _ => ⟨rfl, rfl⟩) fun _ => Act.still_pure _
    | false => exact Act.still_pure none

theorem still_tuned (size : Nat) (tuning : RegionTuning) :
    Along Still (tuned size tuning (σ := σ)) :=
  .bind frame_still Host.still_current fun _ => still_onBackend _ _ _

/-- However the backend was come by, a region that is answered was made. -/
theorem made_of_bind {backend : Act ArenaError σ Backend} {w w' : World σ}
    (h : (backend >>= onBackend size tuning).run w = (.ok (some region), w')) :
    region.Made := by
  rcases Act.run_bind_cases h with ⟨found, w₁, -, hmade⟩ | ⟨e, -, he⟩
  · exact made_of_onBackend hmade
  · cases he

end Region

namespace Session

variable {s s' : Session} {w w₁ w' : World Session} {id a : Nat} {region : Region}
variable {about : Option RegionId} {ε α β : Type}

/-- An act of the library goes as a part of a step as it goes by itself. -/
theorem goes_call {act : Act ArenaError Session α} (h : Goes about w (act.run w).2) :
    Goes about w ((call act).run w).2 := h

/-- Nothing is done at all. -/
theorem goes_idle (ok : Orderly none w.self)
    (known : ∀ id, about = some id → ∃ region, w.self.region? id = some region) :
    Goes about w w :=
  goes_of_rests ok known (.refl w)

/-- A region that was found is one that exists. -/
theorem known_of_found (found : s.region? id = some region) (other : RegionId)
    (h : some id = some other) : ∃ region, s.region? other = some region := by
  obtain rfl := Option.some.inj h
  exact ⟨region, found⟩

/-- Nothing is done with a region before it is let go. -/
theorem goes_still (ok : Orderly none w.self) (found : w.self.region? id = some region) :
    Goes (some id) w w :=
  goes_idle ok (known_of_found found)

/-! ### Regions -/

/-- How an operation on a region goes, whichever it is. -/
def Passing (act : Act ε Region α) : Prop :=
  ∀ {w w' : World Region} {answer : Except ε α}, Region.Sound w.self →
    act.run w = (answer, w') → ∃ after made, Region.Passage w.self after.phase made ∧
      Region.Continues w.self after ∧ w.Leads w' after made

theorem passing_checkpoint : Passing Region.checkpoint := by
  intro w w' answer ok h
  obtain ⟨after, made, way, leads⟩ := Region.checkpoint_checkpoints h
  exact ⟨after, made, way.passage, way.continues, leads⟩

theorem passing_slice (size align : Nat) : Passing (Region.slice size align) := by
  intro w w' answer ok h
  obtain ⟨after, made, way, leads⟩ := Region.slice_slices ok h
  exact ⟨after, made, way.passage ok, way.continues, leads⟩

theorem passing_rollback (handle : Handle) : Passing (Region.rollback handle) := by
  intro w w' answer ok h
  obtain ⟨after, made, way, leads⟩ := Region.rollback_rollsBack ok h
  exact ⟨after, made, way.passage ok, way.continues ok, leads⟩

theorem passing_close : Passing Region.close := by
  intro w w' answer ok h
  obtain ⟨after, made, way, leads⟩ := Region.close_closes h
  exact ⟨after, made, way.passage, way.continues, leads⟩

/-- An operation on a region that the session has. -/
theorem goes_onRegion (ok : Orderly none w.self) (found : w.self.region? id = some region)
    {act : Act ε Region α} (passing : Passing act) :
    Goes (some id) w ((onRegion id region act).run w).2 := by
  rcases h : act.run { w with self := region } with ⟨answer, w₁⟩
  have okr : Region.Sound ({ w with self := region } : World Region).self :=
    ok.sound id region found
  obtain ⟨after, made, passage, continues, leads⟩ := passing okr h
  have goes := goes_of_passage ok found passage continues leads
  rw [onRegion, Act.run_within, h, leads.self]
  exact goes

/-! ### Pools -/

/-- How an operation on a pool goes, whichever it is. -/
def PoolPassing (act : Act ε Tenancy α) : Prop :=
  ∀ {w w' : World Tenancy} {answer : Except ε α}, Region.Sound w.self.region →
    act.run w = (answer, w') → ∃ t made, Region.Passage w.self.region t.region.phase made ∧
      Region.Continues w.self.region t.region ∧ w.Leads w' t made

theorem poolPassing_allocate (size align : Nat) : PoolPassing (Pool.allocate size align) := by
  intro w w' answer ok h
  obtain ⟨t, made, way, leads⟩ := Pool.allocate_allocates ok h
  exact ⟨t, made, way.passage ok, way.continues, leads⟩

theorem poolPassing_allocateZeroed (size align : Nat) :
    PoolPassing (Pool.allocateZeroed size align) := by
  intro w w' answer ok h
  obtain ⟨t, made, way, leads⟩ := Pool.allocateZeroed_allocates ok h
  exact ⟨t, made, way.passage ok, way.continues, leads⟩

theorem poolPassing_close : PoolPassing Pool.close := by
  intro w w' answer ok h
  obtain ⟨t, made, way, leads⟩ := Pool.close_closes ok h
  exact ⟨t, made, way.passage ok, way.continues ok, leads⟩

theorem poolPassing_discard : PoolPassing Pool.discard := by
  intro w w' answer ok h
  obtain ⟨close, t, made, way, leads⟩ := Pool.discard_closes ok h
  exact ⟨t, made, way.passage ok, way.continues ok, leads⟩

/-- An operation on a pool that the session has: nobody begins or ends to refer to a region. -/
theorem goes_onPool (ok : Orderly none w.self) {allocator : Allocator} {pool : Pool}
    (hfind : w.self.allocators.find? a = some allocator)
    (hstrategy : allocator.strategy = .pool pool id)
    (found : w.self.region? id = some region)
    {act : Act ε Tenancy α} (passing : PoolPassing act) :
    Goes (some id) w ((onPool a pool id region act).run w).2 ∧
      Alike w.self ((onPool a pool id region act).run w).2.self := by
  rcases h : act.run { w with self := ⟨pool, region⟩ } with ⟨answer, w₁⟩
  have okr : Region.Sound ({ w with self := ⟨pool, region⟩ } : World Tenancy).self.region :=
    ok.sound id region found
  obtain ⟨t, made, passage, continues, leads⟩ := passing okr h
  have leads' : World.Leads { w with self := region } { w₁ with self := t.region }
      t.region made := ⟨rfl, leads.calls, leads.clock⟩
  have goes := goes_of_passage ok found passage continues leads'
  have alike := alike_setRegion w.self id t.region
  have quiet : Quiet (w.self.setRegion id t.region)
      ((w.self.setRegion id t.region).setStrategy a (.pool t.pool id)) := by
    refine quiet_setStrategy ?_
    rw [alike.beneath, beneath, hfind]
    show some id = allocator.strategy.region?
    rw [hstrategy]
    rfl
  rw [onPool, Act.run_within, h, leads.self]
  exact ⟨goes.rests ⟨rfl, quiet⟩, alike.trans quiet.alike⟩

/-- The end of a pool takes nothing from a region that is unused. -/
theorem calls_discard {pool : Pool} {answer : Except Empty Unit} (ok : Region.Sound region)
    (unused : region.phase = .unreserved)
    (h : (onPool a pool id region Pool.discard).run w = (answer, w')) :
    w'.kernel.calls = w.kernel.calls := by
  rcases hrun : Pool.discard.run { w with self := ⟨pool, region⟩ } with ⟨discarded, w₁⟩
  rw [onPool, Act.run_within, hrun] at h
  obtain ⟨-, rfl⟩ := Prod.mk.inj h
  obtain ⟨closed, t, made, closes, leads⟩ := Pool.discard_closes ok hrun
  obtain rfl := closes.made_eq_nil unused
  exact leads.calls.trans (List.append_nil _)

/-- Who looks at an allocator finds it over nothing, or over a region that exists. -/
theorem found_of_pool (ok : Orderly none w.self) {allocator : Allocator} {pool : Pool}
    (hfind : w.self.allocators.find? a = some allocator)
    (hstrategy : allocator.strategy = .pool pool id) :
    w.self.beneath a = some id ∧ ∃ region, w.self.region? id = some region := by
  have hbeneath : w.self.beneath a = some id := by
    rw [beneath, hfind]
    show allocator.strategy.region? = some id
    rw [hstrategy]
    rfl
  exact ⟨hbeneath, ok.kept id (.pool hbeneath)⟩

theorem beneath_of_heap {allocator : Allocator} {heap : BatchHeap}
    (hfind : w.self.allocators.find? a = some allocator)
    (hstrategy : allocator.strategy = .heap heap) : w.self.beneath a = none := by
  rw [beneath, hfind]
  show allocator.strategy.region? = none
  rw [hstrategy]
  rfl

theorem goes_allocate (ok : Orderly none w.self) (a size align : Nat) (manner : Manner) :
    Goes (w.self.beneath a) w ((allocate a size align manner).run w).2 := by
  have known : ∀ id, w.self.beneath a = some id → ∃ region, w.self.region? id = some region :=
    fun id h => ok.kept id (.pool h)
  have refused : Goes (w.self.beneath a) w w := goes_idle ok known
  refine of_need refused fun allocator hfind => ?_
  refine of_ite_need refused ?_
  cases hstrategy : allocator.strategy with
  | heap heap =>
      have hnone := beneath_of_heap hfind hstrategy
      have silent : Along Silent (if manner = .zeroed then
          BatchHeap.allocateZeroed size align else BatchHeap.allocate size align) := by
        by_cases hzeroed : manner = .zeroed
        · rw [if_pos hzeroed]
          exact BatchHeap.silent_allocateZeroed size align
        · rw [if_neg hzeroed]
          exact BatchHeap.silent_allocate size align
      have rests : Rests w ((onHeap a heap _).run w).2 := rests_onHeap silent hnone heap
      refine goes_bind (goes_call (goes_of_rests ok known rests)) fun span => ?_
      exact .bind frame_rests (rests_addLease _) fun _ => rests_pure _
  | pool pool id =>
      obtain ⟨hbeneath, -⟩ := found_of_pool ok hfind hstrategy
      have passing : PoolPassing (if manner = .zeroed then
          Pool.allocateZeroed size align else Pool.allocate size align) := by
        by_cases hzeroed : manner = .zeroed
        · rw [if_pos hzeroed]
          exact poolPassing_allocateZeroed size align
        · rw [if_neg hzeroed]
          exact poolPassing_allocate size align
      refine of_need refused fun region found => ?_
      obtain ⟨goes, -⟩ := goes_onPool ok hfind hstrategy found passing
      rw [hbeneath]
      refine goes_bind (goes_call goes) fun span => ?_
      exact .bind frame_rests (rests_addLease _) fun _ => rests_pure _

theorem goes_closeAllocator (ok : Orderly none w.self) (a : Nat) :
    Goes (w.self.beneath a) w ((closeAllocator a).run w).2 := by
  have known : ∀ id, w.self.beneath a = some id → ∃ region, w.self.region? id = some region :=
    fun id h => ok.kept id (.pool h)
  have refused : Goes (w.self.beneath a) w w := goes_idle ok known
  refine of_need refused fun allocator hfind => ?_
  cases hstrategy : allocator.strategy with
  | heap heap =>
      have hnone := beneath_of_heap hfind hstrategy
      exact goes_of_rests ok known (rests_onHeap BatchHeap.silent_close hnone heap)
  | pool pool id =>
      refine of_need refused fun region found => ?_
      rw [(found_of_pool ok hfind hstrategy).1]
      exact (goes_onPool ok hfind hstrategy found poolPassing_close).1

/-! ### Letting go -/

/-- The last thing in letting go: the region ends if nobody refers to it any more. -/
theorem goes_discard {s₂ : Session} (first : Goes (some id) w w₁)
    (next : s₂.regions.next = w₁.self.regions.next)
    (regions : ∀ id, s₂.region? id = w₁.self.region? id)
    (unbegun : ∀ region, w.self.region? id = some region → region.phase = .unreserved →
      w₁.kernel.calls = w.kernel.calls) (ok : Orderly (some id) s₂) :
    Goes (some id) w ((discardUnheld id : Act ε Session Unit).run { w₁ with self := s₂ }).2 := by
  rcases hlet : (discardUnheld id : Act ε Session Unit).run { w₁ with self := s₂ } with
    ⟨answer, w'⟩
  obtain ⟨-, made, letsGo⟩ := discardUnheld_letsGo hlet
  have calls : ({ w₁ with self := s₂ } : World Session).kernel.calls = w₁.kernel.calls := rfl
  exact first.letsGo calls next regions unbegun ok letsGo

/-- A place for an allocator is empty now. -/
theorem beneath_put_none (s : Session) (a b : Nat) :
    ({ s with allocators := s.allocators.put a none } : Session).beneath b
      = if a = b then none else s.beneath b := by
  unfold Session.beneath
  by_cases hb : a = b
  · subst hb
    rw [if_pos rfl, Slots.find?_put_none]
    rfl
  · rw [if_neg hb, Slots.find?_put_of_ne _ _ hb]

/-- An allocator is gone, and nobody else has let go. -/
theorem Orderly.dropAllocator (ok : Orderly none s) (a : Nat) :
    Orderly (s.beneath a) { s with allocators := s.allocators.put a none } := by
  refine ok.of_refers (fun _ => rfl) ?_ ?_
  · intro id hrefers
    refine ok.kept id (hrefers.mono (fun h => h) (fun b h => ?_) (fun _ h => h) fun h => h)
    rw [beneath_put_none] at h
    split at h
    · cases h
    · exact h
  · intro id hrefers
    cases hrefers with
    | name h => exact Or.inl (.name h)
    | @pool b h =>
        by_cases hb : a = b
        · subst hb
          exact Or.inr h
        · refine Or.inl (.pool (a := b) ?_)
          rw [beneath_put_none, if_neg hb]
          exact h
    | guard h => exact Or.inl (.guard h)
    | binding h => exact Or.inl (.binding h)

theorem goes_dropAllocator (ok : Orderly none w.self) {allocator : Allocator}
    (hfind : w.self.allocators.find? a = some allocator) :
    Goes (w.self.beneath a) w ((dropAllocator a allocator : Act ε Session Unit).run w).2 := by
  unfold dropAllocator
  cases hstrategy : allocator.strategy with
  | heap heap =>
      have hnone := beneath_of_heap hfind hstrategy
      have first := rests_onHeap BatchHeap.silent_discard hnone heap (w := w)
      rcases h : (onHeap a heap BatchHeap.discard).run w with ⟨e | u, w₁⟩
      · cases e
      · rw [h] at first
        simp only [calm, Act.run_bind, Act.run_mapError, h, Except.mapError, Act.run_update]
        have known : ∀ id, w.self.beneath a = some id →
            ∃ region, w.self.region? id = some region := fun id h => ok.kept id (.pool h)
        refine goes_of_rests ok known (frame_rests.trans first ⟨rfl, quiet_putAllocator ?_⟩)
        rw [first.2.beneath, hnone]
        rfl
  | pool pool id =>
      obtain ⟨hbeneath, region, found⟩ := found_of_pool ok hfind hstrategy
      obtain ⟨goes, alike⟩ := goes_onPool ok hfind hstrategy found poolPassing_discard
      rw [hbeneath]
      simp only [Act.run_self_bind, found]
      rcases h : (onPool a pool id region Pool.discard).run w with ⟨e | u, w₁⟩
      · cases e
      · rw [h] at goes alike
        simp only [calm, Act.run_bind, Act.run_mapError, h, Except.mapError, Act.run_update]
        have ok₁ : Orderly none w₁.self := goes.choose_spec.2.2
        have unbegun : ∀ r, w.self.region? id = some r → r.phase = .unreserved →
            w₁.kernel.calls = w.kernel.calls := by
          intro r hr unused
          obtain rfl := Option.some.inj (found.symm.trans hr)
          exact calls_discard (ok.sound id region found) unused h
        have ok₂ := ok₁.dropAllocator a
        rw [alike.beneath, hbeneath] at ok₂
        exact goes_discard goes rfl (fun _ => rfl) unbegun ok₂

/-- The scope of a guard is left: what the guard kept is bound, and what was bound is let
go. -/
theorem Orderly.leave (ok : Orderly none s) {g : Nat} {guard : Guard}
    (hfind : s.guards.find? g = some guard) :
    Orderly s.bound
      { s with guards := s.guards.put g none, bound := guard.restored } := by
  have hsaved : s.saved g = guard.previous := by rw [Session.saved, hfind]; rfl
  have hput : ∀ g', ({ s with
      guards := s.guards.put g none, bound := guard.restored } : Session).saved g'
        = if g = g' then none else s.saved g' := by
    intro g'
    unfold Session.saved
    by_cases hg : g = g'
    · subst hg
      rw [if_pos rfl, Slots.find?_put_none]
      rfl
    · rw [if_neg hg, Slots.find?_put_of_ne _ _ hg]
  refine ok.of_refers (fun _ => rfl) ?_ ?_
  · intro id hrefers
    refine ok.kept id ?_
    cases hrefers with
    | name h => exact .name h
    | pool h => exact .pool h
    | @guard g' h =>
        rw [hput] at h
        split at h
        · cases h
        · exact .guard h
    | binding h => exact .guard (hsaved.trans h)
  · intro id hrefers
    cases hrefers with
    | name h => exact Or.inl (.name h)
    | pool h => exact Or.inl (.pool h)
    | @guard g' h =>
        by_cases hg : g = g'
        · subst hg
          exact Or.inl (.binding (hsaved.symm.trans h))
        · refine Or.inl (.guard (g := g') ?_)
          rw [hput, if_neg hg]
          exact h
    | binding h => exact Or.inr h

theorem goes_leave (ok : Orderly none w.self) {g : Nat} {guard : Guard}
    (hfind : w.self.guards.find? g = some guard) :
    Goes w.self.bound w ((leave g guard : Act ε Session Unit).run w).2 := by
  have ok₂ := ok.leave hfind
  unfold leave
  rw [Act.run_self_bind]
  cases hbound : w.self.bound with
  | none =>
      rw [hbound] at ok₂
      exact ⟨[], (List.append_nil _).symm, course_of_same (Nat.le_refl _) (fun _ => rfl)
        (fun _ => nofun), ok₂⟩
  | some id =>
      rw [hbound] at ok₂
      obtain ⟨region, found⟩ := ok.kept id (.binding hbound)
      exact goes_discard (goes_still ok found) rfl (fun _ => rfl) (fun _ _ _ => rfl) ok₂

/-- The binding of the thread ends. -/
theorem Orderly.unbind (ok : Orderly none s) : Orderly s.bound { s with bound := none } := by
  refine ok.of_refers (fun _ => rfl) ?_ ?_
  · intro id hrefers
    exact ok.kept id (hrefers.mono (fun h => h) (fun _ h => h) (fun _ h => h) nofun)
  · intro id hrefers
    cases hrefers with
    | name h => exact Or.inl (.name h)
    | pool h => exact Or.inl (.pool h)
    | guard h => exact Or.inl (.guard h)
    | binding h => exact Or.inr h

theorem goes_unbind (ok : Orderly none w.self) :
    Goes w.self.bound w ((unbind : Act ε Session Unit).run w).2 := by
  unfold unbind
  rw [Act.run_self_bind]
  cases hbound : w.self.bound with
  | none => exact goes_idle ok fun _ => nofun
  | some id =>
      have ok₂ := ok.unbind
      rw [hbound] at ok₂
      obtain ⟨region, found⟩ := ok.kept id (.binding hbound)
      exact goes_discard (goes_still ok found) rfl (fun _ => rfl) (fun _ _ _ => rfl) ok₂

/-- The session once the thread has given up its own reference to a region. -/
def unname (s : Session) (id : RegionId) (cell : RegionCell) : Session :=
  { s with regions := s.regions.put id (some { cell with named := false }) }

theorem region?_unname {cell : RegionCell} (hcell : s.regions.find? id = some cell)
    (other : RegionId) : (s.unname id cell).region? other = s.region? other := by
  unfold unname region?
  by_cases h : id = other
  · subst h
    rw [Slots.find?_put_of_some hcell, hcell]
    rfl
  · rw [Slots.find?_put_of_ne _ _ h]

theorem named?_unname_of_ne (cell : RegionCell) {other : RegionId} (h : id ≠ other) :
    (s.unname id cell).named? other = s.named? other := by
  unfold unname named?
  rw [Slots.find?_put_of_ne _ _ h]

theorem Orderly.unname (ok : Orderly none s) {cell : RegionCell}
    (hcell : s.regions.find? id = some cell) : Orderly (some id) (s.unname id cell) := by
  refine ok.of_refers (region?_unname hcell) ?_ ?_
  · intro other hrefers
    by_cases h : id = other
    · subst h
      exact region?_eq_some_iff.mpr (by rw [hcell]; rfl)
    · refine ok.kept other (hrefers.mono ?_ (fun _ h => h) (fun _ h => h) fun h => h)
      rw [named?_unname_of_ne cell h]
      exact fun hname => hname
  · intro other hrefers
    by_cases h : id = other
    · exact Or.inr (congrArg some h)
    · refine Or.inl (hrefers.mono ?_ (fun _ h => h) (fun _ h => h) fun h => h)
      rw [named?_unname_of_ne cell h]
      exact fun hname => hname

theorem goes_dropRegion (ok : Orderly none w.self) (found : w.self.region? id = some region) :
    Goes (some id) w ((dropRegion id : Act ε Session Unit).run w).2 := by
  obtain ⟨cell, hcell, -⟩ := Option.map_eq_some_iff.mp found
  have ok₂ := ok.unname hcell
  unfold dropRegion
  simp only [Act.run_self_bind, hcell]
  exact goes_discard (goes_still ok found) (Slots.next_put _ _ _) (region?_unname hcell)
    (fun _ _ _ => rfl) ok₂

/-! ### Making -/

/-- The regions are the same, no call was made, and there is order. -/
theorem goes_of_same (calls : w'.kernel.calls = w.kernel.calls)
    (next : w.self.regions.next ≤ w'.self.regions.next)
    (regions : ∀ id, w'.self.region? id = w.self.region? id)
    (known : ∀ id, about = some id → ∃ region, w.self.region? id = some region)
    (ok : Orderly none w'.self) : Goes about w w' :=
  ⟨[], by rw [calls, List.append_nil], course_of_same next regions known, ok⟩

/-- A step that at first lets the regions rest. -/
theorem Rests.goes (first : Rests w w₁) (next : Goes about w₁ w') : Goes about w w' := by
  obtain ⟨hcalls, quiet⟩ := first
  obtain ⟨made, hcalls', course, ok⟩ := next
  refine ⟨made, by rw [hcalls', hcalls], ?_, ok⟩
  refine ⟨Nat.le_trans quiet.next course.next, ?_, ?_, course.silent, ?_⟩
  · intro id region hne hregion
    exact course.others id region hne ((quiet.region? id).trans hregion)
  · intro id region hnone hregion
    obtain ⟨hle, hphase⟩ := course.fresh id region ((quiet.region? id).trans hnone) hregion
    exact ⟨Nat.le_trans quiet.next hle, hphase⟩
  · intro id habout
    obtain ⟨region, after, hregion, rest⟩ := course.subject id habout
    exact ⟨region, after, (quiet.region? id).symm.trans hregion, rest⟩

/-- A step that has changed nothing so far goes on as it does from where it is. -/
theorem goes_after {first : Act ε Session α} {next : α → Act ε Session β}
    (still : Along Still first) (refused : Goes about w w)
    (h : ∀ {x w₁}, first.run w = (.ok x, w₁) → w₁.self = w.self →
      Goes about w₁ ((next x).run w₁).2) :
    Goes about w ((first >>= next).run w).2 := by
  have rests : Rests w (first.run w).2 := frame_rests.of_still (still w)
  have hself := (still w).2
  rw [Act.run_bind]
  rcases hrun : first.run w with ⟨e | x, w₁⟩
  · rw [hrun] at rests
    exact refused.rests rests
  · rw [hrun] at rests hself
    exact rests.goes (h hrun hself)

/-- The session with one more region. -/
def withRegion (s : Session) (region : Region) : Session :=
  { s with regions := s.regions.push (some { region := region }) }

theorem region?_withRegion_next (s : Session) (region : Region) :
    (s.withRegion region).region? s.regions.next = some region := by
  unfold withRegion region?
  rw [Slots.find?_push_next]
  rfl

theorem region?_withRegion_of_ne (h : id ≠ s.regions.next) (region : Region) :
    (s.withRegion region).region? id = s.region? id := by
  unfold withRegion region?
  rw [Slots.find?_push_of_ne _ _ h]

theorem named?_withRegion_of_ne (h : id ≠ s.regions.next) (region : Region) :
    (s.withRegion region).named? id = s.named? id := by
  unfold withRegion named?
  rw [Slots.find?_push_of_ne _ _ h]

/-- A new region is referred to by the thread that made it. -/
theorem Orderly.withRegion (ok : Orderly none s) (sound : Region.Sound region) :
    Orderly none (s.withRegion region) where
  kept id hrefers := by
    by_cases hnew : id = s.regions.next
    · exact ⟨region, hnew ▸ region?_withRegion_next s region⟩
    · rw [region?_withRegion_of_ne hnew]
      refine ok.kept id (hrefers.mono ?_ (fun _ h => h) (fun _ h => h) fun h => h)
      rw [named?_withRegion_of_ne hnew]
      exact fun hname => hname
  ended id found hfound := by
    refine Or.inl ?_
    by_cases hnew : id = s.regions.next
    · refine .name ?_
      rw [named?_isSome_iff, hnew]
      unfold Session.withRegion
      rw [Slots.find?_push_next]
      rfl
    · rw [region?_withRegion_of_ne hnew] at hfound
      rcases ok.ended id found hfound with hrefers | hnone
      · refine hrefers.mono ?_ (fun _ h => h) (fun _ h => h) fun h => h
        rw [named?_withRegion_of_ne hnew]
        exact fun hname => hname
      · cases hnone
  sound id found hfound := by
    by_cases hnew : id = s.regions.next
    · rw [hnew, region?_withRegion_next] at hfound
      obtain rfl := Option.some.inj hfound
      exact sound
    · rw [region?_withRegion_of_ne hnew] at hfound
      exact ok.sound id found hfound

theorem goes_withRegion (ok : Orderly none w.self) (made : region.Made) :
    Goes none w { w with self := w.self.withRegion region } := by
  obtain ⟨-, -, phase, -⟩ := made.cases
  refine ⟨[], (List.append_nil _).symm, ?_, ok.withRegion made.sound⟩
  refine ⟨?_, ?_, ?_, fun _ => rfl, fun _ => nofun⟩
  · exact (Slots.next_push w.self.regions _) ▸ Nat.le_succ _
  · intro id found _ hfound
    have hne : id ≠ w.self.regions.next := by
      rintro rfl
      obtain ⟨cell, hcell, -⟩ := Option.map_eq_some_iff.mp hfound
      exact absurd (Slots.lt_next_of_find? hcell) (Nat.lt_irrefl _)
    exact (region?_withRegion_of_ne hne region).trans hfound
  · intro id found hnone hfound
    by_cases hnew : id = w.self.regions.next
    · rw [hnew, region?_withRegion_next] at hfound
      obtain rfl := Option.some.inj hfound
      exact ⟨Nat.le_of_eq hnew.symm, phase⟩
    · rw [region?_withRegion_of_ne hnew, hnone] at hfound
      cases hfound

/-- How a region of some origin is made. -/
def making (size : Nat) : RegionOrigin → Act ArenaError Session (Option Region)
  | .standard => Region.ofSize size
  | .tuned tuning => Region.tuned size tuning
  | .onBackend tuning => do Region.onBackend size tuning (← Host.init)

theorem still_making (size : Nat) (origin : RegionOrigin) :
    Along Still (making size origin) := by
  cases origin with
  | standard => exact Region.still_tuned size {}
  | tuned tuning => exact Region.still_tuned size tuning
  | onBackend tuning =>
      exact .bind frame_still Host.still_init fun _ => Region.still_onBackend _ _ _

theorem made_of_making {size : Nat} {origin : RegionOrigin}
    (h : (making size origin).run w = (.ok (some region), w₁)) : region.Made := by
  cases origin with
  | standard => exact Region.made_of_bind h
  | tuned tuning => exact Region.made_of_bind h
  | onBackend tuning => exact Region.made_of_bind h

/-- What a step was answered by the library, the library answered. -/
theorem run_of_call_ok {act : Act ArenaError Session α} {x : α}
    (h : (call act).run w = (.ok x, w₁)) : act.run w = (.ok x, w₁) := by
  rw [call, Act.run_mapError] at h
  rcases hrun : act.run w with ⟨e | y, w₂⟩
  · rw [hrun] at h
    cases h
  · rw [hrun] at h
    obtain ⟨hx, hw⟩ := Prod.mk.inj h
    obtain rfl := Except.ok.inj hx
    rw [show w₂ = w₁ from hw]

theorem goes_makeRegion (ok : Orderly none w.self) (size : Nat) (origin : RegionOrigin) :
    Goes none w ((makeRegion size origin).run w).2 := by
  have still : Along Still (call (making size origin)) := still_making size origin
  have refused : Goes none w w := goes_idle ok fun _ => nofun
  show Goes none w ((call (making size origin) >>= _).run w).2
  refine goes_after still refused fun hrun hself => ?_
  have ok₁ := hself ▸ ok
  refine of_made (goes_idle ok₁ fun _ => nofun) fun r hr => ?_
  subst hr
  exact goes_withRegion ok₁ (made_of_making (run_of_call_ok hrun))

/-- Whoever gets an allocator refers to what is beneath it. -/
theorem Orderly.present (ok : Orderly none s) {allocator : Allocator}
    (kept : ∀ id, allocator.strategy.region? = some id →
      ∃ region, s.region? id = some region) :
    Orderly none { s with allocators := s.allocators.push (some allocator) } := by
  have hpush : ∀ a, ({ s with
      allocators := s.allocators.push (some allocator) } : Session).beneath a
        = if a = s.allocators.next then allocator.strategy.region? else s.beneath a := by
    intro a
    unfold Session.beneath
    by_cases ha : a = s.allocators.next
    · rw [if_pos ha, ha, Slots.find?_push_next]
      rfl
    · rw [if_neg ha, Slots.find?_push_of_ne _ _ ha]
  refine ok.of_refers (fun _ => rfl) ?_ ?_
  · intro id hrefers
    cases hrefers with
    | name h => exact ok.kept id (.name h)
    | @pool a h =>
        rw [hpush] at h
        split at h
        · exact kept id h
        · exact ok.kept id (.pool h)
    | guard h => exact ok.kept id (.guard h)
    | binding h => exact ok.kept id (.binding h)
  · intro id hrefers
    refine Or.inl (hrefers.mono (fun h => h) (fun a h => ?_) (fun _ h => h) fun h => h)
    have ha : a ≠ s.allocators.next := by
      rintro rfl
      rw [Session.beneath, Slots.find?_of_next_le (Nat.le_refl _)] at h
      cases h
    rw [hpush, if_neg ha]
    exact h

theorem goes_present (ok : Orderly none w.self)
    (known : ∀ id, about = some id → ∃ region, w.self.region? id = some region)
    {allocator : Allocator} (kept : ∀ id, allocator.strategy.region? = some id →
      ∃ region, w.self.region? id = some region) :
    Goes about w ((present allocator).run w).2 :=
  goes_of_same rfl (Nat.le_refl _) (fun _ => rfl) known (ok.present kept)

/-- A factory makes allocators over what it is given. -/
theorem region?_of_makeOver {f : Factory} {over? : Option RegionId} {allocator : Allocator}
    (h : f.makeOver over? = some allocator) : allocator.strategy.region? = over? := by
  cases over? with
  | some r =>
      obtain rfl := Option.some.inj h
      rfl
  | none =>
      obtain ⟨heap, -, rfl⟩ := Option.map_eq_some_iff.mp h
      rfl

/-- Whoever enters a scope refers to what was bound and to what is bound now. -/
theorem Orderly.enter (ok : Orderly none s) (found : s.region? id = some region) :
    Orderly none
      { s with bound := some id, guards := s.guards.push (some ⟨s.bound⟩) } := by
  have hpush : ∀ g, ({ s with
      bound := some id, guards := s.guards.push (some ⟨s.bound⟩) } : Session).saved g
        = if g = s.guards.next then s.bound else s.saved g := by
    intro g
    unfold Session.saved
    by_cases hg : g = s.guards.next
    · rw [if_pos hg, hg, Slots.find?_push_next]
      rfl
    · rw [if_neg hg, Slots.find?_push_of_ne _ _ hg]
  refine ok.of_refers (fun _ => rfl) ?_ ?_
  · intro other hrefers
    cases hrefers with
    | name h => exact ok.kept other (.name h)
    | pool h => exact ok.kept other (.pool h)
    | @guard g h =>
        rw [hpush] at h
        split at h
        · exact ok.kept other (.binding h)
        · exact ok.kept other (.guard h)
    | binding h =>
        obtain rfl := Option.some.inj h
        exact ⟨region, found⟩
  · intro other hrefers
    refine Or.inl ?_
    cases hrefers with
    | name h => exact .name h
    | pool h => exact .pool h
    | @guard g h =>
        have hg : g ≠ s.guards.next := by
          rintro rfl
          rw [Session.saved, Slots.find?_of_next_le (Nat.le_refl _)] at h
          cases h
        refine .guard (g := g) ?_
        rw [hpush, if_neg hg]
        exact h
    | binding h =>
        refine .guard (g := s.guards.next) ?_
        rw [hpush, if_pos rfl]
        exact h

theorem goes_enter (ok : Orderly none w.self) (found : w.self.region? id = some region) :
    Goes (some id) w { w with self := { w.self with
      bound := some id, guards := w.self.guards.push (some ⟨w.self.bound⟩) } } :=
  goes_of_same rfl (Nat.le_refl _) (fun _ => rfl) (known_of_found found) (ok.enter found)

end Session

end PageArena
