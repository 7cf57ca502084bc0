/-
What becomes of a region that somebody refers to.

The end of its last holder releases a region, so nothing that a session does may release it as
long as somebody refers to it.  There are two exceptions, and neither is the end of an object.
A thread may close a region that others refer to.  And if a change of its pages fails, then the
region gives itself up, whoever refers to it; `Region.Lost` is the account of that.

Everything else spares it: no call releases anything, and a region that was open stays open
(`Region.KeptOrLost`).  Who lets go of a region that others refer to does not touch it at all.
Only a pool does, which rolls its region back when it is dropped, so a change of pages may fail
there too.

Whether somebody refers to the region is asked at the end of a step, since it is only then that
the step has let go of what it lets go of.
-/
import Mathlib
import PageArena.Proofs.Allocator.Loss
import PageArena.Proofs.Session.Ending

namespace PageArena

open OsCall (Record)
open Act (Along)

namespace Region

variable {r r' : Region} {phase : Phase} {made : List Record}

/-- What spares a region: nothing is released and the region is as open as it was, unless a
change of its pages failed and it was lost over that. -/
inductive KeptOrLost (r r' : Region) (made : List Record) : Prop
  | kept (unreleased : ∀ record ∈ made, record.call ≠ .munmap)
      (stays : r.phase ≠ .closed → r'.phase ≠ .closed)
  | lost {e : ArenaError} (lost : Lost r e r' made)

theorem KeptOrLost.refl (r : Region) : KeptOrLost r r [] := .kept nofun id

theorem Changes.unreleased {base total : Nat} (h : Changes base total made) :
    ∀ record ∈ made, record.call ≠ .munmap := by
  intro record hrecord
  cases h record hrecord with
  | access low high => exact nofun
  | contents low high => exact nofun

/-- Only what closes a region releases anything. -/
theorem Passage.unreleased (h : Passage r phase made)
    (stays : phase = .closed → r.phase = .closed) : ∀ record ∈ made, record.call ≠ .munmap := by
  cases h with
  | idle => exact nofun
  | dismissed unused => exact nofun
  | refused unused =>
      intro record hrecord
      obtain rfl := List.mem_singleton.mp hrecord
      exact nofun
  | held held uses =>
      cases uses with
      | kept changes => exact changes.unreleased
      | released changes => exact Phase.noConfusion (held.symm.trans (stays rfl))
  | entered unused uses =>
      cases uses with
      | kept changes =>
          intro record hrecord
          rcases List.mem_cons.mp hrecord with rfl | hrecord
          · exact nofun
          · exact changes.unreleased record hrecord
      | released changes => exact Phase.noConfusion (unused.symm.trans (stays rfl))

/-- What goes without harm keeps the region. -/
theorem Unharmed.kept (h : Unharmed r r' made) (passage : Passage r r'.phase made) :
    KeptOrLost r r' made := by
  refine .kept (passage.unreleased fun closed => ?_) h.stays
  by_contra hopen
  exact h.stays hopen closed

theorem LostOrUnharmed.kept_or_lost {α : Type} {answer : Except ArenaError α}
    (h : LostOrUnharmed r answer r' made) (passage : Passage r r'.phase made) :
    KeptOrLost r r' made := by
  rcases h with ⟨e, -, lost⟩ | unharmed
  · exact .lost lost
  · exact unharmed.kept passage

end Region

namespace Session

variable {w w₁ w' : World Session} {id a : Nat} {region : Region} {ε α β : Type}

/-- The region of a number is there before and after, and has been spared. -/
def Lasts (id : RegionId) (w w' : World Session) : Prop :=
  ∀ before, w.self.region? id = some before → ∃ after made, w'.self.region? id = some after ∧
    w'.kernel.calls = w.kernel.calls ++ made ∧ Region.KeptOrLost before after made

/-- The region of a number has been spared if somebody refers to it in the end. -/
def Minds (id : RegionId) (w w' : World Session) : Prop := w'.self.Refers id → Lasts id w w'

/-- Nothing was called for, and the region of a number is what it was. -/
structure Untouched (id : RegionId) (w w' : World Session) : Prop where
  calls : w'.kernel.calls = w.kernel.calls
  region : w'.self.region? id = w.self.region? id

theorem Rests.untouched (h : Rests w w') (id : RegionId) : Untouched id w w' :=
  ⟨h.1, h.2.region? id⟩

theorem Untouched.lasts (h : Untouched id w w') : Lasts id w w' := fun before found =>
  ⟨before, [], h.region.trans found, h.calls.trans (List.append_nil _).symm, .refl before⟩

theorem Lasts.untouched (first : Lasts id w w₁) (next : Untouched id w₁ w') : Lasts id w w' := by
  intro before found
  obtain ⟨after, made, found', calls, spared⟩ := first before found
  exact ⟨after, made, next.region.trans found', next.calls.trans calls, spared⟩

theorem Untouched.minds (h : Untouched id w w') : Minds id w w' := fun _ => h.lasts

theorem minds_of_rests (h : Rests w w') : Minds id w w' := (h.untouched id).minds

theorem minds_idle (w : World Session) : Minds id w w := minds_of_rests (.refl w)

theorem Minds.rests (first : Minds id w w₁) (next : Rests w₁ w') : Minds id w w' := by
  intro refers
  have refers₁ : w₁.self.Refers id := (next.2.alike.refers_iff id).mp refers
  exact (first refers₁).untouched (next.untouched id)

theorem minds_bind {first : Act ε Session α} {next : α → Act ε Session β}
    (hfirst : Minds id w (first.run w).2) (hnext : ∀ x, Along Rests (next x)) :
    Minds id w ((first >>= next).run w).2 :=
  of_bind hfirst fun x w₁ minds => minds.rests (hnext x w₁)

/-- An act of the library minds a region as a part of a step as it does by itself. -/
theorem minds_call {act : Act ArenaError Session α} (h : Minds id w (act.run w).2) :
    Minds id w ((call act).run w).2 := h

/-- A step that needs the region that it is about. -/
theorem minds_named {r : RegionId} {next : Region → Work β}
    (about : (w.self.named? r).map (fun _ => r) = some id)
    (h : ∀ region, r = id → w.self.region? id = some region →
      Minds id w ((next region).run w).2) :
    Minds id w ((need (w.self.named? r) >>= next).run w).2 := by
  obtain ⟨region, named, rfl⟩ := Option.map_eq_some_iff.mp about
  rw [named]
  exact h region rfl (region?_of_named? named)

/-! ### Regions and pools -/

/-- An operation on a region that spares it. -/
def Sparing (act : Act ε Region α) : Prop :=
  ∀ {w w' : World Region} {answer : Except ε α}, Region.Sound w.self →
    act.run w = (answer, w') → ∃ after made, Region.KeptOrLost w.self after made ∧
      w.Leads w' after made

theorem sparing_checkpoint : Sparing Region.checkpoint := by
  intro w w' answer ok h
  obtain ⟨after, made, way, leads⟩ := Region.checkpoint_checkpoints h
  exact ⟨after, made, way.unharmed.kept way.passage, leads⟩

theorem sparing_slice (size align : Nat) : Sparing (Region.slice size align) := by
  intro w w' answer ok h
  obtain ⟨after, made, way, leads⟩ := Region.slice_slices ok h
  exact ⟨after, made, (way.lost_or_unharmed ok).kept_or_lost (way.passage ok), leads⟩

theorem sparing_rollback (handle : Handle) : Sparing (Region.rollback handle) := by
  intro w w' answer ok h
  obtain ⟨after, made, way, leads⟩ := Region.rollback_rollsBack ok h
  exact ⟨after, made, way.lost_or_unharmed.kept_or_lost (way.passage ok), leads⟩

theorem lasts_onRegion (ok : Orderly none w.self) (found : w.self.region? id = some region)
    {act : Act ε Region α} (sparing : Sparing act) :
    Lasts id w ((onRegion id region act).run w).2 := by
  intro before hbefore
  obtain rfl := Option.some.inj (found.symm.trans hbefore)
  rcases h : act.run { w with self := region } with ⟨answer, w₁⟩
  have okr : Region.Sound ({ w with self := region } : World Region).self :=
    ok.sound id region found
  obtain ⟨after, made, spared, leads⟩ := sparing okr h
  rw [onRegion, Act.run_within, h, leads.self]
  exact ⟨after, made, region?_setRegion_self found after, leads.calls, spared⟩

/-- An operation on a pool that spares its region. -/
def PoolSparing (act : Act ε Tenancy α) : Prop :=
  ∀ {w w' : World Tenancy} {answer : Except ε α}, Region.Sound w.self.region →
    act.run w = (answer, w') → ∃ t made, Region.KeptOrLost w.self.region t.region made ∧
      w.Leads w' t made

theorem poolSparing_allocate (size align : Nat) : PoolSparing (Pool.allocate size align) := by
  intro w w' answer ok h
  obtain ⟨t, made, way, leads⟩ := Pool.allocate_allocates ok h
  exact ⟨t, made, (way.lost_or_unharmed ok).kept_or_lost (way.passage ok), leads⟩

theorem poolSparing_allocateZeroed (size align : Nat) :
    PoolSparing (Pool.allocateZeroed size align) := by
  intro w w' answer ok h
  obtain ⟨t, made, way, leads⟩ := Pool.allocateZeroed_allocates ok h
  exact ⟨t, made, (way.lost_or_unharmed ok).kept_or_lost (way.passage ok), leads⟩

theorem poolSparing_close : PoolSparing Pool.close := by
  intro w w' answer ok h
  obtain ⟨t, made, way, leads⟩ := Pool.close_closes ok h
  exact ⟨t, made, way.lost_or_unharmed.kept_or_lost (way.passage ok), leads⟩

theorem poolSparing_discard : PoolSparing Pool.discard := by
  intro w w' answer ok h
  obtain ⟨close, t, made, way, leads⟩ := Pool.discard_closes ok h
  exact ⟨t, made, way.lost_or_unharmed.kept_or_lost (way.passage ok), leads⟩

theorem lasts_onPool (ok : Orderly none w.self) {pool : Pool}
    (found : w.self.region? id = some region) {act : Act ε Tenancy α} (sparing : PoolSparing act) :
    Lasts id w ((onPool a pool id region act).run w).2 := by
  intro before hbefore
  obtain rfl := Option.some.inj (found.symm.trans hbefore)
  rcases h : act.run { w with self := ⟨pool, region⟩ } with ⟨answer, w₁⟩
  have okr : Region.Sound ({ w with self := ⟨pool, region⟩ } : World Tenancy).self.region :=
    ok.sound id region found
  obtain ⟨t, made, spared, leads⟩ := sparing okr h
  have found' : ((w.self.setRegion id t.region).setStrategy a (.pool t.pool id)).region? id
      = some t.region :=
    (region?_setStrategy _ id).trans (region?_setRegion_self found t.region)
  rw [onPool, Act.run_within, h, leads.self]
  exact ⟨t.region, made, found', leads.calls, spared⟩

theorem minds_allocate (ok : Orderly none w.self) (beneath : w.self.beneath a = some id)
    (size align : Nat) (manner : Manner) : Minds id w ((allocate a size align manner).run w).2 := by
  refine of_need (minds_idle w) fun allocator hfind => ?_
  refine of_ite_need (minds_idle w) ?_
  cases hstrategy : allocator.strategy with
  | heap heap =>
      rw [beneath_of_heap hfind hstrategy] at beneath
      cases beneath
  | pool pool other =>
      obtain rfl := Option.some.inj ((found_of_pool ok hfind hstrategy).1.symm.trans beneath)
      have sparing : PoolSparing (if manner = .zeroed then
          Pool.allocateZeroed size align else Pool.allocate size align) := by
        by_cases hzeroed : manner = .zeroed
        · rw [if_pos hzeroed]
          exact poolSparing_allocateZeroed size align
        · rw [if_neg hzeroed]
          exact poolSparing_allocate size align
      refine of_need (minds_idle w) fun region found => ?_
      refine minds_bind (minds_call fun _ => lasts_onPool ok found sparing) fun span => ?_
      exact .bind frame_rests (rests_addLease _) fun _ => rests_pure _

theorem minds_closeAllocator (ok : Orderly none w.self) (beneath : w.self.beneath a = some id) :
    Minds id w ((closeAllocator a).run w).2 := by
  refine of_need (minds_idle w) fun allocator hfind => ?_
  cases hstrategy : allocator.strategy with
  | heap heap =>
      rw [beneath_of_heap hfind hstrategy] at beneath
      cases beneath
  | pool pool other =>
      obtain rfl := Option.some.inj ((found_of_pool ok hfind hstrategy).1.symm.trans beneath)
      refine of_need (minds_idle w) fun region found => ?_
      exact minds_call fun _ => lasts_onPool ok found poolSparing_close

/-! ### Letting go -/

/-- Where somebody refers to the region that is let go, nothing was done. -/
theorem discardUnheld_of_refers
    (refers : ((discardUnheld id : Act ε Session Unit).run w).2.self.Refers id) :
    ((discardUnheld id : Act ε Session Unit).run w).2 = w := by
  rcases hrun : (discardUnheld id : Act ε Session Unit).run w with ⟨answer, w'⟩
  rw [hrun] at refers
  obtain ⟨-, made, letsGo⟩ := discardUnheld_letsGo hrun
  cases letsGo with
  | kept _ same => exact same
  | ended found unheld discards calls self =>
      rw [self] at refers
      exact absurd (refers_of_without refers) unheld

/-- Someone gives up a reference to a region, and somebody else refers to it. -/
theorem untouched_of_letsGo {change : Session → Session}
    (region : (change w.self).region? id = w.self.region? id)
    (refers : ((do Act.update change; discardUnheld id : Act ε Session Unit).run
      w).2.self.Refers id) :
    Untouched id w ((do Act.update change; discardUnheld id : Act ε Session Unit).run w).2 := by
  have kept : ((do Act.update change; discardUnheld id : Act ε Session Unit).run w).2
      = { w with self := change w.self } := discardUnheld_of_refers refers
  rw [kept]
  exact ⟨rfl, region⟩

theorem untouched_dropRegion
    (refers : ((dropRegion id : Act ε Session Unit).run w).2.self.Refers id) :
    Untouched id w ((dropRegion id : Act ε Session Unit).run w).2 := by
  unfold dropRegion at refers ⊢
  rw [Act.run_self_bind] at refers ⊢
  cases hcell : w.self.regions.find? id with
  | none => exact ⟨rfl, rfl⟩
  | some cell =>
      simp only [hcell] at refers ⊢
      exact untouched_of_letsGo (region?_unname hcell id) refers

theorem untouched_leave {g : Nat} {guard : Guard} (bound : w.self.bound = some id)
    (refers : ((leave g guard : Act ε Session Unit).run w).2.self.Refers id) :
    Untouched id w ((leave g guard : Act ε Session Unit).run w).2 := by
  unfold leave at refers ⊢
  rw [Act.run_self_bind] at refers ⊢
  simp only [bound] at refers ⊢
  exact untouched_of_letsGo rfl refers

theorem untouched_unbind (bound : w.self.bound = some id)
    (refers : ((unbind : Act ε Session Unit).run w).2.self.Refers id) :
    Untouched id w ((unbind : Act ε Session Unit).run w).2 := by
  unfold unbind at refers ⊢
  rw [Act.run_self_bind] at refers ⊢
  simp only [bound] at refers ⊢
  exact untouched_of_letsGo rfl refers

/-- A pool that is dropped rolls its region back, and then it lets go of it. -/
theorem minds_dropAllocator (ok : Orderly none w.self) {allocator : Allocator}
    (hfind : w.self.allocators.find? a = some allocator) (beneath : w.self.beneath a = some id) :
    Minds id w ((dropAllocator a allocator : Act ε Session Unit).run w).2 := by
  cases hstrategy : allocator.strategy with
  | heap heap =>
      rw [beneath_of_heap hfind hstrategy] at beneath
      cases beneath
  | pool pool other =>
      obtain rfl := Option.some.inj ((found_of_pool ok hfind hstrategy).1.symm.trans beneath)
      obtain ⟨-, region, found⟩ := found_of_pool ok hfind hstrategy
      have lasts : Lasts other w ((onPool a pool other region Pool.discard).run w).2 :=
        lasts_onPool ok found poolSparing_discard
      intro refers
      unfold dropAllocator at refers ⊢
      simp only [hstrategy, Act.run_self_bind, found] at refers ⊢
      rcases h : (onPool a pool other region Pool.discard).run w with ⟨e | u, w₁⟩
      · cases e
      · rw [h] at lasts
        simp only [calm, Act.run_bind, Act.run_mapError, h, Except.mapError, Act.run_update]
          at refers ⊢
        rw [discardUnheld_of_refers refers]
        exact lasts.untouched ⟨rfl, rfl⟩

/-! ### Moves -/

theorem minds_present (allocator : Allocator) (w : World Session) :
    Minds id w ((present allocator).run w).2 :=
  Untouched.minds ⟨rfl, rfl⟩

/-- **A step that concerns a region minds it**, unless it is there to close it. -/
theorem perform_minds (ok : Orderly none w.self) {step : Step}
    (about : concerns w.self (.step step) = some id) (other : step ≠ .close id) :
    Minds id w ((perform step).run w).2 := by
  have resting : ∀ {act : Work Value}, Along Rests act → Minds id w (act.run w).2 :=
    fun h => minds_of_rests (h w)
  unfold perform
  rw [Act.run_self_bind]
  cases step with
  | checkpoint r =>
      refine minds_named about ?_
      rintro region rfl found
      refine minds_bind (minds_call fun _ => lasts_onRegion ok found sparing_checkpoint) ?_
      exact fun handle => .bind frame_rests (rests_addHandle _) fun _ => rests_pure _
  | rollback r c =>
      refine minds_named about ?_
      rintro region rfl found
      refine of_need (minds_idle w) fun handle _ => ?_
      refine minds_bind (minds_call fun _ => lasts_onRegion ok found (sparing_rollback handle)) ?_
      exact fun _ => rests_pure _
  | slice r size align =>
      refine minds_named about ?_
      rintro region rfl found
      refine minds_bind (minds_call fun _ => lasts_onRegion ok found (sparing_slice size align)) ?_
      exact fun span => .bind frame_rests (rests_addLease _) fun _ => rests_pure _
  | close r =>
      obtain ⟨-, -, rfl⟩ := Option.map_eq_some_iff.mp about
      exact absurd rfl other
  | dropRegion r =>
      refine minds_named about ?_
      rintro region rfl found
      refine minds_bind (fun refers => (untouched_dropRegion refers).lasts) fun _ => rests_pure _
  | state r => exact resting (rests_pure _)
  | describeRegion r style =>
      exact resting (.bind frame_rests (rests_need _) fun _ => rests_pure _)
  | pool r => exact minds_named about fun region _ _ => minds_present _ w
  | makeOver f r =>
      cases r with
      | none => cases about
      | some r =>
          refine of_need (minds_idle w) fun factory _ => ?_
          refine minds_named about fun region _ _ => ?_
          exact of_made (minds_idle w) fun allocator _ => minds_present allocator w
  | intoEither a =>
      refine of_need (minds_idle w) fun allocator hfind => ?_
      refine minds_of_rests ⟨rfl, quiet_putAllocator ?_⟩
      rw [beneath, hfind]
      rfl
  | allocate a size align manner => exact minds_allocate ok about size align manner
  | closeAllocator a => exact minds_bind (minds_closeAllocator ok about) fun _ => rests_pure _
  | closeAndAsk a =>
      refine minds_bind (minds_closeAllocator ok about) fun _ => ?_
      refine .bind frame_rests rests_self fun s => ?_
      exact .bind frame_rests (rests_need _) fun _ => rests_pure _
  | dropAllocator a =>
      refine of_need (minds_idle w) fun allocator hfind => ?_
      exact minds_bind (minds_dropAllocator ok hfind about) fun _ => rests_pure _
  | info a => exact resting (.bind frame_rests (rests_need _) fun _ => rests_pure _)
  | strategyName a => exact resting (.bind frame_rests (rests_need _) fun _ => rests_pure _)
  | describeAllocator a style =>
      exact resting (.bind frame_rests (rests_need _) fun _ =>
        .bind frame_rests (rests_need _) fun _ => rests_pure _)
  | enter r => exact minds_named about fun region _ _ => Untouched.minds ⟨rfl, rfl⟩
  | exit g =>
      refine of_need (minds_idle w) fun guard hfind => ?_
      obtain ⟨-, -, bound⟩ := Option.bind_eq_some_iff.mp about
      exact minds_bind (fun refers => (untouched_leave bound refers).lasts) fun _ => rests_pure _
  | malformed makes r a => exact resting (rests_of_still (Act.still_fail _))
  -- The others concern no region.
  | _ => cases about

/-- A move that concerns a region minds it, unless it is there to close it. -/
theorem carryOut_minds (ok : Orderly none w.self) {move : Move}
    (about : concerns w.self move = some id) (other : move ≠ .step (.close id)) :
    Minds id w (carryOut w move) := by
  cases move with
  | step step =>
      have performed := perform_minds ok about fun h => other (congrArg Move.step h)
      exact performed.rests (outcome_rests step w)
  | unbind => exact fun refers => (untouched_unbind about refers).lasts

/-- Who lets go of a region that others refer to does not touch it, unless it is a pool. -/
theorem carryOut_untouched {move : Move} (about : concerns w.self move = some id)
    (letsGo : move.letsGo = true) (refers : (carryOut w move).self.Refers id) :
    Untouched id w (carryOut w move) ∨
      ∃ a, move = .step (.dropAllocator a) ∧ w.self.beneath a = some id := by
  cases move with
  | unbind => exact Or.inl (untouched_unbind about refers)
  | step step =>
      cases step with
      | dropAllocator a => exact Or.inr ⟨a, rfl, about⟩
      | dropRegion r =>
          obtain ⟨region, named, rfl⟩ := Option.map_eq_some_iff.mp about
          rw [carryOut_dropRegion named] at refers ⊢
          exact Or.inl (untouched_dropRegion refers)
      | exit g =>
          obtain ⟨guard, hfind, bound⟩ := Option.bind_eq_some_iff.mp about
          rw [carryOut_exit hfind] at refers ⊢
          exact Or.inl (untouched_leave bound refers)
      | _ => cases letsGo

end Session

end PageArena
