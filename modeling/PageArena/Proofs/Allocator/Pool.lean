/-
The ways a pool can go.

A pool has no memory of its own.  Whatever it does to the address space its region does, so
each way of a pool is a way of the region beneath it, or nothing at all: a pool that was
closed does nothing any more, and one that has not allocated has nothing to free.  What is
the pool's own is when it takes its checkpoint and when it gives it back.
-/
import Mathlib
import PageArena.Allocator.Pool
import PageArena.Proofs.Region.Continues
import PageArena.Proofs.Region.Steady

namespace PageArena

open OsCall (Record)

namespace Pool

variable {w w' : World Tenancy}

/-- An act on the region beneath a pool goes as on the region alone, and the pool stands
where it stood. -/
theorem way_of_onRegion {ε α : Type} {act : Act ε Region α} {answer : Except ε α}
    {Way : Except ε α → Region → List Record → Prop}
    (hact : ∀ {answer w₁}, act.run { w with self := w.self.region } = (answer, w₁) →
      ∃ r made, Way answer r made ∧
        World.Leads { w with self := w.self.region } w₁ r made)
    (h : (onRegion act).run w = (answer, w')) :
    ∃ r made, Way answer r made ∧ w.Leads w' { w.self with region := r } made := by
  unfold onRegion at h
  rw [Act.run_within] at h
  rcases hrun : act.run { w with self := w.self.region } with ⟨answer₁, w₁⟩
  rw [hrun] at h
  obtain ⟨rfl, rfl⟩ := Prod.mk.inj h
  obtain ⟨r, made, way, leads⟩ := hact hrun
  refine ⟨r, made, way, ?_, leads.calls, leads.clock⟩
  show ({ w.self with region := w₁.self } : Tenancy) = _
  rw [leads.self]

/-- How an allocation from a pool can go. -/
inductive Allocates (size align : Nat) (t : Tenancy) (clock : Nat) :
    Except ArenaError Span → Tenancy → List Record → Prop
  | closed (h : t.pool = .closed) :
      Allocates size align t clock (.error (.invalidState StateFault.poolClosed)) t []
  | active {handle : Handle} {answer : Except ArenaError Span} {r : Region}
      {made : List Record} (h : t.pool = .active handle)
      (slices : Region.Slices size align t.region clock answer r made) :
      Allocates size align t clock answer { t with region := r } made
  /-- There is no checkpoint, so the pool has not begun. -/
  | unstarted {e : ArenaError} {r : Region} {made : List Record} (h : t.pool = .fresh)
      (checkpoints : Region.Checkpoints t.region clock (.error e) r made) :
      Allocates size align t clock (.error e) { t with region := r } made
  | started {handle : Handle} {r₁ r : Region} {made made' : List Record}
      {answer : Except ArenaError Span} (h : t.pool = .fresh)
      (checkpoints : Region.Checkpoints t.region clock (.ok handle) r₁ made)
      (slices : Region.Slices size align r₁ clock answer r made') :
      Allocates size align t clock answer ⟨.active handle, r⟩ (made ++ made')

theorem allocate_allocates {size align : Nat} {answer : Except ArenaError Span}
    (ok : Region.Sound w.self.region) (h : (allocate size align).run w = (answer, w')) :
    ∃ t made, Allocates size align w.self w.kernel.clock answer t made ∧
      w.Leads w' t made := by
  unfold allocate at h
  rw [Act.run_self_bind] at h
  cases hp : w.self.pool with
  | closed =>
      simp only [hp, Act.run_raise] at h
      obtain ⟨rfl, rfl⟩ := Prod.mk.inj h
      exact ⟨_, _, .closed hp, (World.Leads.refl w).report _⟩
  | active handle =>
      simp only [hp] at h
      obtain ⟨r, made, slices, leads⟩ :=
        way_of_onRegion (fun h => Region.slice_slices (by exact ok) h) h
      exact ⟨_, _, .active hp slices, leads⟩
  | fresh =>
      simp only [hp] at h
      obtain ⟨handle, w₁, hc, h⟩ | ⟨e, hc, rfl⟩ := Act.run_bind_cases h
      · obtain ⟨r₁, made, checkpoints, first⟩ :=
          way_of_onRegion Region.checkpoint_checkpoints hc
        have ok₁ : Region.Sound r₁ := checkpoints.continues.sound ok
        simp only [become, Act.run_bind, Act.run_update] at h
        obtain ⟨r, made', slices, next⟩ := way_of_onRegion
          (fun h => Region.slice_slices (by rw [first.self]; exact ok₁) h) h
        have begun := first.change ⟨.active handle, r₁⟩
        rw [first.self] at slices next
        refine ⟨_, _, .started hp checkpoints ?_, begun.trans next⟩
        exact first.clock ▸ slices
      · obtain ⟨r, made, checkpoints, leads⟩ :=
          way_of_onRegion Region.checkpoint_checkpoints hc
        exact ⟨_, _, .unstarted hp checkpoints, leads⟩

/-- Setting the memory to zero is nothing to the bookkeeping. -/
theorem allocateZeroed_allocates {size align : Nat} {answer : Except ArenaError Span}
    (ok : Region.Sound w.self.region)
    (h : (allocateZeroed size align).run w = (answer, w')) :
    ∃ t made, Allocates size align w.self w.kernel.clock answer t made ∧
      w.Leads w' t made := by
  unfold allocateZeroed at h
  obtain ⟨span, w₁, ha, h⟩ | ⟨e, ha, rfl⟩ := Act.run_bind_cases h
  · obtain ⟨t, made, allocates, leads⟩ := allocate_allocates ok ha
    obtain ⟨rfl, rfl⟩ := Prod.mk.inj h
    exact ⟨t, made, allocates, leads.self, leads.calls, leads.clock⟩
  · exact allocate_allocates ok ha

/-- How closing a pool can go.  It is closed whatever its region answers. -/
inductive Closes (t : Tenancy) (clock : Nat) :
    Except ArenaError Unit → Tenancy → List Record → Prop
  | again (h : t.pool = .closed) :
      Closes t clock (.error (.invalidState StateFault.poolAlreadyClosed)) t []
  | unused (h : t.pool = .fresh) : Closes t clock (.ok ()) { t with pool := .closed } []
  | rolled {handle : Handle} {answer : Except ArenaError Unit} {r : Region}
      {made : List Record} (h : t.pool = .active handle)
      (rolls : Region.RollsBack handle t.region clock answer r made) :
      Closes t clock answer ⟨.closed, r⟩ made

theorem close_closes {answer : Except ArenaError Unit} (ok : Region.Sound w.self.region)
    (h : close.run w = (answer, w')) :
    ∃ t made, Closes w.self w.kernel.clock answer t made ∧ w.Leads w' t made := by
  simp only [close, become, Act.run_bind, Act.run_self, Act.run_update] at h
  cases hp : w.self.pool with
  | closed =>
      simp only [hp, Act.run_raise] at h
      obtain ⟨rfl, rfl⟩ := Prod.mk.inj h
      have same : { w.self with pool := .closed } = w.self := by rw [← hp]
      exact ⟨_, _, .again hp, same, by simp, rfl⟩
  | fresh =>
      simp only [hp, Act.run_pure] at h
      obtain ⟨rfl, rfl⟩ := Prod.mk.inj h
      exact ⟨_, _, .unused hp, (World.Leads.refl w).change _⟩
  | active handle =>
      simp only [hp] at h
      obtain ⟨r, made, rolls, next⟩ :=
        way_of_onRegion (fun h => Region.rollback_rollsBack (by exact ok) h) h
      exact ⟨_, _, .rolled hp rolls, next.self, next.calls, next.clock⟩

/-- A pool that nobody holds any more ends as if it were closed, with nobody to hear the
answer. -/
theorem discard_closes {answer : Except Empty Unit} (ok : Region.Sound w.self.region)
    (h : discard.run w = (answer, w')) :
    ∃ close t made, Closes w.self w.kernel.clock close t made ∧ w.Leads w' t made := by
  unfold discard at h
  rw [Act.run_self_bind] at h
  by_cases hp : w.self.pool = .closed
  · have hclosed : w.self.pool.isClosed = true := by rw [hp]; rfl
    simp only [hclosed, if_true, Act.run_pure] at h
    obtain ⟨rfl, rfl⟩ := Prod.mk.inj h
    exact ⟨_, _, _, .again hp, .refl w⟩
  · have hopen : ¬ w.self.pool.isClosed = true := by
      cases hpool : w.self.pool with
      | closed => exact absurd hpool hp
      | fresh => exact Bool.false_ne_true
      | active handle => exact Bool.false_ne_true
    simp only [if_neg hopen, Act.run_bind, Act.run_attempt] at h
    rcases hc : close.run w with ⟨answer₁, w₁⟩
    obtain ⟨t, made, closes, leads⟩ := close_closes ok hc
    rw [hc] at h
    cases answer₁ with
    | ok u =>
        obtain ⟨rfl, rfl⟩ := Prod.mk.inj h
        exact ⟨_, t, made, closes, leads⟩
    | error e =>
        obtain ⟨rfl, rfl⟩ := Prod.mk.inj h
        exact ⟨_, t, made, closes, leads.report _⟩

/-! ### The region goes on -/

variable {t t' : Tenancy} {clock : Nat} {made : List Record}

theorem Allocates.continues {size align : Nat} {answer : Except ArenaError Span}
    (h : Allocates size align t clock answer t' made) :
    Region.Continues t.region t'.region := by
  cases h with
  | closed h => exact .refl t.region
  | active h slices => exact slices.continues
  | unstarted h checkpoints => exact checkpoints.continues
  | started h checkpoints slices => exact checkpoints.continues.trans slices.continues

theorem Closes.continues {answer : Except ArenaError Unit} (ok : Region.Sound t.region)
    (h : Closes t clock answer t' made) : Region.Continues t.region t'.region := by
  cases h with
  | again h => exact .refl t.region
  | unused h => exact .refl t.region
  | rolled h rolls => exact rolls.continues ok

/-! ### The region stays open -/

/-- An act keeps the region open beneath a pool if it does so alone. -/
theorem onRegion_keepsOpen {ε α : Type} {act : Act ε Region α} (h : Act.KeepsOpen id act) :
    Act.KeepsOpen Tenancy.region (onRegion act) :=
  fun w calm hopen => h { w with self := w.self.region } calm hopen

theorem become_keepsOpen {ε : Type} (pool : Pool) :
    Act.KeepsOpen Tenancy.region (become pool : Act ε Tenancy Unit) :=
  .update fun _ => id

theorem allocate_keepsOpen (size align : Nat) :
    Act.KeepsOpen Tenancy.region (allocate size align) := by
  refine .self_bind fun t => ?_
  have slices := onRegion_keepsOpen (Region.slice_keepsOpen size align)
  cases t.pool with
  | closed => exact .raise _
  | active handle => exact slices
  | fresh =>
      refine .bind (onRegion_keepsOpen Region.checkpoint_keepsOpen) fun handle => ?_
      exact .bind (become_keepsOpen _) fun _ => slices

theorem allocateZeroed_keepsOpen (size align : Nat) :
    Act.KeepsOpen Tenancy.region (allocateZeroed size align) := by
  refine .bind (allocate_keepsOpen size align) fun span => .bind ?_ fun _ => .pure span
  exact fun w calm hopen => ⟨calm, hopen⟩

theorem close_keepsOpen : Act.KeepsOpen Tenancy.region close := by
  refine .self_bind fun t => .bind (become_keepsOpen _) fun _ => ?_
  cases t.pool with
  | closed => exact .raise _
  | fresh => exact .pure ()
  | active handle => exact onRegion_keepsOpen (Region.rollback_keepsOpen handle)

theorem discard_keepsOpen : Act.KeepsOpen Tenancy.region discard := by
  refine .self_bind fun t => ?_
  by_cases hclosed : t.pool.isClosed = true
  · simp only [if_pos hclosed]
    exact .pure ()
  · simp only [if_neg hclosed]
    refine .bind close_keepsOpen.attempt fun answer => ?_
    cases answer with
    | ok u => exact .pure ()
    | error e => exact .emit _

end Pool

end PageArena
