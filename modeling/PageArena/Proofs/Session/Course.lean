/-
What a step of a session can do to its regions.

Of all that a session holds only regions matter here, and who refers to them.  Most steps let
these rest: they make no call, and whatever they take or give up is something else (`Rests`).
The others concern one region each.  They do with it what it does by itself, may end it when
nobody refers to it any more, and leave all others alone.  This is `Course`, and `Goes` is a
course at whose end the session is in order.
-/
import Mathlib
import PageArena.Proofs.Session.Holding
import PageArena.Proofs.Silence

namespace PageArena

open OsCall (Record)
open Act (Along Frame Still Silent frame_still)

namespace Session

variable {s s' s₁ : Session} {w w₁ w' : World Session} {id a : Nat} {region : Region}
variable {about : Option RegionId} {made : List Record} {ε α β : Type}

/-! ### What is said of the world that a step leaves -/

section Left

variable {P : World Session → Prop}

/-- A step that needs something has it, or is refused and has done nothing. -/
theorem of_need {x : Option α} {next : α → Work β} (refused : P w)
    (h : ∀ y, x = some y → P ((next y).run w).2) : P ((need x >>= next).run w).2 := by
  cases x with
  | none => exact refused
  | some y => exact h y rfl

/-- A step that needs something more in one of its forms. -/
theorem of_ite_need {p : Prop} [Decidable p] {x : Option α} {rest : Work β} (refused : P w)
    (h : P (rest.run w).2) : P ((if p then need x >>= fun _ => rest else rest).run w).2 := by
  by_cases hp : p
  · rw [if_pos hp]
    exact of_need refused fun _ _ => h
  · rw [if_neg hp]
    exact h

/-- A step that makes something goes on with it, if it can be made. -/
theorem of_made {x : Option α} {next : α → Work β} (refused : P w)
    (h : ∀ y, x = some y → P ((next y).run w).2) : P ((Session.made x >>= next).run w).2 := by
  cases x with
  | none => exact refused
  | some y => exact h y rfl

/-- An act that is done within a step, and what the step does after it. -/
theorem of_bind {first : Act ε Session α} {next : α → Act ε Session β}
    (hfirst : P (first.run w).2) (hnext : ∀ x w₁, P w₁ → P ((next x).run w₁).2) :
    P ((first >>= next).run w).2 := by
  rw [Act.run_bind]
  rcases hrun : first.run w with ⟨e | x, w₁⟩
  · rw [hrun] at hfirst
    exact hfirst
  · rw [hrun] at hfirst
    exact hnext x w₁ hfirst

end Left

/-! ### Steps that let the regions rest -/

/-- The same regions are found and the same holders of them. -/
structure Quiet (s s' : Session) : Prop where
  regions : ∀ id, s'.regions.find? id = s.regions.find? id
  next : s.regions.next ≤ s'.regions.next
  beneath : ∀ a, s'.beneath a = s.beneath a
  saved : ∀ g, s'.saved g = s.saved g
  bound : s'.bound = s.bound

theorem Quiet.refl (s : Session) : Quiet s s :=
  ⟨fun _ => rfl, Nat.le_refl _, fun _ => rfl, fun _ => rfl, rfl⟩

theorem Quiet.trans (first : Quiet s s₁) (next : Quiet s₁ s') : Quiet s s' where
  regions id := (next.regions id).trans (first.regions id)
  next := Nat.le_trans first.next next.next
  beneath a := (next.beneath a).trans (first.beneath a)
  saved g := (next.saved g).trans (first.saved g)
  bound := next.bound.trans first.bound

theorem Quiet.region? (h : Quiet s s') (id : RegionId) : s'.region? id = s.region? id := by
  unfold Session.region?
  rw [h.regions]

theorem Quiet.alike (h : Quiet s s') : Alike s s' where
  named id := by rw [h.regions]
  beneath := h.beneath
  saved := h.saved
  bound := h.bound

/-- No call was made, and the regions rest. -/
def Rests (w w' : World Session) : Prop :=
  w'.kernel.calls = w.kernel.calls ∧ Quiet w.self w'.self

theorem Rests.refl (w : World Session) : Rests w w := ⟨rfl, .refl w.self⟩

theorem frame_rests : Frame Rests where
  of_still h := ⟨h.1, by rw [h.2]; exact .refl _⟩
  trans h h' := ⟨h'.1.trans h.1, h.2.trans h'.2⟩

/-- Calls may have been made, but not for a region. -/
def Spends (w w' : World Session) : Prop :=
  (∃ made, w'.kernel.calls = w.kernel.calls ++ made) ∧ Quiet w.self w'.self

theorem frame_spends : Frame Spends where
  of_still h := ⟨⟨[], by rw [h.1, List.append_nil]⟩, by rw [h.2]; exact .refl _⟩
  trans := by
    rintro w w₁ w' ⟨⟨made, hmade⟩, h⟩ ⟨⟨made', hmade'⟩, h'⟩
    exact ⟨⟨made ++ made', by rw [hmade', hmade, List.append_assoc]⟩, h.trans h'⟩

theorem Rests.spends (h : Rests w w') : Spends w w' :=
  ⟨⟨[], by rw [h.1, List.append_nil]⟩, h.2⟩

theorem rests_of_still {act : Act ε Session α} (h : Along Still act) : Along Rests act :=
  .of_still frame_rests h

theorem rests_pure (x : α) : Along Rests (pure x : Act ε Session α) :=
  rests_of_still (Act.still_pure x)

theorem still_need (x : Option α) : Along Still (need x) := by
  cases x with
  | some value => exact Act.still_pure value
  | none => exact Act.still_fail _

theorem rests_need (x : Option α) : Along Rests (need x) := rests_of_still (still_need x)

theorem quiet_of_eq (regions : s'.regions = s.regions)
    (allocators : s'.allocators = s.allocators) (guards : s'.guards = s.guards)
    (bound : s'.bound = s.bound) : Quiet s s' := by
  refine ⟨fun _ => by rw [regions], by rw [regions], fun _ => ?_, fun _ => ?_, bound⟩
  · rw [Session.beneath, Session.beneath, allocators]
  · rw [Session.saved, Session.saved, guards]

/-! What is taken of other things is nothing to the regions. -/

theorem rests_addHandle (x : Option Handle) : Along Rests (addHandle x : Act ε Session Nat) :=
  fun _ => ⟨rfl, quiet_of_eq rfl rfl rfl rfl⟩

theorem rests_addFactory (x : Option Factory) :
    Along Rests (addFactory x : Act ε Session Nat) :=
  fun _ => ⟨rfl, quiet_of_eq rfl rfl rfl rfl⟩

theorem rests_addLease (x : Option Lease) : Along Rests (addLease x : Act ε Session Nat) :=
  fun _ => ⟨rfl, quiet_of_eq rfl rfl rfl rfl⟩

theorem rests_addBlock (x : Option Span) : Along Rests (addBlock x : Act ε Session Nat) :=
  fun _ => ⟨rfl, quiet_of_eq rfl rfl rfl rfl⟩

/-- A number that is used up is nothing to the regions. -/
theorem rests_skip (kind : Kind) : Along Rests (skip kind : Act ε Session Nat) := by
  cases kind with
  | region =>
      refine fun w => ⟨rfl, fun id => Slots.find?_push_none _ id, ?_, fun _ => rfl,
        fun _ => rfl, rfl⟩
      exact (Slots.next_push w.self.regions none) ▸ Nat.le_succ _
  | handle => exact rests_addHandle none
  | allocator =>
      refine fun w => ⟨rfl, fun _ => rfl, Nat.le_refl _, fun a => ?_, fun _ => rfl, rfl⟩
      show ((w.self.allocators.push none).find? a).bind _ = _
      rw [Slots.find?_push_none]
      rfl
  | factory => exact rests_addFactory none
  | guard =>
      refine fun w => ⟨rfl, fun _ => rfl, Nat.le_refl _, fun _ => rfl, fun g => ?_, rfl⟩
      show ((w.self.guards.push none).find? g).bind _ = _
      rw [Slots.find?_push_none]
      rfl
  | lease => exact rests_addLease none
  | block => exact rests_addBlock none

/-- An allocator that stays over the same region. -/
theorem quiet_putAllocator {x : Option Allocator}
    (h : x.bind (·.strategy.region?) = s.beneath a) :
    Quiet s { s with allocators := s.allocators.put a x } := by
  refine ⟨fun _ => rfl, Nat.le_refl _, ?_, fun _ => rfl, rfl⟩
  intro b
  unfold Session.beneath
  by_cases hb : a = b
  · subst hb
    by_cases hlt : a < s.allocators.next
    · rw [Slots.find?_put_self _ _ hlt]
      exact h
    · have hnext : (s.allocators.put a x).next ≤ a := by
        rw [Slots.next_put]
        exact Nat.not_lt.mp hlt
      rw [Slots.find?_of_next_le hnext, Slots.find?_of_next_le (Nat.not_lt.mp hlt)]
  · rw [Slots.find?_put_of_ne _ _ hb]

theorem quiet_setStrategy {strategy : Strategy} (h : strategy.region? = s.beneath a) :
    Quiet s (s.setStrategy a strategy) := by
  unfold setStrategy
  split
  · exact quiet_putAllocator h
  · exact .refl s

/-- A batch heap has to do with no region. -/
theorem rests_onHeap {act : Act ε BatchHeap α} (silent : Along Silent act)
    (h : w.self.beneath a = none) (heap : BatchHeap) :
    Rests w ((onHeap a heap act).run w).2 :=
  ⟨silent { w with self := heap }, quiet_setStrategy h.symm⟩

/-! ### Steps that concern a region -/

/-- What a session does with its regions, when one of them is concerned: that one goes as it
goes by itself and may be ended, the others stay as they are, and there may be a new one.
Nothing is called for unless a region is concerned, and not for one that ends unused. -/
structure Course (about : Option RegionId) (s s' : Session) (made : List Record) : Prop where
  next : s.regions.next ≤ s'.regions.next
  others : ∀ id region, about ≠ some id → s.region? id = some region →
    s'.region? id = some region
  fresh : ∀ id region, s.region? id = none → s'.region? id = some region →
    s.regions.next ≤ id ∧ region.phase = .unreserved
  silent : about = none → made = []
  subject : ∀ id, about = some id → ∃ region after, s.region? id = some region ∧
    Region.Passage region after.phase made ∧ after.total = region.total ∧
    (s'.region? id = some after ∨ s'.region? id = none ∧
      (∀ base, after.phase ≠ .reserved base) ∧ (region.phase = .unreserved → made = []))

/-- A session that was in order goes its course and is in order. -/
def Goes (about : Option RegionId) (w w' : World Session) : Prop :=
  ∃ made, w'.kernel.calls = w.kernel.calls ++ made ∧ Course about w.self w'.self made ∧
    Orderly none w'.self

/-- A session whose regions are the same, while nothing was called for. -/
theorem course_of_same (next : s.regions.next ≤ s'.regions.next)
    (regions : ∀ id, s'.region? id = s.region? id)
    (known : ∀ id, about = some id → ∃ region, s.region? id = some region) :
    Course about s s' [] where
  next := next
  others id region _ hregion := (regions id).trans hregion
  fresh id region hnone hregion := by
    rw [regions, hnone] at hregion
    cases hregion
  silent _ := rfl
  subject id habout := by
    obtain ⟨region, hregion⟩ := known id habout
    exact ⟨region, region, hregion, .idle, rfl, Or.inl ((regions id).trans hregion)⟩

/-- A session that lets its regions rest is in order as it was. -/
theorem Orderly.quiet (ok : Orderly none s) (quiet : Quiet s s') : Orderly none s' := by
  refine ok.alike quiet.alike ?_
  intro id region hregion
  rw [quiet.region?] at hregion
  exact ok.sound id region hregion

theorem goes_of_rests (ok : Orderly none w.self)
    (known : ∀ id, about = some id → ∃ region, w.self.region? id = some region)
    (h : Rests w w') : Goes about w w' := by
  refine ⟨[], by rw [h.1, List.append_nil], ?_, ok.quiet h.2⟩
  exact course_of_same h.2.next h.2.region? known

/-- A step that then lets the regions rest. -/
theorem Goes.rests (first : Goes about w w₁) (next : Rests w₁ w') : Goes about w w' := by
  obtain ⟨made, hcalls, course, ok⟩ := first
  obtain ⟨hcalls', quiet⟩ := next
  refine ⟨made, hcalls'.trans hcalls, ?_, ?_⟩
  · refine ⟨Nat.le_trans course.next quiet.next, ?_, ?_, course.silent, ?_⟩
    · intro id region hne hregion
      rw [quiet.region?]
      exact course.others id region hne hregion
    · intro id region hnone hregion
      rw [quiet.region?] at hregion
      exact course.fresh id region hnone hregion
    · intro id habout
      rw [quiet.region?]
      exact course.subject id habout
  · exact ok.quiet quiet

theorem goes_bind {first : Act ε Session α} {next : α → Act ε Session β}
    (hfirst : Goes about w (first.run w).2) (hnext : ∀ x, Along Rests (next x)) :
    Goes about w ((first >>= next).run w).2 :=
  of_bind hfirst fun x w₁ goes => goes.rests (hnext x w₁)

/-- Something is done with a region in its place. -/
theorem goes_of_passage {w₁ : World Region} (ok : Orderly none w.self)
    (found : w.self.region? id = some region) {after : Region}
    (passage : Region.Passage region after.phase made)
    (continues : Region.Continues region after)
    (leads : World.Leads { w with self := region } w₁ after made) :
    Goes (some id) w { w₁ with self := w.self.setRegion id after } := by
  have hself := region?_setRegion_self found after
  refine ⟨made, leads.calls, ?_, ?_⟩
  · refine ⟨?_, ?_, ?_, nofun, ?_⟩
    · show _ ≤ (w.self.setRegion id after).regions.next
      unfold setRegion
      split
      · rw [Slots.next_put]
      · exact Nat.le_refl _
    · intro other region' hne hregion
      have hne : id ≠ other := fun h => hne (congrArg some h)
      rw [region?_setRegion_of_ne hne]
      exact hregion
    · intro other region' hnone hregion
      have hne : id ≠ other := by
        rintro rfl
        rw [found] at hnone
        cases hnone
      rw [region?_setRegion_of_ne hne, hnone] at hregion
      cases hregion
    · intro other hother
      obtain rfl := Option.some.inj hother
      exact ⟨region, after, found, passage, continues.total, Or.inl hself⟩
  · refine ok.alike (alike_setRegion w.self id after) ?_
    intro other region' hregion
    by_cases hne : id = other
    · subst hne
      rw [hself] at hregion
      obtain rfl := Option.some.inj hregion
      exact continues.sound (ok.sound id region found)
    · rw [region?_setRegion_of_ne hne] at hregion
      exact ok.sound other region' hregion

/-- Someone has let go of the region that is concerned. -/
theorem Goes.letsGo {w₂ : World Session} (first : Goes (some id) w w₁)
    (calls : w₂.kernel.calls = w₁.kernel.calls)
    (next : w₂.self.regions.next = w₁.self.regions.next)
    (regions : ∀ id, w₂.self.region? id = w₁.self.region? id)
    (unbegun : ∀ region, w.self.region? id = some region → region.phase = .unreserved →
      w₁.kernel.calls = w.kernel.calls)
    (ok : Orderly (some id) w₂.self) (h : LetsGo w₂ w' id made) : Goes (some id) w w' := by
  obtain ⟨made₁, hcalls, course, ok₁⟩ := first
  have horderly := h.orderly ok
  cases h with
  | kept h same =>
      subst same
      refine ⟨made₁, calls.trans hcalls, ?_, horderly⟩
      refine ⟨next ▸ course.next, ?_, ?_, nofun, ?_⟩
      · intro other region hne hregion
        rw [regions]
        exact course.others other region hne hregion
      · intro other region hnone hregion
        rw [regions] at hregion
        exact course.fresh other region hnone hregion
      · intro other hother
        rw [regions]
        exact course.subject other hother
  | @ended region after made₂ found unheld discards calls₂ self =>
      have hself : w'.self.region? id = none := by
        rw [self]
        exact region?_without_self _ _
      have hothers : ∀ other, id ≠ other → w'.self.region? other = w₁.self.region? other := by
        intro other hne
        rw [self, region?_without_of_ne hne, regions]
      refine ⟨made₁ ++ made, ?_, ?_, horderly⟩
      · rw [calls₂, calls, hcalls, List.append_assoc]
      · refine ⟨?_, ?_, ?_, nofun, ?_⟩
        · rw [self]
          show _ ≤ (w₂.self.regions.put id none).next
          rw [Slots.next_put, next]
          exact course.next
        · intro other region' hne hregion
          rw [hothers other fun h => hne (congrArg some h)]
          exact course.others other region' hne hregion
        · intro other region' hnone hregion
          have hne : id ≠ other := by
            rintro rfl
            rw [hself] at hregion
            cases hregion
          rw [hothers other hne] at hregion
          exact course.fresh other region' hnone hregion
        · intro other hother
          obtain rfl := Option.some.inj hother
          obtain ⟨before, middle, hbefore, passage, total, hmiddle⟩ := course.subject id rfl
          rw [regions] at found
          have hsame : middle = region := by
            rcases hmiddle with hmiddle | ⟨hnone, -⟩
            · exact Option.some.inj (hmiddle.symm.trans found)
            · rw [hnone] at found
              cases found
          subst hsame
          have hafter : after.total = middle.total := by
            cases discards with
            | unheld h => rfl
            | released held => rfl
          refine ⟨before, after, hbefore, passage.discard total discards,
            hafter.trans total, Or.inr ⟨hself, discards.phase_ne, ?_⟩⟩
          intro hunused
          have hmade₁ : made₁ = [] := by
            rw [unbegun before hbefore hunused] at hcalls
            exact List.self_eq_append_right.mp hcalls
          subst hmade₁
          exact passage.unbegun hunused discards

/-- The regions are the same, and other holders refer to them. -/
theorem Orderly.of_refers {lapsed : Option RegionId} (ok : Orderly none s)
    (regions : ∀ id, s'.region? id = s.region? id)
    (kept : ∀ id, s'.Refers id → ∃ region, s.region? id = some region)
    (ended : ∀ id, s.Refers id → s'.Refers id ∨ lapsed = some id) : Orderly lapsed s' where
  kept id hrefers := by
    rw [regions]
    exact kept id hrefers
  ended id region hregion := by
    rw [regions] at hregion
    rcases ok.ended id region hregion with hrefers | hnone
    · exact ended id hrefers
    · cases hnone
  sound id region hregion := by
    rw [regions] at hregion
    exact ok.sound id region hregion

end Session

end PageArena
