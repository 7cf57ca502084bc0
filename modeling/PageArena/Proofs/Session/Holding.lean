/-
Who refers to a region.

A region may be referred to by the thread that made it, by pools, by guards that have to
bring it back, and by the binding of the thread.  `Refers` lists these.  A session looks at
the same places when it asks whether a region is still held (`holds_iff_refers`).

`Orderly` is what holds between any two steps: regions that are referred to exist, and regions
that exist are referred to.  While a step lets go of a region there may be one that is
referred to no longer; `discardUnheld` ends it, and nothing else ever ends a region.
-/
import Mathlib
import PageArena.Proofs.Region.Release
import PageArena.Session.Run

namespace PageArena

open OsCall (Record)

namespace Slots

variable {α : Type} {s : Slots α} {i j : Nat} {x y : α}

/-- Only places that were taken have something at them. -/
theorem lt_next_of_find? (h : s.find? i = some x) : i < s.next := by
  unfold find? at h
  by_contra hle
  rw [List.getElem?_eq_none (Nat.not_lt.mp hle)] at h
  cases h

theorem find?_of_next_le (h : s.next ≤ i) : s.find? i = none := by
  cases hx : s.find? i with
  | none => rfl
  | some x => exact absurd (lt_next_of_find? hx) (Nat.not_lt.mpr h)

theorem find?_put_of_some (h : s.find? i = some x) (y : Option α) :
    (s.put i y).find? i = y :=
  find?_put_self s y (lt_next_of_find? h)

theorem find?_put_none (s : Slots α) (i : Nat) : (s.put i none).find? i = none := by
  by_cases h : i < s.next
  · exact find?_put_self s none h
  · refine find?_of_next_le ?_
    simpa [put, next] using h

theorem next_put (s : Slots α) (i : Nat) (y : Option α) : (s.put i y).next = s.next := by
  simp [put, next]

theorem next_push (s : Slots α) (y : Option α) : (s.push y).next = s.next + 1 := by
  simp [push, next]

theorem put_put (s : Slots α) (i : Nat) (y z : Option α) : (s.put i y).put i z = s.put i z := by
  simp [put, List.set_set]

/-- An empty place that is taken changes nothing that can be found. -/
theorem find?_push_none (s : Slots α) (i : Nat) : (s.push none).find? i = s.find? i := by
  by_cases h : i = s.next
  · rw [h, find?_push_next, find?_of_next_le (Nat.le_refl _)]
  · exact find?_push_of_ne s none h

/-- Nothing comes to an empty place but what is put there. -/
theorem find?_put_eq_none {y : Option α} (h : s.find? j = none) (hy : i = j → y = none) :
    (s.put i y).find? j = none := by
  by_cases heq : i = j
  · subst heq
    rw [hy rfl, find?_put_none]
  · rw [find?_put_of_ne _ _ heq]
    exact h

/-- What is held is what can be found. -/
theorem mem_held : x ∈ s.held ↔ ∃ i, s.find? i = some x := by
  unfold held find?
  rw [List.mem_filterMap]
  constructor
  · rintro ⟨cell, hcell, rfl⟩
    obtain ⟨i, hi, hget⟩ := List.getElem_of_mem hcell
    refine ⟨i, ?_⟩
    rw [List.getElem?_eq_getElem hi, hget]
    rfl
  · rintro ⟨i, hi⟩
    exact ⟨some x, List.mem_of_getElem? (Option.join_eq_some_iff.mp hi), rfl⟩

end Slots

namespace Session

variable {s s' : Session} {id a : Nat} {region r : Region} {lapsed : Option RegionId}

/-- The region beneath the allocator of a number. -/
def beneath (s : Session) (a : Nat) : Option RegionId :=
  (s.allocators.find? a).bind (·.strategy.region?)

/-- The region that the guard of a number has to bring back. -/
def saved (s : Session) (g : Nat) : Option RegionId :=
  (s.guards.find? g).bind Guard.previous

/-- Somebody refers to a region. -/
inductive Refers (s : Session) (id : RegionId) : Prop
  /-- The thread itself. -/
  | name (h : (s.named? id).isSome = true)
  | pool {a : Nat} (h : s.beneath a = some id)
  | guard {g : Nat} (h : s.saved g = some id)
  | binding (h : s.bound = some id)

/-- Who refers to a region still does if every kind of holder does. -/
theorem Refers.mono (h : s.Refers id)
    (name : (s.named? id).isSome = true → (s'.named? id).isSome = true)
    (pool : ∀ a, s.beneath a = some id → s'.beneath a = some id)
    (guard : ∀ g, s.saved g = some id → s'.saved g = some id)
    (binding : s.bound = some id → s'.bound = some id) : s'.Refers id := by
  cases h with
  | name h => exact .name (name h)
  | pool h => exact .pool (pool _ h)
  | guard h => exact .guard (guard _ h)
  | binding h => exact .binding (binding h)

theorem named?_isSome_iff :
    (s.named? id).isSome = true ↔ (s.regions.find? id).map RegionCell.named = some true := by
  unfold named?
  rcases s.regions.find? id with _ | ⟨region, _ | _⟩
  · simp
  · simp
  · simp

theorem region?_of_named? (h : s.named? id = some region) : s.region? id = some region := by
  unfold named? at h
  unfold region?
  rcases hcell : s.regions.find? id with _ | ⟨r, _ | _⟩
  · rw [hcell] at h
    cases h
  · rw [hcell] at h
    cases h
  · rw [hcell] at h
    exact h

/-- **A session asks exactly those who can refer to a region.** -/
theorem holds_iff_refers (s : Session) (id : RegionId) : s.holds id = true ↔ s.Refers id := by
  have hname : ((s.regions.find? id).map RegionCell.named).getD false = true ↔
      (s.named? id).isSome = true := by
    rw [named?_isSome_iff]
    rcases s.regions.find? id with _ | cell
    · simp
    · simp
  have hpool : s.allocators.held.any (·.strategy.region? == some id) = true ↔
      ∃ a, s.beneath a = some id := by
    rw [List.any_eq_true]
    constructor
    · rintro ⟨allocator, hheld, hregion⟩
      obtain ⟨a, ha⟩ := Slots.mem_held.mp hheld
      exact ⟨a, by rw [beneath, ha]; exact beq_iff_eq.mp hregion⟩
    · rintro ⟨a, ha⟩
      obtain ⟨allocator, hfind, hregion⟩ := Option.bind_eq_some_iff.mp ha
      exact ⟨allocator, Slots.mem_held.mpr ⟨a, hfind⟩, beq_iff_eq.mpr hregion⟩
  have hguard : s.guards.held.any (·.previous == some id) = true ↔
      ∃ g, s.saved g = some id := by
    rw [List.any_eq_true]
    constructor
    · rintro ⟨guard, hheld, hprevious⟩
      obtain ⟨g, hg⟩ := Slots.mem_held.mp hheld
      exact ⟨g, by rw [saved, hg]; exact beq_iff_eq.mp hprevious⟩
    · rintro ⟨g, hg⟩
      obtain ⟨guard, hfind, hprevious⟩ := Option.bind_eq_some_iff.mp hg
      exact ⟨guard, Slots.mem_held.mpr ⟨g, hfind⟩, beq_iff_eq.mpr hprevious⟩
  unfold holds
  rw [Bool.or_eq_true, Bool.or_eq_true, Bool.or_eq_true, hname, hpool, hguard, beq_iff_eq]
  constructor
  · rintro (((h | ⟨a, h⟩) | ⟨g, h⟩) | h)
    · exact .name h
    · exact .pool h
    · exact .guard h
    · exact .binding h
  · intro h
    cases h with
    | name h => exact Or.inl (Or.inl (Or.inl h))
    | pool h => exact Or.inl (Or.inl (Or.inr ⟨_, h⟩))
    | guard h => exact Or.inl (Or.inr ⟨_, h⟩)
    | binding h => exact Or.inr h

/-! ### Order -/

/-- Exactly the regions exist that are referred to, except that one may have lapsed: it
exists, and who referred to it has just let go. -/
structure Orderly (lapsed : Option RegionId) (s : Session) : Prop where
  kept : ∀ id, s.Refers id → ∃ region, s.region? id = some region
  ended : ∀ id region, s.region? id = some region → s.Refers id ∨ lapsed = some id
  sound : ∀ id region, s.region? id = some region → Region.Sound region

/-- The same regions exist in two sessions and are referred to by the same holders. -/
structure Alike (s s' : Session) : Prop where
  named : ∀ id, (s'.regions.find? id).map RegionCell.named
    = (s.regions.find? id).map RegionCell.named
  beneath : ∀ a, s'.beneath a = s.beneath a
  saved : ∀ g, s'.saved g = s.saved g
  bound : s'.bound = s.bound

theorem Alike.trans {s₁ : Session} (first : Alike s s₁) (next : Alike s₁ s') : Alike s s' where
  named id := (next.named id).trans (first.named id)
  beneath a := (next.beneath a).trans (first.beneath a)
  saved g := (next.saved g).trans (first.saved g)
  bound := next.bound.trans first.bound

theorem Alike.symm (h : Alike s s') : Alike s' s where
  named id := (h.named id).symm
  beneath a := (h.beneath a).symm
  saved g := (h.saved g).symm
  bound := h.bound.symm

theorem Alike.refers_iff (h : Alike s s') (id : RegionId) : s'.Refers id ↔ s.Refers id := by
  have refers : ∀ {s s' : Session}, Alike s s' → s.Refers id → s'.Refers id := by
    intro s s' h hrefers
    refine hrefers.mono ?_ (fun a ha => ?_) (fun g hg => ?_) fun hb => h.bound.trans hb
    · rw [named?_isSome_iff, named?_isSome_iff, h.named]
      exact fun hname => hname
    · exact (h.beneath a).trans ha
    · exact (h.saved g).trans hg
  exact ⟨refers h.symm, refers h⟩

theorem region?_eq_some_iff :
    (∃ region, s.region? id = some region) ↔
      ((s.regions.find? id).map RegionCell.named).isSome = true := by
  unfold region?
  rcases s.regions.find? id with _ | cell
  · simp
  · simp

theorem Alike.region?_iff (h : Alike s s') (id : RegionId) :
    (∃ region, s'.region? id = some region) ↔ ∃ region, s.region? id = some region := by
  rw [region?_eq_some_iff, region?_eq_some_iff, h.named]

/-- Order does not depend on more than who refers to what, as long as the regions stay
sound. -/
theorem Orderly.alike (h : Orderly lapsed s) (same : Alike s s')
    (sound : ∀ id region, s'.region? id = some region → Region.Sound region) :
    Orderly lapsed s' where
  kept id hrefers := (same.region?_iff id).mpr (h.kept id ((same.refers_iff id).mp hrefers))
  ended id region hregion := by
    obtain ⟨old, hold⟩ := (same.region?_iff id).mp ⟨region, hregion⟩
    rcases h.ended id old hold with hrefers | hlapsed
    · exact Or.inl ((same.refers_iff id).mpr hrefers)
    · exact Or.inr hlapsed
  sound := sound

/-! ### The end of a region -/

theorem region?_setRegion_self (h : s.region? id = some region) (r : Region) :
    (s.setRegion id r).region? id = some r := by
  obtain ⟨cell, hcell, rfl⟩ := Option.map_eq_some_iff.mp h
  unfold setRegion
  simp only [hcell]
  unfold region?
  rw [Slots.find?_put_of_some hcell]
  rfl

theorem region?_setRegion_of_ne {other : RegionId} (h : id ≠ other) (r : Region) :
    (s.setRegion id r).region? other = s.region? other := by
  unfold setRegion
  split
  · unfold region?
    rw [Slots.find?_put_of_ne _ _ h]
  · rfl

theorem region?_setStrategy (strategy : Strategy) (other : RegionId) :
    (s.setStrategy a strategy).region? other = s.region? other := by
  unfold setStrategy
  split
  · rfl
  · rfl

theorem alike_setRegion (s : Session) (id : RegionId) (r : Region) :
    Alike s (s.setRegion id r) := by
  unfold setRegion
  split
  · rename_i cell hcell
    refine ⟨?_, fun _ => rfl, fun _ => rfl, rfl⟩
    intro other
    by_cases h : id = other
    · subst h
      rw [Slots.find?_put_of_some hcell, hcell]
      rfl
    · rw [Slots.find?_put_of_ne _ _ h]
  · exact ⟨fun _ => rfl, fun _ => rfl, fun _ => rfl, rfl⟩

/-- A session without a region. -/
def without (s : Session) (id : RegionId) : Session :=
  { s with regions := s.regions.put id none }

theorem without_setRegion (s : Session) (id : RegionId) (r : Region) :
    (s.setRegion id r).without id = s.without id := by
  unfold setRegion without
  split
  · rw [Slots.put_put]
  · rfl

theorem region?_without_self (s : Session) (id : RegionId) :
    (s.without id).region? id = none := by
  unfold region? without
  rw [Slots.find?_put_none]
  rfl

theorem region?_without_of_ne {other : RegionId} (h : id ≠ other) :
    (s.without id).region? other = s.region? other := by
  unfold region? without
  rw [Slots.find?_put_of_ne _ _ h]

theorem named?_without_self (s : Session) (id : RegionId) : (s.without id).named? id = none := by
  unfold named? without
  rw [Slots.find?_put_none]

theorem named?_without_of_ne {other : RegionId} (h : id ≠ other) :
    (s.without id).named? other = s.named? other := by
  unfold named? without
  rw [Slots.find?_put_of_ne _ _ h]

theorem refers_of_without {other : RegionId} (h : (s.without id).Refers other) :
    s.Refers other := by
  refine h.mono ?_ (fun _ h => h) (fun _ h => h) fun h => h
  by_cases heq : id = other
  · subst heq
    rw [named?_without_self]
    exact nofun
  · rw [named?_without_of_ne heq]
    exact fun h => h

theorem refers_without_of_ne {other : RegionId} (h : id ≠ other) (hrefers : s.Refers other) :
    (s.without id).Refers other := by
  refine hrefers.mono ?_ (fun _ h => h) (fun _ h => h) fun h => h
  rw [named?_without_of_ne h]
  exact fun h => h

/-- A region that nobody refers to may go. -/
theorem Orderly.without (h : Orderly (some id) s) (unheld : ¬ s.Refers id) :
    Orderly none (s.without id) where
  kept other hrefers := by
    have hold := refers_of_without hrefers
    have hne : id ≠ other := by
      rintro rfl
      exact unheld hold
    rw [region?_without_of_ne hne]
    exact h.kept other hold
  ended other region hregion := by
    have hne : id ≠ other := by
      rintro rfl
      rw [region?_without_self] at hregion
      cases hregion
    rw [region?_without_of_ne hne] at hregion
    rcases h.ended other region hregion with hrefers | hlapsed
    · exact Or.inl (refers_without_of_ne hne hrefers)
    · exact absurd (Option.some.inj hlapsed) hne
  sound other region hregion := by
    have hne : id ≠ other := by
      rintro rfl
      rw [region?_without_self] at hregion
      cases hregion
    rw [region?_without_of_ne hne] at hregion
    exact h.sound other region hregion

/-- How letting go of a region can end. -/
inductive LetsGo (w w' : World Session) (id : RegionId) : List Record → Prop
  /-- Somebody still refers to it, or it is gone already. -/
  | kept (h : w.self.Refers id ∨ w.self.region? id = none) (same : w' = w) :
      LetsGo w w' id []
  | ended {region after : Region} {made : List Record}
      (found : w.self.region? id = some region) (unheld : ¬ w.self.Refers id)
      (discards : Region.Discards region after made)
      (calls : w'.kernel.calls = w.kernel.calls ++ made)
      (self : w'.self = w.self.without id) : LetsGo w w' id made

variable {ε : Type} {w w' : World Session}

/-- **A region is discarded only if nobody refers to it.** -/
theorem discardUnheld_letsGo {answer : Except ε Unit}
    (h : (discardUnheld id).run w = (answer, w')) :
    answer = .ok () ∧ ∃ made, LetsGo w w' id made := by
  unfold discardUnheld at h
  rw [Act.run_self_bind] at h
  rcases hfind : w.self.region? id with _ | region
  · simp only [hfind, Act.run_pure] at h
    obtain ⟨rfl, rfl⟩ := Prod.mk.inj h
    exact ⟨rfl, [], .kept (Or.inr hfind) rfl⟩
  · simp only [hfind] at h
    by_cases hholds : w.self.holds id = true
    · simp only [hholds, if_true, Act.run_pure] at h
      obtain ⟨rfl, rfl⟩ := Prod.mk.inj h
      exact ⟨rfl, [], .kept (Or.inl ((holds_iff_refers _ _).mp hholds)) rfl⟩
    · have hunheld : ¬ w.self.Refers id := fun hr => hholds ((holds_iff_refers _ _).mpr hr)
      simp only [hholds, Bool.false_eq_true, if_false] at h
      rcases hdiscard : Region.discard.run { w with self := region } with ⟨e | u, w₁⟩
      · cases e
      · obtain ⟨after, made, discards, leads⟩ := Region.discard_discards hdiscard
        simp only [calm, onRegion, Act.run_bind, Act.run_mapError, Act.run_within, hdiscard,
          Except.mapError, Act.run_update] at h
        obtain ⟨rfl, rfl⟩ := Prod.mk.inj h
        refine ⟨rfl, made, .ended hfind hunheld discards leads.calls ?_⟩
        exact without_setRegion w.self id w₁.self

theorem LetsGo.orderly {made : List Record} (h : LetsGo w w' id made)
    (ok : Orderly (some id) w.self) : Orderly none w'.self := by
  cases h with
  | kept h same =>
      subst same
      refine ⟨ok.kept, ?_, ok.sound⟩
      intro other region hregion
      rcases ok.ended other region hregion with hrefers | hlapsed
      · exact Or.inl hrefers
      · obtain rfl := Option.some.inj hlapsed
        rcases h with hrefers | hnone
        · exact Or.inl hrefers
        · rw [hnone] at hregion
          cases hregion
  | ended found unheld discards calls self =>
      rw [self]
      exact ok.without unheld

end Session

end PageArena
