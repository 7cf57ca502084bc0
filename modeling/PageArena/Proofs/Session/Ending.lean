/-
Runs and their ends, as turns.

A session that is run step by step goes through turns whose machine is the one that the step
before left, with the records cleared.  At the end everything is dropped that is still held,
and this is a sequence of turns as well: allocators are dropped, guards left and regions given
up one after another, and the thread's binding ends last.  `finish_lets_go` says this, and
that nobody refers to any region afterwards.
-/
import Mathlib
import PageArena.Proofs.Session.Turn

namespace PageArena

open OsCall (Record)

namespace Session

variable {s s' : Session} {w w₁ w' : World Session} {id a g : Nat} {ts rest : List Turn}
variable {ε α β : Type}

/-! ### Turns that follow each other -/

/-- All calls of some turns. -/
def spent (s : Session) : List Turn → List Record
  | [] => []
  | t :: ts => s.calls t ++ (s.after t).spent ts

theorem play_append (s : Session) (ts rest : List Turn) :
    s.play (ts ++ rest) = (s.play ts).play rest :=
  List.foldl_append

theorem spent_append (s : Session) (ts rest : List Turn) :
    s.spent (ts ++ rest) = s.spent ts ++ (s.play ts).spent rest := by
  induction ts generalizing s with
  | nil => rfl
  | cons t ts ih =>
      show s.calls t ++ (s.after t).spent (ts ++ rest) = _
      rw [ih, ← List.append_assoc]
      rfl

/-- Turns that lead from a world to another. -/
structure Plays (ts : List Turn) (w w' : World Session) : Prop where
  self : w'.self = w.self.play ts
  calls : w'.kernel.calls = w.kernel.calls ++ w.self.spent ts

theorem Plays.nil (w : World Session) : Plays [] w w :=
  ⟨rfl, (List.append_nil _).symm⟩

theorem Plays.append (first : Plays ts w w₁) (next : Plays rest w₁ w') :
    Plays (ts ++ rest) w w' where
  self := by rw [play_append, ← first.self, next.self]
  calls := by rw [spent_append, ← first.self, next.calls, first.calls, List.append_assoc]

/-- A move is a turn with the machine that it meets. -/
theorem plays_carryOut (ok : Orderly none w.self) (move : Move) :
    Plays [⟨w.toMachine, move⟩] w (carryOut w move) := by
  obtain ⟨made, hmade⟩ : ∃ made, (carryOut w move).kernel.calls = w.kernel.calls ++ made := by
    cases h : move.onBlock with
    | true => exact (carryOut_spends w h).1
    | false =>
        obtain ⟨made, hmade, -⟩ := carryOut_goes ok h
        exact ⟨made, hmade⟩
  have hcalls : w.self.calls ⟨w.toMachine, move⟩ = made := by
    show (carryOut w move).kernel.calls.drop w.kernel.calls.length = made
    rw [hmade, List.drop_left]
  refine ⟨rfl, ?_⟩
  show _ = w.kernel.calls ++ (w.self.calls ⟨w.toMachine, move⟩ ++ [])
  rw [hcalls, List.append_nil, hmade]

/-- **A run is a sequence of turns**, and its answers name the calls of each. -/
theorem run_plays (steps : List Step) (w : World Session) :
    ∃ ts : List Turn, ts.map Turn.move = steps.map .step ∧
      (run steps w).2.self = w.self.play ts ∧
      ((run steps w).1.map Answer.calls).flatten = w.self.spent ts := by
  induction steps generalizing w with
  | nil => exact ⟨[], rfl, rfl, rfl⟩
  | cons step steps ih =>
      obtain ⟨ts, hmoves, hself, hcalls⟩ := ih (answer step w).2
      refine ⟨⟨(clear w).toMachine, .step step⟩ :: ts, ?_, hself, ?_⟩
      · rw [List.map_cons, List.map_cons, hmoves]
      · exact congrArg ((answer step w).1.calls ++ ·) hcalls

/-! ### Acts that cannot fail -/

/-- What cannot fail is done, and the rest goes on from there. -/
theorem run_then (first : Act Empty Session Unit) (next : Unit → Act Empty Session β)
    (w : World Session) : (first >>= next).run w = (next ()).run (first.run w).2 := by
  rw [Act.run_bind]
  rcases first.run w with ⟨e | u, w₁⟩
  · cases e
  · rfl

theorem calm_bind (first : Act Empty Session α) (next : α → Act Empty Session β) :
    (calm (first >>= next) : Act ε Session β) = calm first >>= fun x => calm (next x) := by
  refine congrArg Act.mk (funext fun w => ?_)
  show (((first >>= next).run w).1.mapError _, _) = Act.run (calm first >>= _) w
  rw [Act.run_bind, Act.run_bind, calm, Act.run_mapError]
  rcases first.run w with ⟨e | x, w₁⟩
  · cases e
  · rfl

theorem calm_calm (act : Act Empty Session α) :
    (calm (calm act) : Act ε Session α) = calm act := by
  refine congrArg Act.mk (funext fun w => ?_)
  simp only [calm, Act.run_mapError]
  rcases act.run w with ⟨e | x, w₁⟩
  · cases e
  · rfl

theorem discardUnheld_calm (id : RegionId) :
    (discardUnheld id : Act ε Session Unit) = calm (discardUnheld id) := by
  unfold discardUnheld
  rw [calm_bind]
  refine congrArg (Act.self >>= ·) (funext fun s => ?_)
  cases s.region? id with
  | none => rfl
  | some region =>
      by_cases h : s.holds id = true
      · simp only [if_pos h]
        rfl
      · simp only [if_neg h, calm_bind, calm_calm]
        rfl

theorem dropAllocator_calm (a : Nat) (allocator : Allocator) :
    (dropAllocator a allocator : Act ε Session Unit) = calm (dropAllocator a allocator) := by
  unfold dropAllocator
  cases allocator.strategy with
  | heap heap =>
      simp only [calm_bind, calm_calm]
      rfl
  | pool pool id =>
      rw [calm_bind]
      refine congrArg (Act.self >>= ·) (funext fun s => ?_)
      cases s.region? id with
      | none =>
          simp only [calm_bind, discardUnheld_calm (ε := ε)]
          rfl
      | some region =>
          simp only [calm_bind, calm_calm, discardUnheld_calm (ε := ε)]
          rfl

theorem leave_calm (g : Nat) (guard : Guard) :
    (leave g guard : Act ε Session Unit) = calm (leave g guard) := by
  unfold leave
  simp only [calm_bind]
  refine congrArg (Act.self >>= ·) (funext fun s => ?_)
  cases s.bound with
  | none => rfl
  | some id =>
      simp only [← discardUnheld_calm]
      rfl

theorem dropRegion_calm (id : RegionId) :
    (dropRegion id : Act ε Session Unit) = calm (dropRegion id) := by
  unfold dropRegion
  simp only [calm_bind]
  refine congrArg (Act.self >>= ·) (funext fun s => ?_)
  cases s.regions.find? id with
  | none => rfl
  | some cell =>
      simp only [calm_bind, ← discardUnheld_calm]
      rfl

/-! ### Dropping what is held -/

/-- Steps that give up something that is held, and do nothing else. -/
def Step.letsGo : Step → Bool
  | .dropAllocator _ | .exit _ | .dropRegion _ => true
  | _ => false

/-- Moves that give up something that is held, and do nothing else. -/
def Move.letsGo : Move → Bool
  | .step x => x.letsGo
  | .unbind => true

/-- Places that are empty stay empty, and what has no name gets none. -/
structure Loses (s s' : Session) : Prop where
  allocators : ∀ a, s.allocators.find? a = none → s'.allocators.find? a = none
  guards : ∀ g, s.guards.find? g = none → s'.guards.find? g = none
  names : ∀ id, s.named? id = none → s'.named? id = none

theorem Loses.refl (s : Session) : Loses s s := ⟨fun _ h => h, fun _ h => h, fun _ h => h⟩

theorem Loses.trans {s₁ : Session} (first : Loses s s₁) (next : Loses s₁ s') : Loses s s' where
  allocators a h := next.allocators a (first.allocators a h)
  guards g h := next.guards g (first.guards g h)
  names id h := next.names id (first.names id h)

theorem named?_eq_none_iff : s.named? id = none ↔
    (s.regions.find? id).map RegionCell.named ≠ some true := by
  rw [ne_eq, ← named?_isSome_iff, Bool.not_eq_true, Option.isSome_eq_false_iff,
    Option.isNone_iff_eq_none]

theorem loses_setRegion (s : Session) (id : RegionId) (region : Region) :
    Loses s (s.setRegion id region) := by
  refine ⟨?_, ?_, ?_⟩
  · intro a h
    unfold setRegion
    split
    · exact h
    · exact h
  · intro g h
    unfold setRegion
    split
    · exact h
    · exact h
  · intro other h
    rw [named?_eq_none_iff, (alike_setRegion s id region).named, ← named?_eq_none_iff]
    exact h

theorem loses_setStrategy (s : Session) (a : Nat) (strategy : Strategy) :
    Loses s (s.setStrategy a strategy) := by
  unfold setStrategy
  split
  · rename_i old hold
    refine ⟨fun b h => ?_, fun _ h => h, fun _ h => h⟩
    refine Slots.find?_put_eq_none h ?_
    rintro rfl
    rw [hold] at h
    cases h
  · exact .refl s

theorem loses_putAllocator (s : Session) (a : Nat) :
    Loses s { s with allocators := s.allocators.put a none } :=
  ⟨fun _ h => Slots.find?_put_eq_none h fun _ => rfl, fun _ h => h, fun _ h => h⟩

theorem loses_putRegion (s : Session) {id : RegionId} {x : Option RegionCell}
    (h : x.map RegionCell.named ≠ some true) :
    Loses s { s with regions := s.regions.put id x } := by
  refine ⟨fun _ h => h, fun _ h => h, fun other hother => ?_⟩
  rw [named?_eq_none_iff] at hother ⊢
  by_cases heq : id = other
  · subst heq
    by_cases hlt : id < s.regions.next
    · rw [Slots.find?_put_self _ _ hlt]
      exact h
    · rw [Slots.find?_of_next_le ((Slots.next_put _ _ _).symm ▸ Nat.not_lt.mp hlt)]
      exact nofun
  · rw [Slots.find?_put_of_ne _ _ heq]
    exact hother

/-- The end of a region leaves the allocators and guards and the binding as they are. -/
theorem discardUnheld_leaves (id : RegionId) (w : World Session) :
    let s' := ((discardUnheld id : Act Empty Session Unit).run w).2.self
    Loses w.self s' ∧ s'.allocators = w.self.allocators ∧ s'.guards = w.self.guards ∧
      s'.bound = w.self.bound := by
  rcases hrun : (discardUnheld id : Act Empty Session Unit).run w with ⟨answer, w'⟩
  obtain ⟨-, made, letsGo⟩ := discardUnheld_letsGo hrun
  cases letsGo with
  | kept h same =>
      subst same
      exact ⟨.refl _, rfl, rfl, rfl⟩
  | ended found unheld discards calls self =>
      intro s'
      have hself : s' = w.self.without id := self
      rw [hself]
      exact ⟨loses_putRegion w.self nofun, rfl, rfl, rfl⟩

theorem dropAllocator_leaves (a : Nat) (allocator : Allocator) (w : World Session) :
    let s' := ((dropAllocator a allocator : Act Empty Session Unit).run w).2.self
    Loses w.self s' ∧ s'.allocators.find? a = none := by
  intro s'
  cases hstrategy : allocator.strategy with
  | heap heap =>
      have hself : ∃ strategy, s' = { w.self.setStrategy a strategy with
          allocators := (w.self.setStrategy a strategy).allocators.put a none } := by
        refine ⟨.heap (BatchHeap.discard.run { w with self := heap }).2.self, ?_⟩
        unfold s' dropAllocator
        simp only [hstrategy]
        rw [run_then]
        rfl
      obtain ⟨strategy, hself⟩ := hself
      rw [hself]
      refine ⟨(loses_setStrategy _ _ _).trans (loses_putAllocator _ a), ?_⟩
      exact Slots.find?_put_none _ a
  | pool pool id =>
      have hrun : ∃ w₁ : World Session, Loses w.self w₁.self ∧
          (dropAllocator a allocator : Act Empty Session Unit).run w
            = (discardUnheld id).run { w₁ with self := { w₁.self with
                allocators := w₁.self.allocators.put a none } } := by
        unfold dropAllocator
        simp only [hstrategy, Act.run_self_bind]
        cases w.self.region? id with
        | none => exact ⟨w, .refl _, rfl⟩
        | some region =>
            simp only [run_then]
            refine ⟨_, ?_, rfl⟩
            exact (loses_setRegion _ _ _).trans (loses_setStrategy _ _ _)
      obtain ⟨w₁, hloses, hrun⟩ := hrun
      obtain ⟨hloses', hallocators, -, -⟩ := discardUnheld_leaves id { w₁ with self :=
        { w₁.self with allocators := w₁.self.allocators.put a none } }
      rw [show s' = _ from congrArg (World.self ∘ Prod.snd) hrun]
      refine ⟨(hloses.trans (loses_putAllocator _ a)).trans hloses', ?_⟩
      show Slots.find? _ a = none
      rw [Function.comp_apply, hallocators]
      exact Slots.find?_put_none _ a

/-- To leave a scope ends a guard, and no allocator has to do with it. -/
theorem leave_leaves (g : Nat) (guard : Guard) (w : World Session) :
    let s' := ((leave g guard : Act Empty Session Unit).run w).2.self
    Loses w.self s' ∧ s'.guards.find? g = none := by
  have first : Loses w.self
      { w.self with guards := w.self.guards.put g none, bound := guard.restored } :=
    ⟨fun _ h => h, fun _ h => Slots.find?_put_eq_none h fun _ => rfl, fun _ h => h⟩
  unfold leave
  rw [Act.run_self_bind, run_then]
  cases w.self.bound with
  | none => exact ⟨first, Slots.find?_put_none _ g⟩
  | some id =>
      obtain ⟨hloses, -, hguards, -⟩ := discardUnheld_leaves id { w with self :=
        { w.self with guards := w.self.guards.put g none, bound := guard.restored } }
      refine ⟨first.trans hloses, ?_⟩
      exact (congrArg (Slots.find? · g) hguards).trans (Slots.find?_put_none _ g)

theorem dropRegion_leaves (id : RegionId) (w : World Session) :
    let s' := ((dropRegion id : Act Empty Session Unit).run w).2.self
    Loses w.self s' ∧ s'.named? id = none := by
  unfold dropRegion
  rw [Act.run_self_bind]
  cases hcell : w.self.regions.find? id with
  | none =>
      refine ⟨.refl _, ?_⟩
      show w.self.named? id = none
      unfold named?
      rw [hcell]
  | some cell =>
      simp only [run_then]
      have first : Loses w.self (w.self.unname id cell) := loses_putRegion w.self nofun
      have hname : (w.self.unname id cell).named? id = none := by
        unfold unname named?
        rw [Slots.find?_put_of_some hcell]
      obtain ⟨hloses, -⟩ := discardUnheld_leaves id { w with self := w.self.unname id cell }
      exact ⟨first.trans hloses, hloses.names id hname⟩

/-- The end of the binding leaves nothing bound. -/
theorem unbind_leaves (w : World Session) :
    let s' := ((unbind : Act Empty Session Unit).run w).2.self
    Loses w.self s' ∧ s'.bound = none := by
  unfold unbind
  rw [Act.run_self_bind]
  cases hbound : w.self.bound with
  | none => exact ⟨.refl _, hbound⟩
  | some id =>
      simp only [run_then]
      obtain ⟨hloses, -, -, hnone⟩ :=
        discardUnheld_leaves id { w with self := { w.self with bound := none } }
      have first : Loses w.self { w.self with bound := none } :=
        ⟨fun _ h => h, fun _ h => h, fun _ h => h⟩
      exact ⟨first.trans hloses, hnone⟩

/-- The thread has given up things in some turns, and nothing came back. -/
structure Sheds (w w' : World Session) : Prop where
  turns : ∃ ts : List Turn, (∀ t ∈ ts, t.move.letsGo = true) ∧ Plays ts w w'
  loses : Loses w.self w'.self

theorem Sheds.refl (w : World Session) : Sheds w w := by
  refine ⟨⟨[], ?_, .nil w⟩, .refl _⟩
  intro t ht
  cases ht

theorem Sheds.trans (first : Sheds w w₁) (next : Sheds w₁ w') : Sheds w w' where
  turns := by
    obtain ⟨ts, hts, plays⟩ := first.turns
    obtain ⟨rest, hrest, plays'⟩ := next.turns
    refine ⟨ts ++ rest, ?_, plays.append plays'⟩
    intro t ht
    rcases List.mem_append.mp ht with ht | ht
    · exact hts t ht
    · exact hrest t ht
  loses := first.loses.trans next.loses

theorem Sheds.orderly (h : Sheds w w') (ok : Orderly none w.self) : Orderly none w'.self := by
  obtain ⟨ts, -, plays⟩ := h.turns
  rw [plays.self]
  exact play_orderly ok ts

/-- A move that lets go of something. -/
theorem sheds_of_move (ok : Orderly none w.self) {move : Move} (letsGo : move.letsGo = true)
    (h : carryOut w move = w') (loses : Loses w.self w'.self) : Sheds w w' := by
  subst h
  refine ⟨⟨[⟨w.toMachine, move⟩], ?_, plays_carryOut ok move⟩, loses⟩
  intro t ht
  obtain rfl := List.mem_singleton.mp ht
  exact letsGo

/-- A step that looks for a thing, does what cannot fail and answers nothing. -/
theorem carryOut_of_calm {step : Step} {act : Act Empty Session Unit}
    (h : (perform step).run w = (calm act >>= fun _ => pure .nothing : Work Value).run w) :
    carryOut w (.step step) = (act.run w).2 := by
  show (outcome step w).2 = _
  unfold outcome
  rw [h, Act.run_bind, calm, Act.run_mapError]
  rcases act.run w with ⟨e | u, w₁⟩
  · cases e
  · rfl

theorem dropAllocator_sheds (ok : Orderly none w.self) {allocator : Allocator}
    (hfind : w.self.allocators.find? a = some allocator) :
    Sheds w ((dropAllocator a allocator : Act Empty Session Unit).run w).2 := by
  have letsGo : (Move.step (.dropAllocator a)).letsGo = true := rfl
  refine sheds_of_move ok letsGo (carryOut_of_calm ?_) (dropAllocator_leaves a allocator w).1
  rw [← dropAllocator_calm]
  unfold perform
  rw [Act.run_self_bind]
  simp only [hfind]
  rfl

theorem carryOut_exit {guard : Guard} (hfind : w.self.guards.find? g = some guard) :
    carryOut w (.step (.exit g)) = ((leave g guard : Act Empty Session Unit).run w).2 := by
  refine carryOut_of_calm ?_
  rw [← leave_calm]
  unfold perform
  rw [Act.run_self_bind]
  simp only [hfind]
  rfl

theorem carryOut_dropRegion {region : Region} (hnamed : w.self.named? id = some region) :
    carryOut w (.step (.dropRegion id)) = ((dropRegion id : Act Empty Session Unit).run w).2 := by
  refine carryOut_of_calm ?_
  rw [← dropRegion_calm]
  unfold perform
  rw [Act.run_self_bind]
  simp only [hnamed]
  rfl

theorem leave_sheds (ok : Orderly none w.self) {guard : Guard}
    (hfind : w.self.guards.find? g = some guard) :
    Sheds w ((leave g guard : Act Empty Session Unit).run w).2 := by
  have letsGo : (Move.step (.exit g)).letsGo = true := rfl
  exact sheds_of_move ok letsGo (carryOut_exit hfind) (leave_leaves g guard w).1

theorem dropRegion_sheds (ok : Orderly none w.self) {region : Region}
    (hnamed : w.self.named? id = some region) :
    Sheds w ((dropRegion id : Act Empty Session Unit).run w).2 := by
  have letsGo : (Move.step (.dropRegion id)).letsGo = true := rfl
  exact sheds_of_move ok letsGo (carryOut_dropRegion hnamed) (dropRegion_leaves id w).1

/-- To drop what is at a place is to be done with that place, for good. -/
structure Empties (places : Session → Slots β) (drop : Nat → β → Act Empty Session Unit)
    (gone : Session → Nat → Prop) : Prop where
  stays : ∀ {s s' i}, Loses s s' → gone s i → gone s' i
  absent : ∀ {s i}, (places s).find? i = none → gone s i
  each : ∀ {w i x}, Orderly none w.self → (places w.self).find? i = some x →
    Sheds w ((drop i x).run w).2 ∧ gone ((drop i x).run w).2.self i

section Each

variable {places : Session → Slots β} {drop : Nat → β → Act Empty Session Unit}
variable {gone : Session → Nat → Prop}

theorem Empties.some (h : Empties places drop gone) (ok : Orderly none w.self)
    (is : List Nat) : Sheds w ((dropEach places drop is).run w).2 ∧
      ∀ i ∈ is, gone ((dropEach places drop is).run w).2.self i := by
  induction is generalizing w with
  | nil => exact ⟨.refl w, nofun⟩
  | cons i is ih =>
      have first : ∃ w₁, Sheds w w₁ ∧ gone w₁.self i ∧
          (dropEach places drop (i :: is)).run w = (dropEach places drop is).run w₁ := by
        rw [dropEach, Act.run_self_bind]
        cases hfind : (places w.self).find? i with
        | none => exact ⟨w, .refl w, h.absent hfind, rfl⟩
        | some x =>
            obtain ⟨sheds, hgone⟩ := h.each ok hfind
            exact ⟨_, sheds, hgone, run_then _ _ _⟩
      obtain ⟨w₁, sheds, hgone, hrun⟩ := first
      obtain ⟨sheds', hgone'⟩ := ih (sheds.orderly ok)
      rw [hrun]
      refine ⟨sheds.trans sheds', ?_⟩
      intro j hj
      rcases List.mem_cons.mp hj with rfl | hj
      · exact h.stays sheds'.loses hgone
      · exact hgone' j hj

/-- Once all places have been seen to that were ever taken, everything is gone. -/
theorem Empties.all (h : Empties places drop gone) (ok : Orderly none w.self)
    (lost : Loses s w.self) :
    Sheds w ((dropEach places drop (places s).descending).run w).2 ∧
      ∀ i, gone ((dropEach places drop (places s).descending).run w).2.self i := by
  obtain ⟨sheds, hgone⟩ := h.some ok (places s).descending
  refine ⟨sheds, fun i => ?_⟩
  by_cases hi : i < (places s).next
  · refine hgone i ?_
    rw [Slots.descending, List.mem_reverse, List.mem_range]
    exact hi
  · exact h.stays (lost.trans sheds.loses) (h.absent (Slots.find?_of_next_le (Nat.not_lt.mp hi)))

end Each

theorem empties_allocators :
    Empties Session.allocators dropAllocator fun s a => s.allocators.find? a = none where
  stays lost h := lost.allocators _ h
  absent h := h
  each ok hfind := ⟨dropAllocator_sheds ok hfind, (dropAllocator_leaves _ _ _).2⟩

theorem empties_guards : Empties Session.guards leave fun s g => s.guards.find? g = none where
  stays lost h := lost.guards _ h
  absent h := h
  each ok hfind := ⟨leave_sheds ok hfind, (leave_leaves _ _ _).2⟩

/-- Regions that have no name are passed by. -/
theorem empties_names :
    Empties Session.regions (fun id cell => if cell.named then dropRegion id else pure ())
      fun s id => s.named? id = none where
  stays lost h := lost.names _ h
  absent h := by
    unfold named?
    rw [h]
  each := by
    intro w id cell ok hcell
    obtain ⟨region, named⟩ := cell
    cases named with
    | false =>
        refine ⟨.refl w, ?_⟩
        show w.self.named? id = none
        unfold named?
        rw [hcell]
    | true =>
        have hnamed : w.self.named? id = some region := by
          unfold named?
          rw [hcell]
        exact ⟨dropRegion_sheds ok hnamed, (dropRegion_leaves id w).2⟩

/-- Nobody refers to a region in a session in which everything was given up. -/
theorem not_refers (allocators : ∀ a, s.allocators.find? a = none)
    (guards : ∀ g, s.guards.find? g = none) (names : ∀ id, s.named? id = none)
    (bound : s.bound = none) (id : RegionId) : ¬ s.Refers id := by
  intro hrefers
  cases hrefers with
  | name h =>
      rw [names] at h
      cases h
  | @pool a h =>
      rw [beneath, allocators] at h
      cases h
  | @guard g h =>
      rw [saved, guards] at h
      cases h
  | binding h =>
      rw [bound] at h
      cases h

/-- **Everything that is held can be dropped**: that takes some turns that let go, and in the
end nobody refers to any region. -/
theorem dropAll_sheds (ok : Orderly none w.self) :
    Sheds w ((dropAll : Act Empty Session Unit).run w).2 ∧
      ∀ id, ¬ ((dropAll : Act Empty Session Unit).run w).2.self.Refers id := by
  unfold dropAll
  rw [Act.run_self_bind, run_then, run_then, run_then]
  obtain ⟨sheds₁, allocators⟩ := empties_allocators.all ok (.refl w.self)
  generalize ((dropEach Session.allocators _ _).run w).2 = w₁ at *
  have lost₁ := sheds₁.loses
  obtain ⟨sheds₂, guards⟩ := empties_guards.all (sheds₁.orderly ok) lost₁
  generalize ((dropEach Session.guards _ _).run w₁).2 = w₂ at *
  have lost₂ := lost₁.trans sheds₂.loses
  obtain ⟨sheds₃, names⟩ := empties_names.all (sheds₂.orderly (sheds₁.orderly ok)) lost₂
  generalize ((dropEach Session.regions _ _).run w₂).2 = w₃ at *
  obtain ⟨lost₄, bound⟩ := unbind_leaves w₃
  have ok₃ := sheds₃.orderly (sheds₂.orderly (sheds₁.orderly ok))
  have letsGo : Move.unbind.letsGo = true := rfl
  have sheds₄ : Sheds w₃ ((unbind : Act Empty Session Unit).run w₃).2 :=
    sheds_of_move ok₃ letsGo rfl lost₄
  refine ⟨((sheds₁.trans sheds₂).trans sheds₃).trans sheds₄, ?_⟩
  refine not_refers ?_ ?_ (fun id => lost₄.names id (names id)) bound
  · intro a
    exact lost₄.allocators a (sheds₃.loses.allocators a (sheds₂.loses.allocators a (allocators a)))
  · intro g
    exact lost₄.guards g (sheds₃.loses.guards g (guards g))

/-- **The end of a session** is a sequence of turns that let go, after which nobody refers to
any region. -/
theorem finish_lets_go (ok : Orderly none w.self) :
    (∃ ts : List Turn, (∀ t ∈ ts, t.move.letsGo = true) ∧
      (finish w).self = w.self.play ts ∧ (finish w).kernel.calls = w.self.spent ts) ∧
      ∀ id, ¬ (finish w).self.Refers id := by
  obtain ⟨⟨⟨ts, hts, plays⟩, -⟩, unheld⟩ := dropAll_sheds (w := clear w) ok
  exact ⟨⟨ts, hts, plays.self, plays.calls⟩, unheld⟩

end Session

end PageArena
