/-
Scopes are a stack.

A guard remembers no more than what was bound before it, and it is only the order in which
guards are dropped that makes of this a stack.  `Scoped` notes beside a session the scopes that
are open in it, from what the steps answer.  The turns are well nested if every guard that is
dropped is that of the innermost scope.

`Stands` is the invariant.  What is bound is the region of the innermost scope, and what a
guard remembers is the region of the scope around its own; a region may be that of several
scopes.  A turn that is well nested keeps it, and whatever else is done leaves binding and
guards alone.

Two steps read the binding.  One tells what is bound (`Shows`), the other has a factory make an
allocator over it (`Supplies`).
-/
import Mathlib
import PageArena.Proofs.Session.Release
import PageArena.Proofs.Session.Upkeep

namespace PageArena

namespace Session

/-- A scope that was entered: its guard and its region. -/
structure Scope where
  guard : Nat
  region : RegionId
  deriving DecidableEq, Repr

/-- What is bound within some scopes, the innermost first: the region of the innermost, or what
was bound before there were any. -/
def innermost (before : Option RegionId) (scopes : List Scope) : Option RegionId :=
  (scopes.head?.map Scope.region).or before

/-- The scopes that are open once a step was answered. -/
def note (scopes : List Scope) : Step → Except Failure Value → List Scope
  | .enter r, .ok (.guard g) => ⟨g, r⟩ :: scopes
  | .exit g, .ok _ => scopes.filter (·.guard ≠ g)
  | _, _ => scopes

/-- A session and the scopes that are open in it, the innermost first. -/
structure Scoped where
  session : Session
  scopes : List Scope := []

namespace Scoped

/-- The scopes after a turn. -/
def after (x : Scoped) (t : Turn) : Scoped where
  session := x.session.after t
  scopes := match t.move with
    | .step step => note x.scopes step (outcome step { t.machine with self := x.session }).1
    | .unbind => x.scopes

def play (x : Scoped) (ts : List Turn) : Scoped := ts.foldl after x

/-- A guard is dropped only if its scope is the innermost, and the thread goes on. -/
def Nests (x : Scoped) (t : Turn) : Prop :=
  match t.move with
  | .step (.exit g) => (x.session.guards.find? g).isSome →
      x.scopes.head?.map Scope.guard = some g
  | .step _ => True
  | .unbind => False

def WellNested (x : Scoped) : List Turn → Prop
  | [] => True
  | t :: ts => x.Nests t ∧ (x.after t).WellNested ts

/-- Every guard remembers the region of the scope around its own. -/
def Saves (before : Option RegionId) (s : Session) : List Scope → Prop
  | [] => True
  | scope :: outer =>
      s.guards.find? scope.guard = some ⟨innermost before outer⟩ ∧ Saves before s outer

/-- The innermost scope is bound, and every guard is that of one scope. -/
structure Stands (before : Option RegionId) (x : Scoped) : Prop where
  bound : x.session.bound = innermost before x.scopes
  saves : Saves before x.session x.scopes
  distinct : (x.scopes.map Scope.guard).Nodup

variable {before : Option RegionId} {s s' : Session} {scopes : List Scope} {x : Scoped}

theorem session_play (x : Scoped) (ts : List Turn) :
    (x.play ts).session = x.session.play ts := by
  induction ts generalizing x with
  | nil => rfl
  | cons t ts ih => exact ih (x.after t)

/-- What the guards remember matters only for the scopes that are open. -/
theorem Saves.of_guards (h : Saves before s scopes)
    (same : ∀ scope ∈ scopes, s'.guards.find? scope.guard = s.guards.find? scope.guard) :
    Saves before s' scopes := by
  induction scopes with
  | nil => trivial
  | cons scope outer ih =>
      obtain ⟨hguard, houter⟩ := h
      refine ⟨(same scope List.mem_cons_self).trans hguard, ih houter ?_⟩
      exact fun scope h => same scope (List.mem_cons_of_mem _ h)

theorem Saves.found (h : Saves before s scopes) {scope : Scope} (hscope : scope ∈ scopes) :
    ∃ guard, s.guards.find? scope.guard = some guard := by
  induction scopes with
  | nil => cases hscope
  | cons first outer ih =>
      obtain ⟨hguard, houter⟩ := h
      rcases List.mem_cons.mp hscope with rfl | hscope
      · exact ⟨_, hguard⟩
      · exact ih houter hscope

/-- The scopes stand as they did where binding and guards are the same. -/
theorem Stands.of_same (h : Stands before ⟨s, scopes⟩) (bound : s'.bound = s.bound)
    (guards : ∀ g, s'.guards.find? g = s.guards.find? g) : Stands before ⟨s', scopes⟩ where
  bound := bound.trans h.bound
  saves := h.saves.of_guards fun _ _ => guards _
  distinct := h.distinct

/-- A scope is entered within the others. -/
theorem Stands.enter (h : Stands before ⟨s, scopes⟩) (r : RegionId) :
    Stands before ⟨s.bindTo r, ⟨s.guards.next, r⟩ :: scopes⟩ := by
  have fresh : ∀ scope ∈ scopes, scope.guard ≠ s.guards.next := by
    intro scope hscope
    obtain ⟨guard, hguard⟩ := h.saves.found hscope
    exact Nat.ne_of_lt (Slots.lt_next_of_find? hguard)
  refine ⟨rfl, ⟨?_, ?_⟩, ?_⟩
  · show (s.guards.push (some ⟨s.bound⟩)).find? s.guards.next = _
    rw [Slots.find?_push_next, h.bound]
  · refine h.saves.of_guards fun scope hscope => ?_
    exact Slots.find?_push_of_ne s.guards _ (fresh scope hscope)
  · refine List.nodup_cons.mpr ⟨?_, h.distinct⟩
    intro hmem
    obtain ⟨scope, hscope, hguard⟩ := List.mem_map.mp hmem
    exact fresh scope hscope hguard

/-- The innermost scope is left: what its guard remembers is the region of the next. -/
theorem Stands.exit {scope : Scope} (h : Stands before ⟨s, scope :: scopes⟩) {guard : Guard}
    (hfind : s.guards.find? scope.guard = some guard) :
    Stands before ⟨s.restore scope.guard guard,
      (scope :: scopes).filter (·.guard ≠ scope.guard)⟩ := by
  obtain ⟨hguard, houter⟩ := h.saves
  obtain ⟨hnew, hdistinct⟩ := List.nodup_cons.mp h.distinct
  have others : ∀ other ∈ scopes, other.guard ≠ scope.guard := by
    intro other hother heq
    exact hnew (List.mem_map.mpr ⟨other, hother, heq⟩)
  have hscopes : (scope :: scopes).filter (·.guard ≠ scope.guard) = scopes := by
    rw [List.filter_cons_of_neg (by simp)]
    exact List.filter_eq_self.mpr fun other hother => by simpa using others other hother
  rw [hscopes]
  refine ⟨?_, ?_, hdistinct⟩
  · obtain rfl := Option.some.inj (hguard.symm.trans hfind)
    rfl
  · refine houter.of_guards fun other hother => ?_
    exact Slots.find?_put_of_ne s.guards none fun heq => others other hother heq.symm

theorem note_of_offScope {step : Step} (h : step.onScope = false)
    (answer : Except Failure Value) : note scopes step answer = scopes := by
  cases step with
  | enter r => cases h
  | exit g => cases h
  | _ => rfl

/-- **Scopes that stand still do after a turn that is well nested.** -/
theorem Stands.after (h : Stands before x) {t : Turn} (nests : x.Nests t) :
    Stands before (x.after t) := by
  obtain ⟨s, scopes⟩ := x
  obtain ⟨machine, move⟩ := t
  let w : World Session := { machine with self := s }
  cases move with
  | unbind => exact nests.elim
  | step step =>
      show Stands before ⟨(outcome step w).2.self, note scopes step (outcome step w).1⟩
      cases hscope : step.onScope with
      | false =>
          have upholds := outcome_upholds step hscope w
          rw [note_of_offScope hscope]
          exact h.of_same upholds.bound upholds.guards
      | true =>
          cases step with
          | enter r =>
              cases hnamed : s.named? r with
              | none =>
                  rw [outcome_enter_refused (w := w) hnamed]
                  exact h.of_same rfl fun g => Slots.find?_push_none s.guards g
              | some region =>
                  rw [outcome_enter (w := w) hnamed]
                  exact h.enter r
          | exit g =>
              cases hguard : s.guards.find? g with
              | none =>
                  rw [outcome_exit_refused (w := w) hguard]
                  exact h
              | some guard =>
                  obtain ⟨w', hrun, upholds⟩ := outcome_exit (w := w) hguard
                  rw [hrun]
                  -- The guard is there, so its scope is the innermost and there is one.
                  have innermost : scopes.head?.map Scope.guard = some g :=
                    nests (Option.isSome_iff_exists.mpr ⟨guard, hguard⟩)
                  cases scopes with
                  | nil => cases innermost
                  | cons scope outer =>
                      obtain rfl := Option.some.inj innermost
                      exact (h.exit hguard).of_same upholds.bound upholds.guards
          | _ => cases hscope

/-- **They stand as long as the turns are well nested.** -/
theorem Stands.play (h : Stands before x) {ts : List Turn} (nested : x.WellNested ts) :
    Stands before (x.play ts) := by
  induction ts generalizing x with
  | nil => exact h
  | cons t ts ih => exact ih (h.after nested.1) nested.2

theorem WellNested.of_append {earlier later : List Turn}
    (h : x.WellNested (earlier ++ later)) : x.WellNested earlier := by
  induction earlier generalizing x with
  | nil => trivial
  | cons t ts ih => exact ⟨h.1, ih h.2⟩

end Scoped

/-! ### What is told of the binding -/

/-- What is told of a binding: that there is none, or the number of the region that is bound.
A region to which the thread itself refers no more has no number for it. -/
inductive Shows (s : Session) : Option RegionId → Bound → Prop
  | nothing : Shows s none .nothing
  | region {id : RegionId} (named : (s.named? id).isSome = true) : Shows s (some id) (.region id)
  | unnamed {id : RegionId} (hidden : s.named? id = none) : Shows s (some id) .unnamed

theorem boundNow_shows (s : Session) : s.Shows s.bound (boundNow s) := by
  unfold boundNow
  cases s.bound with
  | none => exact .nothing
  | some id =>
      by_cases hnamed : (s.named? id).isSome = true
      · simp only [if_pos hnamed]
        exact .region hnamed
      · simp only [if_neg hnamed]
        exact .unnamed (Option.not_isSome_iff_eq_none.mp hnamed)

/-- Who asks what is bound is told, and nothing else happens.  In another thread nothing is. -/
theorem outcome_bound (w : World Session) :
    outcome .bound w = (.ok (.bound (boundNow w.self) false), w) := rfl

/-! ### What factories make -/

variable {w : World Session} {f : Nat} {factory : Factory} {over? : Option RegionId}

/-- A factory makes an allocator over a region, or over the heap if there is none. -/
def supply (factory : Factory) (over? : Option RegionId) (w : World Session) :
    Except Failure Value × World Session :=
  let place (x : Option Allocator) : World Session :=
    { w with self := { w.self with allocators := w.self.allocators.push x } }
  match factory.makeOver over? with
  | some allocator =>
    (.ok (.allocator (some w.self.allocators.next) (infoOf allocator)), place (some allocator))
  | none => (.error .oversized, place none)

theorem outcome_makeBound (h : w.self.factories.find? f = some factory) :
    outcome (.makeBound f) w = supply factory w.self.bound w := by
  unfold outcome perform supply
  rw [Act.run_self_bind]
  simp only [h, need, Act.run_pure_bind]
  cases factory.makeOver w.self.bound with
  | none => rfl
  | some allocator => rfl

theorem outcome_makeOver (h : w.self.factories.find? f = some factory)
    (named : ∀ r, over? = some r → (w.self.named? r).isSome) :
    outcome (.makeOver f over?) w = supply factory over? w := by
  unfold outcome perform supply
  rw [Act.run_self_bind]
  cases over? with
  | none =>
      simp only [h, need, Act.run_pure_bind]
      cases factory.makeOver none with
      | none => rfl
      | some allocator => rfl
  | some r =>
      obtain ⟨region, hregion⟩ := Option.isSome_iff_exists.mp (named r rfl)
      simp only [h, hregion, need, Act.run_pure_bind]
      rfl

/-- What a step comes to that is to supply an allocator: a pool over the region that is given,
and if none is, a batch heap, unless that asks for room that no object can have. -/
inductive Supplies (factory : Factory) (w : World Session) (step : Step) :
    Option RegionId → Prop
  | pool {w' : World Session} {allocator : Allocator} (id : RegionId)
      (answered : outcome step w
        = (.ok (.allocator (some w.self.allocators.next) (infoOf allocator)), w'))
      (found : w'.self.allocators.find? w.self.allocators.next = some allocator)
      (fresh : allocator.strategy = .pool .fresh id) : Supplies factory w step (some id)
  | heap {w' : World Session} {allocator : Allocator}
      (answered : outcome step w
        = (.ok (.allocator (some w.self.allocators.next) (infoOf allocator)), w'))
      (found : w'.self.allocators.find? w.self.allocators.next = some allocator)
      (fresh : allocator.strategy = .heap { source := factory.source }) :
      Supplies factory w step none
  | oversized (unfit : factory.tuning.fits = false)
      (answered : (outcome step w).1 = .error .oversized) : Supplies factory w step none

theorem supplies_of_outcome {step : Step} (h : outcome step w = supply factory over? w) :
    Supplies factory w step over? := by
  cases over? with
  | some id => exact .pool id h (Slots.find?_push_next _ _) rfl
  | none =>
      unfold supply Factory.makeOver BatchHeap.fresh? at h
      cases hfits : factory.tuning.fits with
      | true =>
          simp only [hfits, if_true] at h
          exact .heap h (Slots.find?_push_next _ _) rfl
      | false =>
          simp only [hfits, Bool.false_eq_true, if_false] at h
          exact .oversized hfits (congrArg Prod.fst h)

/-- A session with something else bound. -/
def rebound (s : Session) (bound : Option RegionId) : Session := { s with bound := bound }

/-- A step that asks a factory that is not there, or names a region that is not. -/
theorem outcome_makeOver_refused (h : w.self.factories.find? f = none ∨
      ∃ r, over? = some r ∧ w.self.named? r = none) :
    outcome (.makeOver f over?) w = (.error .refused, { w with self := { w.self with
      allocators := w.self.allocators.push none } }) := by
  unfold outcome perform
  rw [Act.run_self_bind]
  rcases hfactory : w.self.factories.find? f with _ | factory
  · cases over? with
    | none => simp only [hfactory, need, refuse]; rfl
    | some r => simp only [hfactory, need, refuse]; rfl
  · rcases h with hnone | ⟨r, rfl, hnone⟩
    · rw [hfactory] at hnone
      cases hnone
    · simp only [hfactory, hnone, need, refuse]
      rfl

/-- **What is made over a given region does not depend on what is bound.** -/
theorem outcome_makeOver_rebound (m : Machine) (s : Session) (f : Nat) (over? : Option RegionId)
    (bound : Option RegionId) :
    let here := outcome (.makeOver f over?) { m with self := s }
    let there := outcome (.makeOver f over?) { m with self := s.rebound bound }
    there.1 = here.1 ∧ there.2.self = here.2.self.rebound bound := by
  intro here there
  let w : World Session := { m with self := s }
  let w' : World Session := { m with self := s.rebound bound }
  by_cases hmakes : ∃ factory, s.factories.find? f = some factory ∧
      ∀ r, over? = some r → (s.named? r).isSome
  · obtain ⟨factory, hfactory, named⟩ := hmakes
    have hhere : here = supply factory over? w := outcome_makeOver hfactory named
    have hthere : there = supply factory over? w' := outcome_makeOver hfactory named
    rw [hhere, hthere]
    unfold supply
    cases factory.makeOver over? with
    | none => exact ⟨rfl, rfl⟩
    | some allocator => exact ⟨rfl, rfl⟩
  -- The step is refused, and whether it is does not depend on what is bound either.
  · have refused : s.factories.find? f = none ∨ ∃ r, over? = some r ∧ s.named? r = none := by
      rcases hfactory : s.factories.find? f with _ | factory
      · exact Or.inl rfl
      · by_contra hno
        refine hmakes ⟨factory, hfactory, fun r hr => ?_⟩
        by_contra hnamed
        exact hno (Or.inr ⟨r, hr, Option.not_isSome_iff_eq_none.mp hnamed⟩)
    have hhere := outcome_makeOver_refused (w := w) refused
    have hthere := outcome_makeOver_refused (w := w') refused
    rw [show here = _ from hhere, show there = _ from hthere]
    exact ⟨rfl, rfl⟩

/-- **Scopes are a stack.**  At every point of turns that are well nested, what is bound is the
region of the innermost scope, or what was bound before, and that region exists.  Who asks
what is bound is told this, on any machine, and changes nothing by it.  A factory that is
asked for an allocator makes a pool over it, and a batch heap if nothing is bound; one that is
given a region or none looks at nothing else.  An allocator stays over its region, or over
none, until it is dropped. -/
theorem scopes_are_a_stack (past ts : List Turn)
    (nested : (Scoped.mk (play {} past) []).WellNested ts) :
    let start : Scoped := ⟨play {} past, []⟩
    ∀ earlier later, ts = earlier ++ later →
      let x := start.play earlier
      let s := x.session
      (s.bound = innermost start.session.bound x.scopes ∧
        ∀ id, s.bound = some id → ∃ region, s.region? id = some region) ∧
      (∃ told, s.Shows (innermost start.session.bound x.scopes) told ∧ ∀ m : Machine,
        outcome .bound { m with self := s } = (.ok (.bound told false), { m with self := s })) ∧
      (∀ (m : Machine) (f : Nat) (factory : Factory), s.factories.find? f = some factory →
        Supplies factory { m with self := s } (.makeBound f) s.bound) ∧
      (∀ (m : Machine) (f : Nat) (over? : Option RegionId),
        (∀ factory, s.factories.find? f = some factory →
          (∀ r, over? = some r → (s.named? r).isSome) →
          Supplies factory { m with self := s } (.makeOver f over?) over?) ∧
        ∀ bound,
          let here := outcome (.makeOver f over?) { m with self := s }
          let there := outcome (.makeOver f over?) { m with self := s.rebound bound }
          there.1 = here.1 ∧ there.2.self = here.2.self.rebound bound) ∧
      ∀ a old, s.allocators.find? a = some old → (∀ t ∈ later, t.move.drops ≠ some a) →
        ∃ new, (s.play later).allocators.find? a = some new ∧
          new.strategy.region? = old.strategy.region? ∧
          new.strategy.isHeap = old.strategy.isHeap ∧
          ∀ id, old.strategy.region? = some id →
            ∃ region, (s.play later).region? id = some region := by
  intro start earlier later hts x s
  have stands : Scoped.Stands start.session.bound start := ⟨rfl, trivial, List.nodup_nil⟩
  have okStart : Orderly none start.session := play_orderly orderly_start past
  have hsession : s = start.session.play earlier := Scoped.session_play start earlier
  have ok : Orderly none s := hsession ▸ play_orderly okStart earlier
  have here := stands.play (Scoped.WellNested.of_append (hts ▸ nested))
  refine ⟨⟨here.bound, fun id hid => ok.kept id (.binding hid)⟩, ⟨boundNow s, ?_, ?_⟩, ?_, ?_, ?_⟩
  · rw [← here.bound]
    exact boundNow_shows s
  · exact fun m => outcome_bound _
  · exact fun m f factory hfactory => supplies_of_outcome (outcome_makeBound hfactory)
  · intro m f over?
    refine ⟨fun factory hfactory named => ?_, outcome_makeOver_rebound m s f over?⟩
    exact supplies_of_outcome (outcome_makeOver hfactory named)
  · intro a old hfind kept
    obtain ⟨new, hnew, hsame⟩ := play_keeps hfind kept
    refine ⟨new, hnew, hsame, ?_, fun id hid => ?_⟩
    · rw [Strategy.isHeap_eq, Strategy.isHeap_eq, hsame]
    · refine (play_orderly ok later).kept id (.pool (a := a) ?_)
      rw [beneath, hnew]
      exact hsame.trans hid

/-- A region is entered twice and closed within both scopes.  It stays bound until the outer
scope is left, which is told to who asks, and a pool that was made over it meanwhile stays over
it. -/
theorem scopes_are_a_stack_of_one_region :
    let turn (step : Step) : Turn := ⟨{}, .step step⟩
    let past := [turn (.region 8000 .standard)]
    let inside := [turn (.enter 0), turn (.enter 0), turn (.close 0), turn (.factory .standard),
      turn (.makeBound 0), turn (.exit 1)]
    let outside := [turn (.exit 0)]
    let start : Scoped := ⟨play {} past, []⟩
    let asked (s : Session) := (outcome .bound { ({} : Machine) with self := s }).1
    start.WellNested (inside ++ outside) ∧
      (start.play inside).scopes = [⟨0, 0⟩] ∧ (start.play inside).session.bound = some 0 ∧
      asked (start.play inside).session = .ok (.bound (.region 0) false) ∧
      (start.play (inside ++ outside)).session.bound = none ∧
      asked (start.play (inside ++ outside)).session = .ok (.bound .nothing false) ∧
      ((start.play inside).session.play outside).beneath 0 = some 0 := by
  intro turn past inside outside start asked
  have nested : start.WellNested (inside ++ outside) :=
    ⟨trivial, trivial, trivial, trivial, trivial, fun _ => by decide, fun _ => by decide, trivial⟩
  have hscopes : (start.play inside).scopes = [⟨0, 0⟩] := by decide
  have hpool : (start.play inside).session.allocators.find? 0
      = some { strategy := .pool .fresh 0, either := true } := by decide
  have hnamed : ((start.play inside).session.named? 0).isSome = true := by decide
  have hnone : (start.play (inside ++ outside)).scopes = [] := by decide
  obtain ⟨⟨hinside, -⟩, ⟨told, shows, hasked⟩, -, -, kept⟩ :=
    scopes_are_a_stack past (inside ++ outside) nested inside outside rfl
  obtain ⟨⟨houtside, -⟩, ⟨toldLast, showsLast, haskedLast⟩, -⟩ :=
    scopes_are_a_stack past (inside ++ outside) nested (inside ++ outside) [] rfl
  refine ⟨nested, hscopes, ?_, ?_, ?_, ?_, ?_⟩
  · rw [hinside, hscopes]
    rfl
  · rw [show asked _ = .ok (.bound told false) from congrArg Prod.fst (hasked {})]
    rw [hscopes, show innermost _ _ = some 0 from rfl] at shows
    cases shows with
    | region named => rfl
    | unnamed hidden =>
        rw [hidden] at hnamed
        cases hnamed
  · rw [houtside, hnone]
    decide
  · rw [show asked _ = .ok (.bound toldLast false) from congrArg Prod.fst (haskedLast {})]
    rw [hnone, show innermost _ _ = none by decide] at showsLast
    cases showsLast with
    | nothing => rfl
  · obtain ⟨new, hnew, hsame, -⟩ := kept 0 _ hpool (by decide)
    rw [beneath, hnew]
    exact hsame

end Session

end PageArena
