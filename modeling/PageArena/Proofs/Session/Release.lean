/-
What becomes of every region of a session.

For each region two things are kept over the turns that concern it: the mappings that it has
taken (`reservations`) and all calls that were made for it (`history`).  `Accounted` is the
invariant of a run.  It says that the account of the region, as a region by itself would have
it, goes with both, and that it is closed once the region is gone.

A region is gone exactly when nobody refers to it, so the account of a region that nobody
refers to is closed: either it took nothing and nothing was released, or it took one mapping,
and the last call that was ever made for it releases that.

A region that somebody refers to is not gone, and the account may be closed all the same.
`Heeds` says which turns can do that: the one that asks for it, and one in which a change of
pages fails.  No holder does it by letting go.
-/
import Mathlib
import PageArena.Proofs.Session.Sparing

namespace PageArena

open OsCall (Record)

namespace Session

variable {s s' : Session} {id : Nat} {region : Region} {about : Option RegionId}
variable {made calls : List Record} {bases : List Int}

/-- Where a region stands; one that is gone is as good as closed. -/
def standing (s : Session) (id : RegionId) : Region.Phase :=
  ((s.region? id).map Region.phase).getD .closed

/-- The calls that are made for a region in a turn: all calls, if the turn concerns it. -/
def callsFor (s : Session) (id : RegionId) (t : Turn) : List Record :=
  if s.concerns t.move = some id then s.calls t else []

/-- The calls that are made for a region in some turns. -/
def history (s : Session) (id : RegionId) : List Turn → List Record
  | [] => []
  | t :: ts => s.callsFor id t ++ (s.after t).history id ts

/-- The mappings that a region takes in some turns, in each of which it may begin to be used. -/
def reservations (s : Session) (id : RegionId) : List Turn → List Int
  | [] => []
  | t :: ts =>
    Region.taken (s.standing id) ((s.after t).standing id) (s.callsFor id t)
      ++ (s.after t).reservations id ts

/-- The account of a region is right: it goes with where the region stands, and there is
nothing on it before the region is made. -/
structure Accounted (s : Session) (id : RegionId) (bases : List Int) (calls : List Record) :
    Prop where
  account : ∃ total, Region.Account total (s.standing id) bases calls ∧
    ∀ region, s.region? id = some region → region.total = total
  unmade : s.regions.next ≤ id → bases = [] ∧ calls = []

theorem standing_of_region? (h : s.region? id = some region) : s.standing id = region.phase := by
  rw [standing, h]
  rfl

theorem standing_of_gone (h : s.region? id = none) : s.standing id = .closed := by
  rw [standing, h]
  rfl

/-- At the start no region has an account. -/
theorem accounted_start (id : RegionId) : Accounted {} id [] [] where
  account := ⟨0, .dismissed nofun, nofun⟩
  unmade _ := ⟨rfl, rfl⟩

/-- A region that a turn does not concern has its account as before, also if it is new. -/
theorem Accounted.elsewhere (h : Accounted s id bases calls) (course : Course about s s' made)
    (hne : about ≠ some id) : Accounted s' id bases calls where
  account := by
    obtain ⟨total, account, htotal⟩ := h.account
    cases hregion : s.region? id with
    | some region =>
        have hsame := course.others id region hne hregion
        refine ⟨total, ?_, ?_⟩
        · rw [standing_of_region? hsame, ← standing_of_region? hregion]
          exact account
        · intro other hother
          obtain rfl := Option.some.inj (hsame.symm.trans hother)
          exact htotal _ hregion
    | none =>
        cases hregion' : s'.region? id with
        | none =>
            refine ⟨total, ?_, nofun⟩
            rw [standing_of_gone hregion', ← standing_of_gone hregion]
            exact account
        | some region =>
            obtain ⟨hle, hphase⟩ := course.fresh id region hregion hregion'
            obtain ⟨rfl, rfl⟩ := h.unmade hle
            refine ⟨region.total, ?_, ?_⟩
            · rw [standing_of_region? hregion', hphase]
              exact .unused nofun
            · intro other hother
              obtain rfl := Option.some.inj hother
              rfl
  unmade hle := h.unmade (Nat.le_trans course.next hle)

/-- The account of the region that a turn concerns goes on with the turn. -/
theorem Accounted.concerned (h : Accounted s id bases calls)
    (course : Course (some id) s s' made) :
    Accounted s' id (bases ++ Region.taken (s.standing id) (s'.standing id) made)
      (calls ++ made) := by
  obtain ⟨region, after, hregion, passage, htotal, hafter⟩ := course.subject id rfl
  obtain ⟨total, account, hof⟩ := h.account
  obtain rfl := hof region hregion
  rw [standing_of_region? hregion] at account ⊢
  have account' := account.passage passage
  refine ⟨⟨region.total, ?_⟩, ?_⟩
  · rcases hafter with hstays | ⟨hgone, hne, hunbegun⟩
    · rw [standing_of_region? hstays]
      refine ⟨account', ?_⟩
      intro other hother
      obtain rfl := Option.some.inj (hstays.symm.trans hother)
      exact htotal
    · rw [standing_of_gone hgone]
      refine ⟨?_, ?_⟩
      · exact account.closed passage hne hunbegun
      · intro other hother
        rw [hgone] at hother
        cases hother
  · intro hle
    obtain ⟨cell, hcell, -⟩ := Option.map_eq_some_iff.mp hregion
    have hlt := Slots.lt_next_of_find? hcell
    exact absurd (Nat.le_trans course.next hle) (Nat.not_le.mpr hlt)

/-- **Every turn keeps the account of every region.** -/
theorem Accounted.turn (ok : Orderly none s) (h : Accounted s id bases calls) (t : Turn) :
    Accounted (s.after t) id
      (bases ++ Region.taken (s.standing id) ((s.after t).standing id) (s.callsFor id t))
      (calls ++ s.callsFor id t) := by
  obtain ⟨-, made, course, hcalls⟩ := turn_course ok t
  by_cases hid : s.concerns t.move = some id
  · have hblock : t.move.onBlock = false := by
      by_contra hblock
      rw [concerns_of_onBlock (Bool.eq_true_of_not_eq_false hblock)] at hid
      cases hid
    rw [callsFor, if_pos hid, hcalls hblock]
    rw [hid] at course
    exact h.concerned course
  · have hempty : Region.taken (s.standing id) ((s.after t).standing id) [] = [] := by
      unfold Region.taken
      split
      · rfl
      · rfl
    rw [callsFor, if_neg hid, hempty, List.append_nil, List.append_nil]
    exact h.elsewhere course hid

/-- A whole run keeps the account of every region. -/
theorem Accounted.play (ok : Orderly none s) (h : Accounted s id bases calls)
    (ts : List Turn) :
    Accounted (s.play ts) id (bases ++ s.reservations id ts) (calls ++ s.history id ts) := by
  induction ts generalizing s bases calls with
  | nil =>
      rw [reservations, history, List.append_nil, List.append_nil]
      exact h
  | cons t ts ih =>
      rw [reservations, history, ← List.append_assoc, ← List.append_assoc]
      exact ih (turn_course ok t).1 (h.turn ok t)

/-- What has become of a region so far, by the mappings that it has taken and the calls that
were made for it. -/
inductive Fate (s : Session) (id : RegionId) : List Int → List Record → Prop
  /-- Somebody refers to it, and so it exists. -/
  | held {region : Region} {bases : List Int} {calls : List Record} (refers : s.Refers id)
      (found : s.region? id = some region)
      (account : Region.Account region.total region.phase bases calls) : Fate s id bases calls
  /-- It is gone and never had a mapping. -/
  | unused {total : Nat} {calls : List Record} (unheld : ¬ s.Refers id)
      (gone : s.region? id = none) (tried : Region.Attempts total calls) : Fate s id [] calls
  /-- It is gone, and the mapping that it had is released by the last call made for it. -/
  | released {total base : Nat} {result : Int} {attempts changes : List Record}
      (unheld : ¬ s.Refers id) (gone : s.region? id = none)
      (tried : Region.Attempts total attempts) (changed : Region.Changes base total changes) :
      Fate s id [(base : Int)]
        (attempts ++ .mmap total base :: (changes ++ [.munmap base total result]))

/-- An account that is right tells the fate of the region. -/
theorem Accounted.fate (ok : Orderly none s) (h : Accounted s id bases calls) :
    Fate s id bases calls := by
  obtain ⟨total, account, htotal⟩ := h.account
  cases hregion : s.region? id with
  | some region =>
      rw [standing_of_region? hregion] at account
      obtain rfl := htotal region hregion
      rcases ok.ended id region hregion with hrefers | hlapsed
      · exact .held hrefers hregion account
      · cases hlapsed
  | none =>
      have unheld : ¬ s.Refers id := by
        intro hrefers
        obtain ⟨region, hfound⟩ := ok.kept id hrefers
        rw [hregion] at hfound
        cases hfound
      rw [standing_of_gone hregion] at account
      generalize hphase : Region.Phase.closed = phase at account
      cases account with
      | unused => cases hphase
      | dismissed tried => exact .unused unheld hregion tried
      | began tried uses =>
          cases uses with
          | kept => cases hphase
          | released changed => exact .released unheld hregion tried changed

/-- A session in which nothing was made is in order. -/
theorem orderly_start : Orderly none {} where
  kept id hrefers := by
    cases hrefers with
    | name h => cases h
    | pool h => cases h
    | guard h => cases h
    | binding h => cases h
  ended _ _ h := by cases h
  sound _ _ h := by cases h

/-- What a turn does to a region that exists before it and that somebody refers to after it. -/
structure Heeds (s : Session) (t : Turn) (id : RegionId) : Prop where
  /-- Nothing is released for it and it is as open as it was, unless the turn is there to close
  it or it is lost over a change of its pages that failed. -/
  ends : t.move ≠ .step (.close id) → ∀ before, s.region? id = some before →
    ∃ after, (s.after t).region? id = some after ∧
      Region.KeptOrLost before after (s.callsFor id t)
  /-- A turn that lets go of things does nothing to it, unless it drops a pool that is over it. -/
  letsGo : t.move.letsGo = true → ∀ before, s.region? id = some before →
    (s.after t).region? id = some before ∧ s.callsFor id t = [] ∨
      ∃ a, t.move = .step (.dropAllocator a) ∧ s.beneath a = some id

/-- **Every turn heeds who refers to a region after it.** -/
theorem heeds_of_refers (ok : Orderly none s) (t : Turn) (refers : (s.after t).Refers id) :
    Heeds s t id := by
  obtain ⟨-, made, course, hcalls⟩ := turn_course ok t
  by_cases about : s.concerns t.move = some id
  · have hcallsFor : s.callsFor id t = s.calls t := if_pos about
    refine ⟨?_, ?_⟩
    · intro other before found
      obtain ⟨after, made, found', calls, spared⟩ :=
        carryOut_minds (w := { t.machine with self := s }) ok about other refers before found
      refine ⟨after, found', ?_⟩
      rw [hcallsFor, Session.calls, show (s.meet t).kernel.calls = _ from calls, List.drop_left]
      exact spared
    · intro letsGo before found
      rcases carryOut_untouched (w := { t.machine with self := s }) about letsGo refers with
        untouched | drops
      · refine Or.inl ⟨untouched.region.trans found, ?_⟩
        rw [hcallsFor, Session.calls, show (s.meet t).kernel.calls = _ from untouched.calls]
        exact List.drop_length
      · exact Or.inr drops
  · have hnone : s.callsFor id t = [] := if_neg about
    refine ⟨?_, ?_⟩
    · intro _ before found
      rw [hnone]
      exact ⟨before, course.others id before about found, .refl before⟩
    · intro _ before found
      exact Or.inl ⟨course.others id before about found, hnone⟩

/-- **Every mapping that a region takes is released exactly once**, whatever a thread does with
its regions, pools, factories and scopes, and whatever the system answers.

When nobody refers to a region any more it is gone.  If it had taken a mapping, that was one,
and after changes of its pages the last call made for it releases this mapping with its base
and its length; otherwise nothing was called for it but mappings that it could not begin at.

As long as somebody refers to a region it exists, and no end of another object releases it: a
turn that lets go of something makes no call for it and leaves it as it is.  A pool that is
dropped rolls it back first.  If a change of its pages fails then, as it may in every turn, it
is lost over that, and else only a turn that asks for it closes it.

A turn that concerns no region makes no call, unless it is about address space of no region.
At the end everything can be dropped, in turns that let go of things, and nobody refers to any
region then. -/
theorem reservations_released_once (ts : List Turn) (id : RegionId) :
    Fate (play {} ts) id (reservations {} id ts) (history {} id ts) ∧
      (∀ t : Turn, ((play {} ts).after t).Refers id → Heeds (play {} ts) t id) ∧
      (∀ t : Turn, t.move.onBlock = false → (play {} ts).concerns t.move = none →
        (play {} ts).calls t = []) ∧
      ∀ machine : Machine,
        let w := finish { machine with self := play {} ts }
        (∃ rest : List Turn, (∀ t ∈ rest, t.move.letsGo = true) ∧
          w.self = (play {} ts).play rest ∧ w.kernel.calls = (play {} ts).spent rest) ∧
        ∀ other, ¬ w.self.Refers other := by
  have ok : Orderly none (play {} ts) := play_orderly orderly_start ts
  refine ⟨?_, fun t refers => heeds_of_refers ok t refers, ?_, ?_⟩
  · have accounted := (accounted_start id).play orderly_start ts
    exact accounted.fate ok
  · intro t hblock hnone
    obtain ⟨-, made, course, hcalls⟩ := turn_course ok t
    rw [hcalls hblock]
    exact course.silent hnone
  · intro machine
    exact finish_lets_go (w := { machine with self := play {} ts }) ok

/-- A region that its thread gives up at once is kept by a pool, then by the binding alone,
and the end of the thread releases it. -/
example :
    let moves : List Move := [.step (.region 8000 .standard), .step (.pool 0),
      .step (.allocate 0 100 1 .plain), .step (.enter 0), .step (.dropRegion 0),
      .step (.dropAllocator 0), .unbind]
    let ts := moves.map fun move => (⟨Machine.reporting 4096 0, move⟩ : Turn)
    reservations {} 0 ts = [0x100000000000] ∧
      history {} 0 (ts.take 6) =
        [.mmap 8192 0x100000000000, .mprotect 0x100000000000 4096 .readWrite 0] ∧
      history {} 0 ts = history {} 0 (ts.take 6) ++ [.munmap 0x100000000000 8192 0] := by
  decide

end Session

end PageArena
