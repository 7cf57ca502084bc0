/-
One turn of a session.

A session is driven in turns: a step, or the end of the thread's binding.  As with a single
region, each turn brings the machine along that it meets, and nothing is assumed of that.

Each turn concerns at most one region, which the session tells from what the step names:
`concerns`.  `turn_course` says that every turn keeps to its course with that region, and that
all calls are for that region, unless the turn was about address space of no region.
-/
import Mathlib
import PageArena.Proofs.Session.Acts

namespace PageArena

open OsCall (Record)
open Act (Along Frame Still frame_still)

namespace Session

variable {s s' : Session} {w w₁ w' : World Session} {id a : Nat} {region : Region}
variable {ε α β : Type}

/-- What a thread does: a step, or it ends with a binding that was left. -/
inductive Move where
  | step (step : Step)
  | unbind
  deriving DecidableEq, Repr

/-- The region that a move is about.  A guard lets go of the region that is bound when its
scope is left, and so does the end of the thread. -/
def concerns (s : Session) : Move → Option RegionId
  | .step (.exit g) => (s.guards.find? g).bind fun _ => s.bound
  | .step step => s.subject step
  | .unbind => s.bound

/-- Steps on address space that is no region's. -/
def Step.onBlock : Step → Bool
  | .reserve .. | .commit .. | .uncommit .. | .release .. => true
  | _ => false

/-- Moves on address space that is no region's. -/
def Move.onBlock : Move → Bool
  | .step x => x.onBlock
  | .unbind => false

/-- The region that a move is about exists. -/
theorem known_of_concerns (ok : Orderly none s) {move : Move}
    (h : s.concerns move = some id) : ∃ region, s.region? id = some region := by
  have of_subject : ∀ step, s.subject step = some id →
      ∃ region, s.region? id = some region := by
    intro step hstep
    unfold subject at hstep
    rcases hr : step.namesRegion with _ | r
    · rcases ha : step.namesAllocator with _ | a
      · simp only [hr, ha] at hstep
        cases hstep
      · simp only [hr, ha] at hstep
        exact ok.kept id (.pool hstep)
    · simp only [hr] at hstep
      obtain ⟨region, hregion, rfl⟩ := Option.map_eq_some_iff.mp hstep
      exact ⟨region, region?_of_named? hregion⟩
  unfold concerns at h
  split at h
  · obtain ⟨guard, -, hbound⟩ := Option.bind_eq_some_iff.mp h
    exact ok.kept id (.binding hbound)
  · exact of_subject _ h
  · exact ok.kept id (.binding h)

/-! ### Steps that are nothing to the regions -/

/-- Calls may have been made, and the session has nothing to do with them. -/
def Aside (w w' : World Session) : Prop :=
  (∃ made, w'.kernel.calls = w.kernel.calls ++ made) ∧ w'.self = w.self

theorem frame_aside : Frame Aside where
  of_still h := ⟨⟨[], by rw [h.1, List.append_nil]⟩, h.2⟩
  trans := by
    rintro w w₁ w' ⟨⟨made, hmade⟩, h⟩ ⟨⟨made', hmade'⟩, h'⟩
    exact ⟨⟨made ++ made', by rw [hmade', hmade, List.append_assoc]⟩, h'.trans h⟩

/-- What is asked of the system directly. -/
theorem aside_of_leads {act : Act ArenaError Session α}
    (h : ∀ {w w' answer}, act.run w = (answer, w') → ∃ made, w.Leads w' w.self made) :
    Along Aside (call act) := by
  intro w
  obtain ⟨made, leads⟩ := h (show act.run w = ((act.run w).1, (act.run w).2) from rfl)
  exact ⟨⟨made, leads.calls⟩, leads.self⟩

/-- What is asked of the system after the library was got ready. -/
theorem aside_ready {act : Act ArenaError Session α}
    (h : ∀ {w w' answer}, act.run w = (answer, w') → ∃ made, w.Leads w' w.self made) :
    Along Aside (call (Host.init >>= fun _ => act)) :=
  .bind frame_aside (.of_still frame_aside Host.still_init) fun _ => aside_of_leads h

theorem aside_reserve (size : Nat) :
    Along Aside (call (Host.init >>= fun _ => VirtualMemory.reserve size)) :=
  aside_ready fun h => (VirtualMemory.reserve_reserves h).imp fun _ => And.right

theorem aside_commit (address length : Nat) :
    Along Aside (call (Host.init >>= fun _ => VirtualMemory.commit address length)) :=
  aside_ready fun h => (VirtualMemory.commit_answered h).imp fun _ => And.right

theorem aside_uncommit (address length : Nat) :
    Along Aside (call (Host.init >>= fun _ => VirtualMemory.uncommit address length)) :=
  aside_ready fun h => (VirtualMemory.uncommit_uncommits h).imp fun _ => And.right

theorem aside_release (address length : Nat) :
    Along Aside (call (VirtualMemory.release address length)) :=
  aside_of_leads fun h => (VirtualMemory.release_answered h).imp fun _ => And.right

theorem spends_of_aside {act : Act ε Session α} (h : Along Aside act) : Along Spends act :=
  fun w => ⟨(h w).1, (h w).2 ▸ .refl _⟩

theorem spends_of_rests {act : Act ε Session α} (h : Along Rests act) : Along Spends act :=
  fun w => (h w).spends

theorem rests_self : Along Rests (Act.self : Act ε Session Session) :=
  rests_of_still Act.still_self

theorem still_blockPart (number offset length : Nat) :
    Along Still (blockPart number offset length) := by
  refine .bind frame_still Act.still_self fun s => ?_
  refine .bind frame_still (still_need _) fun block => ?_
  exact iteInduction (motive := Along Still) (fun _ => Act.still_pure _) fun _ => Act.still_fail _

theorem still_reach (number offset length : Nat) :
    Along Still (reach number offset length) := by
  refine .bind frame_still Act.still_self fun s => ?_
  refine .bind frame_still (still_need _) fun lease => ?_
  exact iteInduction (motive := Along Still) (fun _ => Act.still_pure _) fun _ => Act.still_fail _

theorem still_write (number offset length : Nat) (byte : UInt8) :
    Along Still (write number offset length byte) := by
  refine .bind frame_still (still_reach _ _ _) fun part => ?_
  obtain ⟨⟨span, source⟩, start⟩ := part
  cases source with
  | slice r => exact Act.still_kernel fun _ => rfl
  | pool a r => exact Act.still_kernel fun _ => rfl
  | heap a => exact Act.still_heap _

theorem still_read (number offset length : Nat) :
    Along Still (read number offset length) := by
  refine .bind frame_still (still_reach _ _ _) fun part => ?_
  obtain ⟨⟨span, source⟩, start⟩ := part
  refine .bind frame_still Act.still_world fun w => ?_
  cases source with
  | slice r => exact Act.still_pure _
  | pool a r => exact Act.still_pure _
  | heap a => exact Act.still_pure _

/-! ### A step -/

/-- A step that needs a region that the thread refers to. -/
theorem goes_named (ok : Orderly none w.self) {r : RegionId} {next : Region → Work β}
    (h : ∀ region, w.self.region? r = some region → Goes (some r) w ((next region).run w).2) :
    Goes ((w.self.named? r).map fun _ => r) w ((need (w.self.named? r) >>= next).run w).2 := by
  cases hr : w.self.named? r with
  | none => exact goes_idle ok fun _ => nofun
  | some region => exact h region (region?_of_named? hr)

/-- A step on address space that is no region's is nothing to the regions. -/
theorem perform_spends (step : Step) (h : step.onBlock = true) (w : World Session) :
    Spends w ((perform step).run w).2 := by
  unfold perform
  rw [Act.run_self_bind]
  cases step with
  | reserve size =>
      refine Along.bind frame_spends (spends_of_aside (aside_reserve size)) (fun start => ?_) w
      exact spends_of_rests (.bind frame_rests (rests_addBlock _) fun _ => rests_pure _)
  | commit b offset length =>
      have part := spends_of_rests (rests_of_still (still_blockPart b offset length))
      refine Along.bind frame_spends part (fun start => ?_) w
      refine .bind frame_spends (spends_of_aside (aside_commit start length)) fun _ => ?_
      exact spends_of_rests (rests_pure _)
  | uncommit b offset length =>
      have part := spends_of_rests (rests_of_still (still_blockPart b offset length))
      refine Along.bind frame_spends part (fun start => ?_) w
      refine .bind frame_spends (spends_of_aside (aside_uncommit start length)) fun _ => ?_
      exact spends_of_rests (rests_pure _)
  | release b =>
      refine Along.bind frame_spends (spends_of_rests (rests_need _)) (fun block => ?_) w
      refine .bind frame_spends (spends_of_aside (aside_release _ _)) fun _ => ?_
      refine spends_of_rests (.bind frame_rests ?_ fun _ => rests_pure _)
      exact fun w => ⟨rfl, quiet_of_eq rfl rfl rfl rfl⟩
  | _ => cases h

/-- **Every other step goes the course of the region that it concerns.** -/
theorem perform_goes (ok : Orderly none w.self) (step : Step) (h : step.onBlock = false) :
    Goes (concerns w.self (.step step)) w ((perform step).run w).2 := by
  have known : ∀ {move : Move} id, concerns w.self move = some id →
      ∃ region, w.self.region? id = some region := fun id h => known_of_concerns ok h
  have resting : ∀ {move : Move} {act : Work Value}, Along Rests act →
      Goes (concerns w.self move) w (act.run w).2 :=
    fun h => goes_of_rests ok known (h w)
  unfold perform
  rw [Act.run_self_bind]
  cases step with
  | region size origin => exact goes_makeRegion ok size origin
  | checkpoint r =>
      refine goes_named ok fun region found => ?_
      refine goes_bind (goes_call (goes_onRegion ok found passing_checkpoint)) fun handle => ?_
      exact .bind frame_rests (rests_addHandle _) fun _ => rests_pure _
  | rollback r c =>
      refine goes_named ok fun region found => ?_
      refine of_need (goes_still ok found) fun handle _ => ?_
      exact goes_bind (goes_call (goes_onRegion ok found (passing_rollback handle)))
        fun _ => rests_pure _
  | sameHandle x y =>
      exact resting (.bind frame_rests (rests_need _) fun _ =>
        .bind frame_rests (rests_need _) fun _ => rests_pure _)
  | slice r size align =>
      refine goes_named ok fun region found => ?_
      refine goes_bind (goes_call (goes_onRegion ok found (passing_slice size align)))
        fun span => ?_
      exact .bind frame_rests (rests_addLease _) fun _ => rests_pure _
  | close r =>
      refine goes_named ok fun region found => ?_
      exact goes_bind (goes_call (goes_onRegion ok found passing_close))
        fun _ => rests_pure _
  | dropRegion r =>
      refine goes_named ok fun region found => ?_
      exact goes_bind (goes_dropRegion ok found) fun _ => rests_pure _
  | state r => exact resting (rests_pure _)
  | describeRegion r style =>
      exact resting (.bind frame_rests (rests_need _) fun _ => rests_pure _)
  | heap origin =>
      have still : Along Still (call (BatchHeap.ofSource origin.parts.1 origin.parts.2)) :=
        .bind frame_still (Act.still_settle _) fun _ => Act.still_pure _
      have habout : concerns w.self (.step (.heap origin)) = none := rfl
      rw [habout]
      refine goes_after still (goes_idle ok fun _ => nofun) fun _ hself => ?_
      have ok₁ := hself ▸ ok
      refine of_made (goes_idle ok₁ fun _ => nofun) fun heap _ => ?_
      refine goes_present ok₁ ?_ ?_
      · intro id hid
        cases hid
      · intro id hid
        cases hid
  | pool r =>
      refine goes_named ok fun region found => ?_
      exact goes_present ok (known_of_found found) (known_of_found found)
  | factory origin =>
      have still : Along Still (call (Factory.ofSource origin.parts.1 origin.parts.2)) :=
        .bind frame_still (Act.still_settle _) fun _ => Act.still_pure _
      refine resting (.bind frame_rests (rests_of_still still) fun factory => ?_)
      exact .bind frame_rests (rests_addFactory _) fun _ => rests_pure _
  | makeBound f =>
      refine of_need (goes_idle ok known) fun factory _ => ?_
      refine of_made (goes_idle ok known) fun allocator hmade => ?_
      refine goes_present ok known fun id hid => ?_
      rw [region?_of_makeOver hmade] at hid
      exact ok.kept id (.binding hid)
  | makeOver f r =>
      cases r with
      | none =>
          refine of_need (goes_idle ok known) fun factory _ => ?_
          refine of_made (goes_idle ok known) fun allocator hmade => ?_
          refine goes_present ok known fun id hid => ?_
          rw [region?_of_makeOver hmade] at hid
          cases hid
      | some r =>
          refine of_need (goes_idle ok known) fun factory _ => ?_
          refine goes_named ok fun region found => ?_
          refine of_made (goes_still ok found) fun allocator hmade => ?_
          refine goes_present ok (known_of_found found) ?_
          rw [region?_of_makeOver hmade]
          exact known_of_found found
  | intoEither a =>
      refine of_need (goes_idle ok known) fun allocator hfind => ?_
      refine goes_of_rests ok known ⟨rfl, quiet_putAllocator ?_⟩
      rw [beneath, hfind]
      rfl
  | allocate a size align manner => exact goes_allocate ok a size align manner
  | closeAllocator a => exact goes_bind (goes_closeAllocator ok a) fun _ => rests_pure _
  | closeAndAsk a =>
      refine goes_bind (goes_closeAllocator ok a) fun _ => ?_
      refine .bind frame_rests rests_self fun s => ?_
      exact .bind frame_rests (rests_need _) fun _ => rests_pure _
  | dropAllocator a =>
      refine of_need (goes_idle ok known) fun allocator hfind => ?_
      exact goes_bind (goes_dropAllocator ok hfind) fun _ => rests_pure _
  | info a => exact resting (.bind frame_rests (rests_need _) fun _ => rests_pure _)
  | strategyName a => exact resting (.bind frame_rests (rests_need _) fun _ => rests_pure _)
  | describeAllocator a style =>
      exact resting (.bind frame_rests (rests_need _) fun _ =>
        .bind frame_rests (rests_need _) fun _ => rests_pure _)
  | enter r =>
      refine goes_named ok fun region found => ?_
      exact goes_enter ok found
  | exit g =>
      refine of_need (goes_idle ok known) fun guard hfind => ?_
      have habout : concerns w.self (.step (.exit g)) = w.self.bound := by
        show (w.self.guards.find? g).bind _ = _
        rw [hfind]
        rfl
      rw [habout]
      exact goes_bind (goes_leave ok hfind) fun _ => rests_pure _
  | bound => exact resting (rests_pure _)
  | reserve size => cases h
  | commit b offset length => cases h
  | uncommit b offset length => cases h
  | release b => cases h
  | write number offset length byte => exact resting (rests_of_still (still_write number offset length byte))
  | read number offset length => exact resting (rests_of_still (still_read number offset length))
  | advance time => exact resting (rests_of_still (Act.still_kernel fun _ => rfl))
  | failNext failure => exact resting (rests_of_still (Act.still_kernel fun _ => rfl))
  | placeNext address => exact resting (rests_of_still (Act.still_kernel fun _ => rfl))
  | failAllocations n kind => exact resting (rests_of_still (Act.still_observer _))
  | malformed makes r a => exact resting (rests_of_still (Act.still_fail _))

/-- What a step that failed uses up is nothing to the regions. -/
theorem outcome_rests (step : Step) (w : World Session) :
    Rests ((perform step).run w).2 (outcome step w).2 := by
  unfold outcome
  rcases (perform step).run w with ⟨e | value, w₁⟩
  · cases step.makes with
    | none => exact .refl w₁
    | some kind => exact rests_skip kind w₁
  · exact .refl w₁

/-! ### Turns -/

/-- The world that a move leaves. -/
def carryOut (w : World Session) : Move → World Session
  | .step step => (outcome step w).2
  | .unbind => ((unbind : Act Empty Session Unit).run w).2

theorem carryOut_spends (w : World Session) {move : Move} (h : move.onBlock = true) :
    Spends w (carryOut w move) := by
  cases move with
  | step step => exact frame_spends.trans (perform_spends step h w) (outcome_rests step w).spends
  | unbind => cases h

theorem carryOut_goes (ok : Orderly none w.self) {move : Move} (h : move.onBlock = false) :
    Goes (w.self.concerns move) w (carryOut w move) := by
  cases move with
  | step step => exact (perform_goes ok step h).rests (outcome_rests step w)
  | unbind => exact goes_unbind ok

/-- A move that is about no region's address space concerns no region. -/
theorem concerns_of_onBlock {move : Move} (h : move.onBlock = true) (s : Session) :
    s.concerns move = none := by
  cases move with
  | step step =>
      cases step with
      | reserve size => rfl
      | commit b offset length => rfl
      | uncommit b offset length => rfl
      | release b => rfl
      | _ => cases h
  | unbind => cases h

/-- One move and the machine that it meets. -/
structure Turn where
  machine : Machine
  move : Move

/-- What becomes of a session in a turn: the world that is left. -/
def meet (s : Session) (t : Turn) : World Session := carryOut { t.machine with self := s } t.move

/-- The session after a turn. -/
def after (s : Session) (t : Turn) : Session := (s.meet t).self

/-- The calls to the operating system that are made in a turn. -/
def calls (s : Session) (t : Turn) : List Record :=
  (s.meet t).kernel.calls.drop t.machine.kernel.calls.length

/-- The session after some turns. -/
def play (s : Session) (ts : List Turn) : Session := ts.foldl after s

/-- **Every turn keeps to its course** with the region that it concerns, and makes no call but
for that region, or else for address space that is no region's. -/
theorem turn_course (ok : Orderly none s) (t : Turn) :
    Orderly none (s.after t) ∧ ∃ made, Course (s.concerns t.move) s (s.after t) made ∧
      (t.move.onBlock = false → s.calls t = made) := by
  obtain ⟨machine, move⟩ := t
  have okw : Orderly none ({ machine with self := s } : World Session).self := ok
  cases h : move.onBlock with
  | true =>
      obtain ⟨-, quiet⟩ := carryOut_spends { machine with self := s } h
      refine ⟨ok.quiet quiet, [], ?_, nofun⟩
      refine course_of_same quiet.next quiet.region? ?_
      rw [concerns_of_onBlock h]
      exact fun _ => nofun
  | false =>
      obtain ⟨made, hcalls, course, ok'⟩ := carryOut_goes okw h
      refine ⟨ok', made, course, fun _ => ?_⟩
      have hmeet : (s.meet ⟨machine, move⟩).kernel.calls = machine.kernel.calls ++ made := hcalls
      rw [calls, hmeet, List.drop_left]

/-- A session stays in order. -/
theorem play_orderly (ok : Orderly none s) (ts : List Turn) : Orderly none (s.play ts) := by
  induction ts generalizing s with
  | nil => exact ok
  | cons t ts ih => exact ih (turn_course ok t).1

end Session

end PageArena
