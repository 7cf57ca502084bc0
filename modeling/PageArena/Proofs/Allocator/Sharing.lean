/-
Pools that share a region.

A region has one cursor and one stack, and all pools on it share both.  A pool is closed by
bringing the cursor back to where it was when that pool began, and this frees everything
that was taken since, whoever took it.  Closing pools in the reverse order of their beginning
is therefore not enough to keep a span until its own pool is closed: if an outer pool takes
memory while an inner one is open, then that goes with the inner one
(`span_lost_with_inner_pool`).

What a span does outlive is every pool that begins after it was given.  `Keeps` says how the
region stands as long as no pool has been ended that had begun by then: the stack of that
time is still at the bottom, and everything saved above it, and the cursor, is past the end
of the span.
-/
import Mathlib
import PageArena.Proofs.Allocator.Pool
import PageArena.Proofs.Region.LiveSpans
import PageArena.Proofs.Region.Steady

namespace PageArena

open OsCall (Record)

/-- A region and the pools that share it. -/
structure Commons where
  region : Region
  pools : Nat → Pool

namespace Commons

/-- What can be done with a pool. -/
inductive Errand where
  | allocate (size align : Nat) (zeroed : Bool)
  | close
  | drop
  deriving DecidableEq, Repr

/-- The operation of an errand, and the span that it gives if it gives one. -/
def Errand.act : Errand → Act ArenaError Tenancy (Option Span)
  | .allocate size align zeroed => do
    return some (← if zeroed then Pool.allocateZeroed size align else Pool.allocate size align)
  | .close => do
    Pool.close
    return none
  | .drop => do
    Pool.discard.mapError Empty.elim
    return none

/-- Whether an errand ends its pool. -/
def Errand.Ends : Errand → Prop
  | .allocate .. => False
  | .close | .drop => True

/-- One errand of one pool, and the machine that it meets. -/
structure Turn where
  machine : Machine
  pool : Nat
  errand : Errand

/-- What becomes of a pool and the region in a turn. -/
def meet (c : Commons) (u : Turn) : Except ArenaError (Option Span) × World Tenancy :=
  u.errand.act.run { u.machine with self := ⟨c.pools u.pool, c.region⟩ }

/-- The answer of a turn. -/
def answer (c : Commons) (u : Turn) : Except ArenaError (Option Span) := (c.meet u).1

/-- The calls to the operating system that are made in a turn. -/
def calls (c : Commons) (u : Turn) : List Record :=
  (c.meet u).2.kernel.calls.drop u.machine.kernel.calls.length

/-- The region and its pools after a turn. -/
def after (c : Commons) (u : Turn) : Commons :=
  { region := (c.meet u).2.self.region
    pools := fun p => if p = u.pool then (c.meet u).2.self.pool else c.pools p }

/-- The region and its pools after a run. -/
def run (c : Commons) (us : List Turn) : Commons := us.foldl after c

/-- A region with pools of which none has begun. -/
def of (r : Region) : Commons := ⟨r, fun _ => .fresh⟩

/-- A pool has taken its checkpoint, and has not been ended. -/
def Begun (c : Commons) (p : Nat) : Prop := ∃ handle, c.pools p = .active handle

/-- Of the pools that have begun this one began last: its place on the stack is the highest. -/
def Newest (c : Commons) (p : Nat) : Prop :=
  ∃ handle, c.pools p = .active handle ∧
    ∀ q other, c.pools q = .active other → other.index ≤ handle.index

/-- Pools are ended in the reverse order of their beginnings. -/
def Nested (c : Commons) : List Turn → Prop
  | [] => True
  | u :: us => (u.errand.Ends → c.Begun u.pool → c.Newest u.pool) ∧ (c.after u).Nested us

/-- No pool is ended that had begun before these turns. -/
def Spares (c : Commons) (us : List Turn) : Prop :=
  ∀ u ∈ us, u.errand.Ends → ¬ c.Begun u.pool

variable {c given : Commons} {u : Turn} {floor : Nat}

/-! ### One turn -/

/-- How a turn can go, with what is answered and the calls that are made. -/
inductive Goes (t : Tenancy) (clock : Nat) :
    Errand → Except ArenaError (Option Span) → Tenancy → List Record → Prop
  | allocate {size align : Nat} {zeroed : Bool} {answer : Except ArenaError Span} {t' : Tenancy}
      {made : List Record} (h : Pool.Allocates size align t clock answer t' made) :
      Goes t clock (.allocate size align zeroed) (answer.map some) t' made
  | close {answer : Except ArenaError Unit} {t' : Tenancy} {made : List Record}
      (h : Pool.Closes t clock answer t' made) :
      Goes t clock .close (answer.map fun _ => none) t' made
  /-- Nobody hears what the end of a pool comes to. -/
  | drop {close : Except ArenaError Unit} {t' : Tenancy} {made : List Record}
      (h : Pool.Closes t clock close t' made) : Goes t clock .drop (.ok none) t' made

theorem meet_goes (ok : Region.Sound c.region) (u : Turn) :
    Goes ⟨c.pools u.pool, c.region⟩ u.machine.kernel.clock u.errand (c.answer u)
      (c.meet u).2.self (c.calls u) := by
  obtain ⟨machine, p, errand⟩ := u
  unfold answer calls meet
  set w : World Tenancy := { machine with self := ⟨c.pools p, c.region⟩ } with hw
  have okw : Region.Sound w.self.region := ok
  cases errand with
  | allocate size align zeroed =>
      cases zeroed with
      | false =>
          simp only [Errand.act, Bool.false_eq_true, if_false, Region.run_bind_pure]
          rcases h : (Pool.allocate size align).run w with ⟨answer, w'⟩
          exact .allocate (Region.way_of_leads (Pool.allocate_allocates okw h))
      | true =>
          simp only [Errand.act, if_true, Region.run_bind_pure]
          rcases h : (Pool.allocateZeroed size align).run w with ⟨answer, w'⟩
          exact .allocate (Region.way_of_leads (Pool.allocateZeroed_allocates okw h))
  | close =>
      simp only [Errand.act, Region.run_bind_pure]
      rcases h : Pool.close.run w with ⟨answer, w'⟩
      exact .close (Region.way_of_leads (Pool.close_closes okw h))
  | drop =>
      simp only [Errand.act, Region.run_bind_pure, Act.run_mapError]
      rcases h : Pool.discard.run w with ⟨answer, w'⟩
      obtain ⟨close, way⟩ := Pool.discard_closes okw h
      cases answer with
      | ok u => exact .drop (Region.way_of_leads way)
      | error e => cases e

/-- How a turn can go, by whether the pool is ended. -/
inductive Meets (t : Tenancy) (clock : Nat) :
    Errand → Except ArenaError (Option Span) → Tenancy → Prop
  | allocate {size align : Nat} {zeroed : Bool} {answer : Except ArenaError Span} {t' : Tenancy}
      {made : List Record} (h : Pool.Allocates size align t clock answer t' made) :
      Meets t clock (.allocate size align zeroed) (answer.map some) t'
  | ended {errand : Errand} {answer : Except ArenaError (Option Span)}
      {close : Except ArenaError Unit} {t' : Tenancy} {made : List Record}
      (ends : errand.Ends) (silent : ∀ span, answer ≠ .ok (some span))
      (h : Pool.Closes t clock close t' made) : Meets t clock errand answer t'

theorem meet_meets (ok : Region.Sound c.region) (u : Turn) :
    Meets ⟨c.pools u.pool, c.region⟩ u.machine.kernel.clock u.errand (c.answer u)
      (c.meet u).2.self := by
  have hgoes := meet_goes ok u
  generalize (c.meet u).2.self = t' at hgoes
  generalize u.errand = errand at hgoes
  generalize c.answer u = answer at hgoes
  generalize c.calls u = made at hgoes
  cases hgoes with
  | allocate h => exact .allocate h
  | drop h => exact .ended trivial nofun h
  | @close answer _ _ h =>
      refine .ended trivial ?_ h
      intro span hspan
      cases answer with
      | ok a => cases hspan
      | error e => cases hspan

theorem after_continues (ok : Region.Sound c.region) (u : Turn) :
    Region.Continues c.region (c.after u).region := by
  have hmeets := meet_meets ok u
  show Region.Continues c.region (c.meet u).2.self.region
  generalize (c.meet u).2.self = t' at hmeets
  generalize u.errand = errand at hmeets
  generalize c.answer u = answer at hmeets
  cases hmeets with
  | allocate h => exact h.continues
  | ended ends silent h => exact h.continues ok

theorem run_continues (ok : Region.Sound c.region) (us : List Turn) :
    Region.Continues c.region (c.run us).region := by
  induction us generalizing c with
  | nil => exact .refl c.region
  | cons u us ih =>
      have first := after_continues ok u
      exact first.trans (ih (first.sound ok))

/-- What a turn does to a region that is open after it, and to the pools. -/
inductive Shifts (c : Commons) (u : Turn) (c' : Commons) : Prop
  /-- At most the cursor was moved up. -/
  | stayed (saved : c'.region.saved = c.region.saved)
      (cursor : c.region.cursor ≤ c'.region.cursor) (pools : c'.pools = c.pools)
  /-- The pool has begun. -/
  | begun (fresh : c.pools u.pool = .fresh)
      (saved : c'.region.saved = c.region.cursor :: c.region.saved)
      (cursor : c.region.cursor ≤ c'.region.cursor)
      (pool : c'.pools u.pool = .active ⟨c.region.depth⟩)
      (others : ∀ p ≠ u.pool, c'.pools p = c.pools p)
  /-- The pool was ended and had nothing to free, or was not allowed to. -/
  | left (ends : u.errand.Ends) (region : c'.region = c.region)
      (pool : c'.pools u.pool = .closed) (others : ∀ p ≠ u.pool, c'.pools p = c.pools p)
  /-- The pool was ended and has freed what was taken since it began. -/
  | freed {handle : Handle} {older : List Nat} (ends : u.errand.Ends)
      (active : c.pools u.pool = .active handle) (newest : older.length = handle.index)
      (saved : c.region.saved = c'.region.cursor :: older) (rest : c'.region.saved = older)
      (pool : c'.pools u.pool = .closed) (others : ∀ p ≠ u.pool, c'.pools p = c.pools p)

/-- A pool that is not the one of the turn stands where it stood. -/
theorem pools_after_of_ne (c : Commons) (u : Turn) :
    ∀ p ≠ u.pool, (c.after u).pools p = c.pools p := by
  intro p hp
  exact if_neg hp

theorem pools_after_self (c : Commons) (u : Turn) :
    (c.after u).pools u.pool = (c.meet u).2.self.pool := if_pos rfl

/-- A turn in which the pool stays where it stood moves no pool. -/
theorem pools_after_of_same (h : (c.meet u).2.self.pool = c.pools u.pool) :
    (c.after u).pools = c.pools := by
  funext p
  by_cases hp : p = u.pool
  · rw [hp, pools_after_self, h]
  · exact pools_after_of_ne c u p hp

/-- **One turn**, if it leaves the region open. -/
theorem shifts_of_open (ok : Region.Sound c.region) (u : Turn)
    (hopen : (c.after u).region.phase ≠ .closed) :
    Shifts c u (c.after u) ∧
      ∀ base, c.region.phase = .reserved base → (c.after u).region.phase = .reserved base := by
  have hmeets := meet_meets ok u
  have others := pools_after_of_ne c u
  have hpool := pools_after_self c u
  have hsame := pools_after_of_same (c := c) (u := u)
  have hregion : (c.after u).region = (c.meet u).2.self.region := rfl
  rw [hregion] at hopen
  generalize (c.meet u).2.self = t' at hmeets hpool hsame hregion hopen
  generalize hanswer : c.answer u = answer at hmeets
  generalize herrand : u.errand = errand at hmeets
  cases hmeets with
  | allocate h =>
      cases h with
      | closed h =>
          refine ⟨.stayed ?_ ?_ (hsame rfl), ?_⟩
          · rw [hregion]
          · rw [hregion]
          · rw [hregion]
            exact fun _ => id
      | active h slices =>
          obtain ⟨hsaved, hcursor, hphase⟩ := slices.of_not_closed ok hopen
          refine ⟨.stayed ?_ ?_ (hsame rfl), ?_⟩
          · rw [hregion]
            exact hsaved
          · rw [hregion]
            exact hcursor
          · rw [hregion]
            exact hphase
      | unstarted h checkpoints =>
          cases checkpoints with
          | unobtained obtains =>
              obtain ⟨hsaved, hcursor, hphase⟩ := obtains.of_sound ok
              refine ⟨.stayed ?_ ?_ (hsame rfl), ?_⟩
              · rw [hregion]
                exact hsaved
              · rw [hregion]
                exact Nat.le_of_eq hcursor.symm
              · rw [hregion]
                exact hphase
      | started h checkpoints slices =>
          have ok₁ := checkpoints.continues.sound ok
          cases checkpoints with
          | pushed obtains =>
              obtain ⟨hsaved, hcursor, hphase⟩ := obtains.of_sound ok
              obtain ⟨hsaved', hcursor', hphase'⟩ := slices.of_not_closed ok₁ hopen
              refine ⟨.begun h ?_ ?_ ?_ others, ?_⟩
              · rw [hregion, hsaved']
                show _ :: _ = _
                rw [hsaved, hcursor]
              · rw [hregion]
                exact hcursor ▸ hcursor'
              · rw [hpool, Region.depth, Region.depth, hsaved]
              · intro base hbase
                rw [hregion]
                exact hphase' base (hphase base hbase)
  | ended ends silent h =>
      have ends' : u.errand.Ends := herrand ▸ ends
      cases h with
      | again h =>
          refine ⟨.left ends' hregion (hpool.trans h) others, ?_⟩
          rw [hregion]
          exact fun _ => id
      | unused h =>
          refine ⟨.left ends' hregion hpool others, ?_⟩
          rw [hregion]
          exact fun _ => id
      | rolled h rolls =>
          cases rolls with
          | unreserved h' =>
              refine ⟨.left ends' hregion hpool others, ?_⟩
              rw [hregion]
              exact fun _ => id
          | stale phase h' =>
              refine ⟨.left ends' hregion hpool others, ?_⟩
              rw [hregion]
              exact fun _ => id
          | popped phase saved newest trims =>
              obtain ⟨hphase, hsaved, hcursor⟩ := trims.of_not_closed hopen
              refine ⟨.freed ends' h newest ?_ ?_ hpool others, ?_⟩
              · rw [hregion, hcursor]
                exact saved
              · rw [hregion, hsaved]
              · intro base hbase
                rw [hregion, hphase]
                exact hbase

/-! ### Places on the stack -/

/-- Pools that have begun hold different places on the stack. -/
structure Seated (c : Commons) : Prop where
  below : ∀ p handle, c.pools p = .active handle → handle.index < c.region.depth
  apart : ∀ p q handle, c.pools p = .active handle → c.pools q = .active handle → p = q

theorem seated_of (r : Region) : Seated (of r) where
  below p handle h := by cases h
  apart p q handle h := by cases h

theorem Seated.step (seated : Seated c) (ok : Region.Sound c.region)
    (hopen : (c.after u).region.phase ≠ .closed) : Seated (c.after u) := by
  obtain ⟨hshifts, -⟩ := shifts_of_open ok u hopen
  generalize c.after u = c' at hshifts
  cases hshifts with
  | stayed saved cursor pools =>
      have hdepth : c'.region.depth = c.region.depth := congrArg List.length saved
      exact ⟨by rw [pools, hdepth]; exact seated.below, by rw [pools]; exact seated.apart⟩
  | begun fresh saved cursor pool others =>
      have hdepth : c'.region.depth = c.region.depth + 1 := congrArg List.length saved
      have hbelow : ∀ p handle, p ≠ u.pool → c'.pools p = .active handle →
          handle.index < c.region.depth := by
        intro p handle hp h
        rw [others p hp] at h
        exact seated.below p handle h
      refine ⟨?_, ?_⟩
      · intro p handle h
        by_cases hp : p = u.pool
        · rw [hp, pool] at h
          obtain rfl := Pool.active.inj h
          rw [hdepth]
          exact Nat.lt_succ_self _
        · rw [hdepth]
          exact Nat.lt_succ_of_lt (hbelow p handle hp h)
      · -- Nobody else holds the place on top.
        intro p q handle h h'
        by_cases hp : p = u.pool
        · by_cases hq : q = u.pool
          · exact hp.trans hq.symm
          · rw [hp, pool] at h
            obtain rfl := Pool.active.inj h
            exact absurd (hbelow q _ hq h') (Nat.lt_irrefl _)
        · by_cases hq : q = u.pool
          · rw [hq, pool] at h'
            obtain rfl := Pool.active.inj h'
            exact absurd (hbelow p _ hp h) (Nat.lt_irrefl _)
          · rw [others p hp] at h
            rw [others q hq] at h'
            exact seated.apart p q handle h h'
  | left ends region pool others =>
      have hactive : ∀ p handle, c'.pools p = .active handle → c.pools p = .active handle := by
        intro p handle h
        by_cases hp : p = u.pool
        · rw [hp, pool] at h
          cases h
        · rwa [others p hp] at h
      refine ⟨?_, ?_⟩
      · intro p handle h
        rw [region]
        exact seated.below p handle (hactive p handle h)
      · intro p q handle h h'
        exact seated.apart p q handle (hactive p handle h) (hactive q handle h')
  | @freed freedHandle older ends active newest saved rest pool others =>
      have hdepth : c.region.depth = c'.region.depth + 1 := by
        rw [Region.depth, Region.depth, saved, rest, List.length_cons]
      have hplace : freedHandle.index = c'.region.depth := by
        rw [← newest, Region.depth, rest]
      have hactive : ∀ p handle, c'.pools p = .active handle →
          p ≠ u.pool ∧ c.pools p = .active handle := by
        intro p handle h
        by_cases hp : p = u.pool
        · rw [hp, pool] at h
          cases h
        · exact ⟨hp, by rwa [others p hp] at h⟩
      refine ⟨?_, ?_⟩
      · -- The place that is given up was nobody else's.
        intro p handle h
        obtain ⟨hp, h⟩ := hactive p handle h
        have hlow := seated.below p handle h
        have hne : handle ≠ freedHandle := by
          rintro rfl
          exact hp (seated.apart p u.pool handle h active)
        have hindex : handle.index ≠ freedHandle.index :=
          fun heq => hne (congrArg Handle.mk heq)
        omega
      · intro p q handle h h'
        exact seated.apart p q handle (hactive p handle h).2 (hactive q handle h').2

/-- A run that leaves the region open has found it open all the time. -/
theorem open_of_run (ok : Region.Sound c.region) {us : List Turn}
    (hopen : (c.run us).region.phase ≠ .closed) : c.region.phase ≠ .closed := by
  intro hclosed
  exact hopen ((run_continues ok us).closed hclosed)

theorem Seated.run (seated : Seated c) (ok : Region.Sound c.region) (us : List Turn)
    (hopen : (c.run us).region.phase ≠ .closed) : Seated (c.run us) := by
  induction us generalizing c with
  | nil => exact seated
  | cons u us ih =>
      have ok' := (after_continues ok u).sound ok
      exact ih (seated.step ok (open_of_run ok' hopen)) ok' hopen

/-! ### What stays below the cursor -/

/-- What was in use at a given moment is still in use: the stack of that moment is at the
bottom, and the cursor and all that was saved since lie where the cursor was or above. -/
structure Keeps (given c : Commons) : Prop where
  stack : ∃ newer, c.region.saved = newer ++ given.region.saved ∧
    ∀ cursor ∈ newer, given.region.cursor ≤ cursor
  cursor : given.region.cursor ≤ c.region.cursor
  /-- Who had begun by then still holds its place. -/
  held : ∀ p handle, given.pools p = .active handle → c.pools p = .active handle
  /-- Who began since then holds a place above those. -/
  above : ∀ p handle, c.pools p = .active handle →
    given.pools p = .active handle ∨ given.region.depth ≤ handle.index
  base : ∀ base, given.region.phase = .reserved base → c.region.phase = .reserved base

theorem Keeps.refl (given : Commons) : Keeps given given where
  stack := ⟨[], rfl, by simp⟩
  cursor := Nat.le_refl _
  held _ _ h := h
  above _ _ h := Or.inl h
  base _ h := h

/-- **One turn** keeps what was in use, unless it ends a pool that had begun by then. -/
theorem Keeps.step (keeps : Keeps given c) (ok : Region.Sound c.region)
    (younger : u.errand.Ends → ¬ given.Begun u.pool)
    (hopen : (c.after u).region.phase ≠ .closed) : Keeps given (c.after u) := by
  obtain ⟨hshifts, hphase⟩ := shifts_of_open ok u hopen
  obtain ⟨newer, hstack, hnewer⟩ := keeps.stack
  have hbase : ∀ base, given.region.phase = .reserved base →
      (c.after u).region.phase = .reserved base := fun base h => hphase base (keeps.base base h)
  generalize c.after u = c' at hshifts hbase
  cases hshifts with
  | stayed saved cursor pools =>
      exact
        { stack := ⟨newer, saved.trans hstack, hnewer⟩
          cursor := Nat.le_trans keeps.cursor cursor
          held := by rw [pools]; exact keeps.held
          above := by rw [pools]; exact keeps.above
          base := hbase }
  | begun fresh saved cursor pool others =>
      refine ⟨⟨c.region.cursor :: newer, ?_, ?_⟩, Nat.le_trans keeps.cursor cursor, ?_, ?_, hbase⟩
      · rw [saved, hstack, List.cons_append]
      · exact List.forall_mem_cons.mpr ⟨keeps.cursor, hnewer⟩
      · intro p handle h
        have h' := keeps.held p handle h
        have hp : p ≠ u.pool := by
          rintro rfl
          rw [fresh] at h'
          cases h'
        rw [others p hp]
        exact h'
      · intro p handle h
        by_cases hp : p = u.pool
        · rw [hp, pool] at h
          obtain rfl := Pool.active.inj h
          refine Or.inr ?_
          show given.region.saved.length ≤ c.region.saved.length
          rw [hstack, List.length_append]
          exact Nat.le_add_left _ _
        · rw [others p hp] at h
          exact keeps.above p handle h
  | left ends region pool others =>
      refine ⟨⟨newer, region ▸ hstack, hnewer⟩, region ▸ keeps.cursor, ?_, ?_, hbase⟩
      · intro p handle h
        have hp : p ≠ u.pool := by
          rintro rfl
          exact younger ends ⟨handle, h⟩
        rw [others p hp]
        exact keeps.held p handle h
      · intro p handle h
        by_cases hp : p = u.pool
        · rw [hp, pool] at h
          cases h
        · rw [others p hp] at h
          exact keeps.above p handle h
  | @freed freedHandle older ends active newest saved rest pool others =>
      -- The pool began since, so its checkpoint is one of the newer ones.
      have hplace : given.region.depth ≤ freedHandle.index := by
        rcases keeps.above u.pool freedHandle active with h | h
        · exact absurd ⟨freedHandle, h⟩ (younger ends)
        · exact h
      have hlength : older.length + 1 = newer.length + given.region.depth := by
        rw [Region.depth, ← List.length_append, ← hstack, saved, List.length_cons]
      rw [saved] at hstack
      cases newer with
      | nil =>
          simp at hlength
          omega
      | cons cursor newer =>
          obtain ⟨rfl, hrest⟩ := List.cons.inj hstack
          obtain ⟨hcursor, hnewer⟩ := List.forall_mem_cons.mp hnewer
          refine ⟨⟨newer, rest.trans hrest, hnewer⟩, hcursor, ?_, ?_, hbase⟩
          · intro p handle h
            have hp : p ≠ u.pool := by
              rintro rfl
              exact younger ends ⟨handle, h⟩
            rw [others p hp]
            exact keeps.held p handle h
          · intro p handle h
            by_cases hp : p = u.pool
            · rw [hp, pool] at h
              cases h
            · rw [others p hp] at h
              exact keeps.above p handle h

theorem Keeps.run (keeps : Keeps given c) (ok : Region.Sound c.region) {us : List Turn}
    (spares : given.Spares us) (hopen : (c.run us).region.phase ≠ .closed) :
    Keeps given (c.run us) := by
  induction us generalizing c with
  | nil => exact keeps
  | cons u us ih =>
      obtain ⟨hfirst, hrest⟩ := List.forall_mem_cons.mp spares
      have ok' := (after_continues ok u).sound ok
      exact ih (keeps.step ok hfirst (open_of_run ok' hopen)) ok' hrest hopen

/-- A pool that has begun holds its place until it is ended, even if the region is lost. -/
theorem active_after (ok : Region.Sound c.region) {p : Nat} {handle : Handle}
    (h : c.pools p = .active handle) (other : u.errand.Ends → u.pool ≠ p) :
    (c.after u).pools p = .active handle := by
  by_cases hp : p = u.pool
  · subst hp
    have hmeets := meet_meets ok u
    rw [pools_after_self]
    generalize (c.meet u).2.self = t' at hmeets
    generalize u.errand = errand at hmeets other
    generalize c.answer u = answer at hmeets
    cases hmeets with
    | ended ends silent closes => exact absurd rfl (other ends)
    | allocate allocates =>
        cases allocates with
        | closed hclosed =>
            rw [h] at hclosed
            cases hclosed
        | active hactive slices => exact h
        | unstarted hfresh checkpoints =>
            rw [h] at hfresh
            cases hfresh
        | started hfresh checkpoints slices =>
            rw [h] at hfresh
            cases hfresh
  · rw [pools_after_of_ne c u p hp]
    exact h

/-- Where pools are ended in the reverse order of their beginnings, none that had begun is
ended before the newest of them. -/
theorem spares_of_nested (seated : Seated given) {newest : Nat} (hnewest : given.Newest newest)
    {us : List Turn} (ok : Region.Sound c.region)
    (held : ∀ p handle, given.pools p = .active handle → c.pools p = .active handle)
    (nested : c.Nested us) (lasts : ∀ u ∈ us, u.errand.Ends → u.pool ≠ newest) :
    given.Spares us := by
  induction us generalizing c with
  | nil =>
      intro u hu
      cases hu
  | cons u us ih =>
      obtain ⟨hfirst, hrest⟩ := List.forall_mem_cons.mp lasts
      have spared : u.errand.Ends → ¬ given.Begun u.pool := by
        rintro ends ⟨other, hother⟩
        -- It is the newest by now, so its place is not below that of the newest of then.
        obtain ⟨handle, hactive, htop⟩ := hnewest
        obtain ⟨other', hother', htop'⟩ := nested.1 ends ⟨other, held u.pool other hother⟩
        rw [held u.pool other hother] at hother'
        obtain rfl := Pool.active.inj hother'
        have hle := htop' newest handle (held newest handle hactive)
        have hge := htop u.pool other hother
        have hsame : other = handle := congrArg Handle.mk (Nat.le_antisymm hge hle)
        rw [hsame] at hother
        exact hfirst ends (seated.apart u.pool newest handle hother hactive)
      refine List.forall_mem_cons.mpr ⟨spared, ih ?_ ?_ nested.2 hrest⟩
      · exact (after_continues ok u).sound ok
      · intro p other hother
        refine active_after ok (held p other hother) ?_
        rintro ends rfl
        exact spared ends ⟨other, hother⟩

/-- A span that is given begins at the cursor or after it, and the cursor is at its end then,
unless there is nothing in it. -/
theorem region_of_given (ok : Region.Sound c.region) {span : Span}
    (gives : c.answer u = .ok (some span)) :
    ∃ base, (c.after u).region.phase = .reserved base ∧
      base + c.region.cursor ≤ span.start ∧
      (0 < span.length → base + (c.after u).region.cursor = span.stop) := by
  have hmeets := meet_meets ok u
  rw [gives] at hmeets
  show ∃ base, (c.meet u).2.self.region.phase = .reserved base ∧ _ ∧
    (_ → base + (c.meet u).2.self.region.cursor = _)
  generalize (c.meet u).2.self = t' at hmeets
  generalize u.errand = errand at hmeets
  generalize hanswer : (Except.ok (some span) : Except ArenaError _) = answer at hmeets
  cases hmeets with
  | ended ends silent h => exact absurd hanswer.symm (silent span)
  | @allocate size align _ allocated _ _ h =>
      cases allocated with
      | error e => cases hanswer
      | ok given =>
          obtain rfl := Option.some.inj (Except.ok.inj hanswer)
          cases h with
          | active h slices =>
              obtain ⟨base, hbase, hstart, hlength, hstop⟩ := slices.of_ok ok
              refine ⟨base, hbase, hstart, ?_⟩
              intro hpos
              rw [Span.stop, hlength]
              exact hstop (hlength ▸ hpos)
          | started h checkpoints slices =>
              have ok₁ := checkpoints.continues.sound ok
              obtain ⟨base, hbase, hstart, hlength, hstop⟩ := slices.of_ok ok₁
              refine ⟨base, hbase, ?_, ?_⟩
              · cases checkpoints with
                | pushed obtains =>
                    obtain ⟨-, hcursor, -⟩ := obtains.of_sound ok
                    rw [← hcursor]
                    exact hstart
              · intro hpos
                rw [Span.stop, hlength]
                exact hstop (hlength ▸ hpos)

/-- Everything that is saved once a turn is over was at most the cursor before the turn, if
the turn ends no pool. -/
theorem saved_le_of_given (ok : Region.Sound c.region) {span : Span}
    (gives : c.answer u = .ok (some span)) :
    ∀ cursor ∈ (c.after u).region.saved, cursor ≤ c.region.cursor := by
  have hchain := (List.pairwise_cons.mp ok.chain).1
  obtain ⟨base, hbase, -⟩ := region_of_given ok gives
  have hopen : (c.after u).region.phase ≠ .closed := by
    rw [hbase]
    exact nofun
  have hends : ¬ u.errand.Ends := by
    intro hends
    have hmeets := meet_meets ok u
    rw [gives] at hmeets
    generalize u.errand = errand at hmeets hends
    generalize hanswer : (Except.ok (some span) : Except ArenaError _) = answer at hmeets
    cases hmeets with
    | allocate h => exact hends
    | ended ends silent h => exact silent span hanswer.symm
  cases (shifts_of_open ok u hopen).1 with
  | stayed saved cursor pools =>
      rw [saved]
      exact hchain
  | begun fresh saved cursor pool others =>
      rw [saved]
      exact List.forall_mem_cons.mpr ⟨Nat.le_refl _, hchain⟩
  | left ends region pool others => exact absurd ends hends
  | freed ends active newest saved rest pool others => exact absurd ends hends

theorem after_keepsOpen (calm : u.machine.kernel.failures = [])
    (hopen : c.region.phase ≠ .closed) : (c.after u).region.phase ≠ .closed := by
  obtain ⟨machine, p, errand⟩ := u
  have keeps : Act.KeepsOpen Tenancy.region errand.act := by
    cases errand with
    | allocate size align zeroed =>
        cases zeroed with
        | false => exact .bind (Pool.allocate_keepsOpen size align) fun span => .pure _
        | true => exact .bind (Pool.allocateZeroed_keepsOpen size align) fun span => .pure _
    | close => exact .bind Pool.close_keepsOpen fun _ => .pure none
    | drop => exact .bind Pool.discard_keepsOpen fun _ => .pure none
  exact (keeps { machine with self := ⟨c.pools p, c.region⟩ } calm hopen).2

/-- Where no failure is in waiting a region that only pools use stays open. -/
theorem run_keepsOpen {us : List Turn} (calm : ∀ u ∈ us, u.machine.kernel.failures = [])
    (hopen : c.region.phase ≠ .closed) : (c.run us).region.phase ≠ .closed := by
  induction us generalizing c with
  | nil => exact hopen
  | cons u us ih =>
      obtain ⟨hfirst, hrest⟩ := List.forall_mem_cons.mp calm
      exact ih hrest (after_keepsOpen hfirst hopen)

/-- What is given later lies apart from what was in use, as long as that is kept. -/
theorem Keeps.apart (keeps : c.region.phase ≠ .closed → Keeps given c)
    (ok : Region.Sound c.region) {base : Nat} (hbase : given.region.phase = .reserved base)
    {span later : Span} (used : span.stop ≤ base + given.region.cursor)
    (gives : c.answer u = .ok (some later)) : span.Apart later := by
  obtain ⟨base', hbase', hlow, -⟩ := region_of_given ok gives
  have hafter : (c.after u).region.phase ≠ .closed := by
    rw [hbase']
    exact nofun
  have hopen : c.region.phase ≠ .closed :=
    fun hclosed => hafter ((after_continues ok u).closed hclosed)
  have hsame := (shifts_of_open ok u hafter).2 base ((keeps hopen).base base hbase)
  have hcursor := (keeps hopen).cursor
  rw [hbase'] at hsame
  obtain rfl := Region.Phase.reserved.inj hsame
  refine Or.inl ?_
  omega

/-- To end a pool that had begun by then sets the cursor back to one that was saved by then. -/
theorem Keeps.freed (keeps : Keeps given c) (seated : Seated given) (ok : Region.Sound c.region)
    (begun : given.Begun u.pool) (hopen : (c.after u).region.phase ≠ .closed)
    (shorter : (c.after u).region.depth < c.region.depth) :
    (c.after u).region.cursor ∈ given.region.saved := by
  obtain ⟨newer, hstack, -⟩ := keeps.stack
  obtain ⟨handle, hhandle⟩ := begun
  have hplace := seated.below u.pool handle hhandle
  have hheld := keeps.held u.pool handle hhandle
  cases (shifts_of_open ok u hopen).1 with
  | stayed saved cursor pools =>
      refine absurd shorter ?_
      rw [Region.depth, Region.depth, saved]
      exact Nat.lt_irrefl _
  | begun fresh saved cursor pool others =>
      rw [fresh] at hheld
      cases hheld
  | left ends region pool others =>
      rw [region] at shorter
      exact absurd shorter (Nat.lt_irrefl _)
  | @freed freedHandle older ends active newest saved rest pool others =>
      rw [hheld] at active
      obtain rfl := Pool.active.inj active
      have hlength : older.length + 1 = newer.length + given.region.depth := by
        rw [Region.depth, ← List.length_append, ← hstack, saved, List.length_cons]
      have hnewer : newer = [] := List.eq_nil_of_length_eq_zero (by omega)
      rw [hnewer, List.nil_append, saved] at hstack
      rw [← hstack]
      exact List.mem_cons_self

/-- **A span outlives every pool that begins after it was given.**  As long as no pool has
been ended that had begun when a span was given, the span lies below the cursor of the
region, if that is open, and apart from every span that is given later.  Only a failed call
closes the region.

It outlives no other: if a pool that had begun is ended, and the region was rolled back for
it, then the span lies above the cursor.

So where pools are ended in the reverse order of their beginnings, a span is there until the
pool is ended that was the newest when the span was given. -/
theorem span_outlives_later_pools {r : Region} (made : r.Made) (before since : List Turn)
    (t : Turn) {span : Span} (gives : ((of r).run before).answer t = .ok (some span))
    (pos : 0 < span.length) :
    let given := ((of r).run before).after t
    let c := given.run since
    (given.Spares since →
      (c.region.phase ≠ .closed → ∃ base, c.region.phase = .reserved base ∧
        base ≤ span.start ∧ span.stop ≤ base + c.region.cursor) ∧
      (∀ u later, c.answer u = .ok (some later) → span.Apart later) ∧
      ((∀ u ∈ since, u.machine.kernel.failures = []) → c.region.phase ≠ .closed) ∧
      (∀ u, u.errand.Ends → given.Begun u.pool → (c.after u).region.phase ≠ .closed →
        (c.after u).region.depth < c.region.depth → ∃ base, c.region.phase = .reserved base ∧
          base + (c.after u).region.cursor ≤ span.start)) ∧
    (given.Nested since → ∀ newest, given.Newest newest →
      (∀ u ∈ since, u.errand.Ends → u.pool ≠ newest) → given.Spares since) := by
  intro given c
  have ok₀ : Region.Sound ((of r).run before).region :=
    (run_continues (c := of r) made.sound before).sound made.sound
  have okGiven : Region.Sound given.region := (after_continues ok₀ t).sound ok₀
  have ok : Region.Sound c.region := (run_continues okGiven since).sound okGiven
  obtain ⟨base, hbase, hstart, hstop⟩ := region_of_given ok₀ gives
  have hstop : base + given.region.cursor = span.stop := hstop pos
  have hgiven : given.region.phase ≠ .closed := by
    rw [show given.region.phase = .reserved base from hbase]
    exact nofun
  have seated : Seated given :=
    ((seated_of r).run made.sound before
      (fun hclosed => hgiven ((after_continues ok₀ t).closed hclosed))).step ok₀ hgiven
  refine ⟨fun spares => ?_, fun nested newest hnewest lasts =>
    spares_of_nested seated hnewest okGiven (fun _ _ => id) nested lasts⟩
  have keeps : c.region.phase ≠ .closed → Keeps given c :=
    (Keeps.refl given).run okGiven spares
  refine ⟨?_, ?_, ?_, ?_⟩
  · intro hopen
    have hcursor := (keeps hopen).cursor
    exact ⟨base, (keeps hopen).base base hbase, by omega, by omega⟩
  · intro u later hlater
    exact Keeps.apart keeps ok hbase (Nat.le_of_eq hstop.symm) hlater
  · intro calm
    exact run_keepsOpen calm hgiven
  · intro u ends begun hafter hdepth
    have hopen : c.region.phase ≠ .closed :=
      fun hclosed => hafter ((after_continues ok u).closed hclosed)
    have hsaved := (keeps hopen).freed seated ok begun hafter hdepth
    have hle := saved_le_of_given ok₀ gives (c.after u).region.cursor hsaved
    exact ⟨base, (keeps hopen).base base hbase, by omega⟩

/-- The outer pool's first span is kept while an inner pool begins and is closed, and what the
outer one takes after that is apart from it. -/
theorem span_outlives_inner_pool :
    let before : List Turn := []
    let since : List Turn := [⟨{}, 1, .allocate 50 1 false⟩, ⟨{}, 1, .close⟩]
    let t : Turn := ⟨{}, 0, .allocate 100 1 false⟩
    let given := ((of Region.twoPages).run before).after t
    let c := given.run since
    Region.twoPages.Made ∧
      ((of Region.twoPages).run before).answer t = .ok (some ⟨0x100000000000, 100⟩) ∧
      given.Spares since ∧ c.region.phase ≠ .closed ∧
      c.answer ⟨{}, 0, .allocate 100 1 true⟩ = .ok (some ⟨0x100000000064, 100⟩) ∧
      Span.Apart ⟨0x100000000000, 100⟩ ⟨0x100000000064, 100⟩ := by
  intro before since t given c
  have gives : ((of Region.twoPages).run before).answer t
      = .ok (some ⟨0x100000000000, 100⟩) := by decide
  have later : c.answer ⟨{}, 0, .allocate 100 1 true⟩
      = .ok (some ⟨0x100000000064, 100⟩) := by decide
  have spares : given.Spares since := by
    have hfresh : given.pools 1 = .fresh := by decide
    have hnone : ¬ given.Begun 1 := by
      rintro ⟨handle, h⟩
      rw [hfresh] at h
      cases h
    intro u hu _
    rcases List.mem_cons.mp hu with rfl | hu
    · exact hnone
    · obtain rfl := List.mem_singleton.mp hu
      exact hnone
  obtain ⟨holds, -⟩ := span_outlives_later_pools Region.twoPages_made before since t gives
    (by decide)
  obtain ⟨-, hapart, -⟩ := holds spares
  have apart := hapart ⟨{}, 0, .allocate 100 1 true⟩ ⟨0x100000000064, 100⟩ later
  exact ⟨Region.twoPages_made, gives, spares, by decide, later, apart⟩

/-- A span is handed out again while the pool that holds it is open.  The outer pool takes it
while an inner pool is open; the inner one is closed, which began last, and what the outer
pool takes next lies over it. -/
theorem span_lost_with_inner_pool :
    let outer : Turn := ⟨{}, 0, .allocate 100 1 false⟩
    let inner : Turn := ⟨{}, 1, .allocate 50 1 false⟩
    let start := of Region.twoPages
    let c := start.run [outer, inner, outer]
    let closed := c.after ⟨{}, 1, .close⟩
    Region.twoPages.Made ∧
      (start.run [outer, inner]).answer outer = .ok (some ⟨0x100000000096, 100⟩) ∧
      c.pools 0 = .active ⟨0⟩ ∧ c.pools 1 = .active ⟨1⟩ ∧
      c.answer ⟨{}, 1, .close⟩ = .ok none ∧ closed.pools 0 = .active ⟨0⟩ ∧
      closed.region.cursor = 100 ∧
      closed.answer outer = .ok (some ⟨0x100000000064, 100⟩) ∧
      ¬ Span.Apart ⟨0x100000000096, 100⟩ ⟨0x100000000064, 100⟩ := by
  refine ⟨Region.twoPages_made, by decide, by decide, by decide, by decide, by decide,
    by decide, by decide, ?_⟩
  unfold Span.Apart Span.stop
  decide

end Commons

end PageArena
