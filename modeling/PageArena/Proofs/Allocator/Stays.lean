/-
Pools that come and go.

A stay is all there is of one pool: it allocates what it wants and is closed or dropped.  What
it is given depends on the region, and a stay leaves the region as it was found, but for the
pages that are accessible and for the base if that was still to be obtained.  So every stay
that wants the same is given the same, however many there were before it, whatever those
wanted, and whether or not pages were taken away in between.

What a stay is given is told by the outline of the region (`Outline.serve`), which knows
nothing of pages.  A pool begins with a checkpoint, even if the first thing it wants is then
refused, and it ends with the rollback to it, so what its stay begins and ends with is the
same outline (`Region.host_keeps`).
-/
import Mathlib
import PageArena.Proofs.Allocator.Occasions
import PageArena.Proofs.Region.Access
import PageArena.Proofs.Region.Outline

namespace PageArena

open OsCall (Record)

namespace Region

/-- What slices are answered, one after the other. -/
def Outline.serve (base : Nat) (o : Outline) : List (Nat × Nat) → List (Except ArenaError Span)
  | [] => []
  | (size, align) :: wanted =>
    (o.slice base size align).1 :: (o.slice base size align).2.serve base wanted

variable {r r' : Region} {clock base : Nat} {made : List Record} {w w' : World Region}

/-! ### The region beneath -/

/-- A cut that leaves the region open has not failed in the system. -/
theorem Cuts.succeeds_of_open {size align : Nat} {answer : Except ArenaError Span}
    (h : Cuts size align base r answer r' made) (hopen : r'.phase ≠ .closed) :
    Succeeds answer := by
  intro call errno
  cases h with
  | unrounded h => exact nofun
  | oversized rounded h => exact nofun
  | unfit rounded h => exact nofun
  | empty rounded fits h => exact nofun
  | inside rounded pos h => exact nofun
  | grown rounded pos past fits grows => exact nofun
  | ungrown rounded pos past fits grows =>
      cases grows with
      | unrounded h => exact nofun
      | lost h => exact absurd rfl hopen

/-- A region that has a base and stays open answers a slice as its outline does. -/
theorem slice_of_reserved {size align : Nat} {answer : Except ArenaError Span}
    (ok : Sound w.self) (paged : Paged w.self) (hp : w.self.phase = .reserved base)
    (h : (slice size align).run w = (answer, w')) (hopen : w'.self.phase ≠ .closed) :
    w.self.outline.slice base size align = (answer, w'.self.outline) ∧
      w'.self.phase = .reserved base ∧ w'.self.saved = w.self.saved := by
  obtain ⟨r', made, slices, leads⟩ := slice_slices ok h
  have bounded : ∀ stop total, answer = .error (.outOfBounds stop total) → stop < Word.limit :=
    fun stop total herr => slice_outOfBounds ok (herr ▸ h)
  rw [leads.self] at hopen ⊢
  obtain ⟨hsaved, -, hphase⟩ := slices.of_not_closed ok hopen
  refine ⟨?_, hphase base hp, hsaved⟩
  unfold Outline.slice
  cases slices with
  | misaligned unaligned => exact if_neg (by simp [unaligned])
  | unobtained aligned obtains =>
      cases obtains with
      | closed phase => cases hp.symm.trans phase
      | unreserved phase reserves => cases hp.symm.trans phase
      | unaddressable phase h => cases hp.symm.trans phase
  | obtained aligned obtains cuts =>
      cases obtains with
      | fresh phase pos h => cases hp.symm.trans phase
      | held phase =>
          obtain rfl := Phase.reserved.inj (phase.symm.trans hp)
          have enter : w.self.outline.enter = .ok w.self.outline := by
            simp [Outline.enter, outline, hp, Phase.stage]
          rw [if_pos aligned, enter]
          exact cuts.outline ok paged hp (cuts.succeeds_of_open hopen) bounded

/-- A region that is given a base, if it has none, saves its cursor. -/
theorem checkpoint_of_obtained (ok : Sound w.self) (h : (obtainBase.run w).1 = .ok base) :
    ∃ w', checkpoint.run w = (.ok ⟨w.self.depth⟩, w') ∧ Continues w.self w'.self ∧
      w'.self.phase = .reserved base ∧ (∀ held, w.self.phase = .reserved held → held = base) ∧
      w'.self.cursor = w.self.cursor ∧ w'.self.saved = w.self.cursor :: w.self.saved := by
  rcases hb : obtainBase.run w with ⟨answer, w₁⟩
  rw [hb] at h
  obtain rfl : answer = .ok base := h
  obtain ⟨r, made, obtains, first⟩ := obtainBase_obtains hb
  obtain ⟨hsaved, hcursor, hphase⟩ := obtains.of_sound ok
  have hrun : checkpoint.run w
      = (.ok ⟨r.depth⟩, { w₁ with self := { r with saved := r.cursor :: r.saved } }) := by
    simp only [checkpoint, Act.run_bind_ok hb, Act.run_bind, Act.run_self, Act.run_update,
      Act.run_pure, first.self]
  have hdepth : r.depth = w.self.depth := congrArg List.length hsaved
  rw [hdepth] at hrun
  refine ⟨_, hrun, (Checkpoints.pushed obtains).continues, obtains.phase_of_ok, ?_, hcursor, ?_⟩
  · intro held hheld
    exact Phase.reserved.inj ((hphase held hheld).symm.trans obtains.phase_of_ok)
  · show r.cursor :: r.saved = _
    rw [hcursor, hsaved]

end Region

namespace Pool

variable {w : World Tenancy} {size align : Nat} {handle : Handle}

/-! ### The pool -/

/-- A pool that has begun slices its region. -/
theorem allocate_of_active (hp : w.self.pool = .active handle) :
    (allocate size align).run w = (onRegion (Region.slice size align)).run w := by
  unfold allocate
  rw [Act.run_self_bind]
  simp only [hp]

/-- A pool that has not begun begins, and then it is as if it had begun before. -/
theorem allocate_of_fresh (size align : Nat) (hp : w.self.pool = .fresh) {w₁ : World Region}
    (h : Region.checkpoint.run { w with self := w.self.region } = (.ok handle, w₁)) :
    (allocate size align).run w
      = (allocate size align).run { w₁ with self := ⟨.active handle, w₁.self⟩ } := by
  have begins : (onRegion Region.checkpoint).run w
      = (.ok handle, { w₁ with self := { w.self with region := w₁.self } }) := by
    unfold onRegion
    rw [Act.run_within, h]
  rw [allocate_of_active (w := { w₁ with self := ⟨.active handle, w₁.self⟩ }) rfl]
  unfold allocate
  rw [Act.run_self_bind]
  simp only [hp, Act.run_bind_ok begins, become, Act.run_bind, Act.run_update]

/-- Setting the memory to zero changes neither the answer nor the pool. -/
theorem allocateZeroed_run (size align : Nat) (w : World Tenancy) :
    ((allocateZeroed size align).run w).1 = ((allocate size align).run w).1 ∧
      ((allocateZeroed size align).run w).2.self = ((allocate size align).run w).2.self := by
  unfold allocateZeroed
  rw [Act.run_bind]
  rcases (allocate size align).run w with ⟨e | span, w'⟩
  · exact ⟨rfl, rfl⟩
  · exact ⟨rfl, rfl⟩

end Pool

namespace Commons

/-- One thing that a pool is asked for, and the machine that it meets. -/
structure Ask where
  machine : Machine
  size : Nat
  align : Nat
  zeroed : Bool

/-- The turn in which the only pool is asked. -/
def Ask.turn (a : Ask) : Turn := ⟨a.machine, 0, .allocate a.size a.align a.zeroed⟩

def Ask.wanted (a : Ask) : Nat × Nat := (a.size, a.align)

/-- All there is of one pool: what it is asked for, and its end. -/
structure Stay where
  asks : List Ask
  leave : Machine
  dropped : Bool

namespace Stay

def turns (s : Stay) : List Turn := s.asks.map Ask.turn

/-- The sizes and alignments that are asked for. -/
def wanted (s : Stay) : List (Nat × Nat) := s.asks.map Ask.wanted

/-- The turn in which the pool is ended. -/
def ending (s : Stay) : Turn := ⟨s.leave, 0, if s.dropped then .drop else .close⟩

end Stay

/-- The answers of a run. -/
def replies (c : Commons) : List Turn → List (Except ArenaError (Option Span))
  | [] => []
  | u :: us => c.answer u :: (c.after u).replies us

end Commons

open Commons (Stay Ask)

namespace Region

/-- What a pool is given that comes to the region, and no other with it. -/
def results (r : Region) (s : Stay) : List (Except ArenaError (Option Span)) :=
  (Commons.of r).replies s.turns

/-- The region after a stay. -/
def host (r : Region) (s : Stay) : Region := (((Commons.of r).run s.turns).after s.ending).region

/-- The region after many stays. -/
def hostAll (r : Region) (stays : List Stay) : Region := stays.foldl host r

/-- A stay in which the system refuses nothing.  The region has a base for the first thing that
is wanted, or the reservation is accepted then; and it is open afterwards, since each change of
pages that fails closes it. -/
structure Welcomes (r : Region) (s : Stay) : Prop where
  accepted : ∀ a ∈ s.asks.head?, ∃ base, r.reservation ⟨a.machine, .checkpoint⟩ = .ok base
  stays : (r.host s).phase ≠ .closed

/-- The system refuses nothing in any of the stays. -/
def WelcomesAll (r : Region) : List Stay → Prop
  | [] => True
  | s :: stays => r.Welcomes s ∧ (r.host s).WelcomesAll stays

/-- What a pool finds once it has begun: the outline of a region in use, and on top of the stack
the checkpoint of the pool. -/
def offer (r : Region) : Outline := ⟨r.total, r.cursor, r.cursor :: r.saved, .reserved⟩

end Region

namespace Commons

variable {c : Commons} {handle : Handle} {base : Nat} {a : Ask}

/-! ### Its turns -/

/-- An allocation is answered alike with zeroing and without. -/
theorem meet_allocate (c : Commons) (a : Ask) :
    let w : World Tenancy := { a.machine with self := ⟨c.pools 0, c.region⟩ }
    c.answer a.turn = ((Pool.allocate a.size a.align).run w).1.map some ∧
      (c.meet a.turn).2.self = ((Pool.allocate a.size a.align).run w).2.self := by
  intro w
  obtain ⟨machine, size, align, zeroed⟩ := a
  unfold answer meet
  cases zeroed with
  | false =>
      simp only [Ask.turn, Errand.act, Bool.false_eq_true, if_false, Region.run_bind_pure]
      exact ⟨rfl, rfl⟩
  | true =>
      obtain ⟨hanswer, hself⟩ := Pool.allocateZeroed_run size align w
      simp only [Ask.turn, Errand.act, if_true, Region.run_bind_pure]
      exact ⟨congrArg _ hanswer, hself⟩

/-- The only pool has begun, on a region in use. -/
structure Lodged (handle : Handle) (base : Nat) (c : Commons) : Prop where
  sound : Region.Sound c.region
  paged : Region.Paged c.region
  pool : c.pools 0 = .active handle
  phase : c.region.phase = .reserved base

/-- **One allocation** of a pool that has begun. -/
theorem Lodged.allocate (lodged : Lodged handle base c) (a : Ask)
    (hopen : (c.after a.turn).region.phase ≠ .closed) :
    c.answer a.turn = (c.region.outline.slice base a.size a.align).1.map some ∧
      (c.after a.turn).region.outline = (c.region.outline.slice base a.size a.align).2 ∧
      (c.after a.turn).region.saved = c.region.saved ∧
      Lodged handle base (c.after a.turn) := by
  have life := after_continues lodged.sound a.turn
  obtain ⟨hanswer, hself⟩ := meet_allocate c a
  have hpool := pools_after_self c a.turn
  have hregion : (c.after a.turn).region = (c.meet a.turn).2.self.region := rfl
  rw [hself] at hpool hregion
  rw [Pool.allocate_of_active lodged.pool, Pool.onRegion, Act.run_within] at hanswer hpool hregion
  rcases hrun : (Region.slice a.size a.align).run { a.machine with self := c.region } with
    ⟨answer, w'⟩
  rw [hrun] at hanswer hpool hregion
  have hregion : (c.after a.turn).region = w'.self := hregion
  rw [hregion] at hopen
  obtain ⟨houtline, hphase, hsaved⟩ := Region.slice_of_reserved (w := ⟨a.machine, c.region⟩)
    lodged.sound lodged.paged lodged.phase hrun hopen
  have houtline : c.region.outline.slice base a.size a.align = (answer, w'.self.outline) := houtline
  rw [houtline, hregion]
  refine ⟨hanswer, rfl, hsaved, ?_⟩
  exact
    { sound := life.sound lodged.sound
      paged := life.paged lodged.sound lodged.paged
      pool := hpool.trans lodged.pool
      phase := hregion ▸ hphase }

/-- All allocations of a pool that has begun. -/
theorem Lodged.serve (lodged : Lodged handle base c) (asks : List Ask)
    (hopen : (c.run (asks.map Ask.turn)).region.phase ≠ .closed) :
    c.replies (asks.map Ask.turn)
        = (c.region.outline.serve base (asks.map Ask.wanted)).map (Except.map some) ∧
      (c.run (asks.map Ask.turn)).region.saved = c.region.saved ∧
      Lodged handle base (c.run (asks.map Ask.turn)) := by
  induction asks generalizing c with
  | nil => exact ⟨rfl, rfl, lodged⟩
  | cons a asks ih =>
      have ok' := (after_continues lodged.sound a.turn).sound lodged.sound
      obtain ⟨hanswer, houtline, hsaved, next⟩ := lodged.allocate a (open_of_run ok' hopen)
      obtain ⟨hreplies, hrest, last⟩ := ih next hopen
      refine ⟨?_, hrest.trans hsaved, last⟩
      rw [houtline] at hreplies
      exact List.cons_eq_cons.mpr ⟨hanswer, hreplies⟩

/-- **The first allocation** goes as if the pool had taken its checkpoint before, on the machine
that the checkpoint leaves. -/
theorem begin_stay (ok : Region.Sound c.region) (paged : Region.Paged c.region)
    (fresh : c.pools 0 = .fresh) (a : Ask)
    (h : c.region.reservation ⟨a.machine, .checkpoint⟩ = .ok base) :
    ∃ (c₁ : Commons) (a₁ : Ask), Lodged ⟨c.region.depth⟩ base c₁ ∧
      c₁.region.outline = c.region.offer ∧ a₁.wanted = a.wanted ∧
      (∀ held, c.region.phase = .reserved held → held = base) ∧
      c.answer a.turn = c₁.answer a₁.turn ∧ c.after a.turn = c₁.after a₁.turn := by
  obtain ⟨w₁, hrun, life, hphase, honly, hcursor, hsaved⟩ :=
    Region.checkpoint_of_obtained (w := ⟨a.machine, c.region⟩) ok h
  have begins := Pool.allocate_of_fresh (w := ⟨a.machine, ⟨c.pools 0, c.region⟩⟩) a.size a.align
    fresh hrun
  let c₁ : Commons :=
    ⟨w₁.self, fun p => if p = 0 then .active ⟨c.region.depth⟩ else c.pools p⟩
  let a₁ : Ask := { a with machine := w₁.toMachine }
  obtain ⟨hanswer, hself⟩ := meet_allocate c a
  obtain ⟨hanswer₁, hself₁⟩ := meet_allocate c₁ a₁
  have hself : (c.meet a.turn).2.self = (c₁.meet a₁.turn).2.self := by
    rw [hself, hself₁]
    exact congrArg (fun ran => ran.2.self) begins
  refine ⟨c₁, a₁, ⟨life.sound ok, life.paged ok paged, rfl, hphase⟩, ?_, rfl, honly, ?_, ?_⟩
  · show w₁.self.outline = _
    unfold Region.outline Region.offer
    rw [life.total, hcursor, hsaved, hphase]
    rfl
  · rw [hanswer, hanswer₁]
    exact congrArg (fun ran => ran.1.map some) begins
  · show Commons.mk _ _ = Commons.mk _ _
    rw [hself]
    refine congrArg _ (funext fun p => ?_)
    by_cases hp : p = 0
    · exact (if_pos hp).trans (if_pos hp).symm
    · exact (if_neg hp).trans (((if_neg hp).trans (if_neg hp)).symm)

/-- However a stay ends, the pool is closed by it. -/
theorem ending_closes (ok : Region.Sound c.region) (s : Stay) :
    ∃ close made, Pool.Closes ⟨c.pools 0, c.region⟩ s.leave.kernel.clock close
      (c.meet s.ending).2.self made := by
  have hmeets := meet_meets ok s.ending
  have ends : s.ending.errand.Ends := by
    unfold Stay.ending
    cases s.dropped with
    | false => exact trivial
    | true => exact trivial
  generalize (c.meet s.ending).2.self = t' at hmeets ⊢
  generalize s.ending.errand = errand at hmeets ends
  generalize c.answer s.ending = answer at hmeets
  cases hmeets with
  | allocate h => exact ends.elim
  | ended ends silent h => exact ⟨_, _, h⟩

/-- **The end** of the only pool, if its checkpoint is the newest. -/
theorem Lodged.leave (lodged : Lodged handle base c) {cursor : Nat} {older : List Nat}
    (saved : c.region.saved = cursor :: older) (newest : older.length = handle.index) (s : Stay)
    (hopen : (c.after s.ending).region.phase ≠ .closed) :
    (c.after s.ending).region.phase = .reserved base ∧
      (c.after s.ending).region.cursor = cursor ∧ (c.after s.ending).region.saved = older := by
  obtain ⟨close, made, closes⟩ := ending_closes lodged.sound s
  have hregion : (c.after s.ending).region = (c.meet s.ending).2.self.region := rfl
  rw [hregion] at hopen ⊢
  rw [lodged.pool] at closes
  generalize (c.meet s.ending).2.self = t' at closes hopen ⊢
  cases closes with
  | again h => cases h
  | unused h => cases h
  | rolled h rolls =>
      obtain rfl := Pool.active.inj h
      -- The checkpoint of the pool is on top of the stack, so no other way is left.
      cases rolls with
      | unreserved h => exact absurd lodged.phase (h base)
      | stale phase h =>
          refine absurd ?_ h
          show c.region.saved.length = _
          rw [saved, List.length_cons, newest]
      | popped phase saved' newest' trims =>
          obtain ⟨rfl, rfl⟩ := List.cons.inj (saved.symm.trans saved')
          obtain ⟨hphase, hsaved, hcursor⟩ := trims.of_not_closed hopen
          exact ⟨hphase.trans lodged.phase, hcursor, hsaved⟩

end Commons

namespace Region

variable {r r₀ : Region} {s : Stay}

/-! ### Stays -/

theorem host_continues (ok : Sound r) (s : Stay) : Continues r (r.host s) := by
  have served : Continues r ((Commons.of r).run s.turns).region :=
    Commons.run_continues (c := Commons.of r) ok s.turns
  exact served.trans (Commons.after_continues (served.sound ok) s.ending)

/-- Where no failure is in waiting, a stay is welcome if the region gets a base for it. -/
theorem Welcomes.of_calm (hopen : r.phase ≠ .closed)
    (calm : ∀ a ∈ s.asks, a.machine.kernel.failures = []) (leave : s.leave.kernel.failures = [])
    (accepted : ∀ a ∈ s.asks.head?, ∃ base, r.reservation ⟨a.machine, .checkpoint⟩ = .ok base) :
    r.Welcomes s where
  accepted := accepted
  stays := by
    refine Commons.after_keepsOpen leave (Commons.run_keepsOpen ?_ hopen)
    intro u hu
    obtain ⟨a, ha, rfl⟩ := List.mem_map.mp hu
    exact calm a ha

/-- A pool that is asked for nothing leaves the region alone. -/
theorem host_of_no_asks (ok : Sound r) (none : s.asks = []) : r.host s = r := by
  obtain ⟨close, made, closes⟩ := Commons.ending_closes (c := Commons.of r) ok s
  have hhost : r.host s = ((Commons.of r).meet s.ending).2.self.region := by
    unfold host Stay.turns
    rw [none]
    rfl
  rw [hhost]
  generalize ((Commons.of r).meet s.ending).2.self = t' at closes ⊢
  cases closes with
  | again h => rfl
  | unused h => rfl
  | rolled h rolls => cases h

/-- A pool that is asked for something might as well have begun before it came. -/
theorem stay_of_begun (ok : Sound r) (paged : Paged r) (asked : s.asks ≠ [])
    (accepted : ∀ a ∈ s.asks.head?, ∃ base, r.reservation ⟨a.machine, .checkpoint⟩ = .ok base) :
    ∃ (base : Nat) (c : Commons) (asks : List Ask), Commons.Lodged ⟨r.depth⟩ base c ∧
      c.region.outline = r.offer ∧ asks.map Ask.wanted = s.wanted ∧
      (∀ held, r.phase = .reserved held → held = base) ∧
      r.results s = c.replies (asks.map Ask.turn) ∧
      (Commons.of r).run s.turns = c.run (asks.map Ask.turn) := by
  obtain ⟨asks, leave, dropped⟩ := s
  cases asks with
  | nil => exact absurd rfl asked
  | cons a asks =>
      obtain ⟨base, haccepted⟩ := accepted a rfl
      obtain ⟨c, first, lodged, houtline, hwanted, honly, hanswer, hafter⟩ :=
        Commons.begin_stay (c := Commons.of r) ok paged rfl a haccepted
      refine ⟨base, c, first :: asks, lodged, houtline, ?_, honly, ?_, ?_⟩
      · exact congrArg (fun wanted => wanted :: asks.map Ask.wanted) hwanted
      · show _ :: ((Commons.of r).after a.turn).replies _ = _ :: (c.after first.turn).replies _
        rw [hanswer, hafter]
      · show ((Commons.of r).after a.turn).run _ = (c.after first.turn).run _
        rw [hafter]

/-- **A stay** leaves the region as it was found, and what it is given is what the region
offers, at the base that the region has then. -/
theorem host_keeps (ok : Sound r) (paged : Paged r) (welcomes : r.Welcomes s) :
    (r.host s).cursor = r.cursor ∧ (r.host s).saved = r.saved ∧
      (∀ base, r.phase = .reserved base → (r.host s).phase = .reserved base) ∧
      (s.asks ≠ [] → ∃ base, (r.host s).phase = .reserved base ∧
        r.results s = (r.offer.serve base s.wanted).map (Except.map some)) := by
  by_cases none : s.asks = []
  · rw [host_of_no_asks ok none]
    exact ⟨rfl, rfl, fun _ => id, fun asked => absurd none asked⟩
  · obtain ⟨base, c, asks, lodged, houtline, hwanted, honly, hresults, hrun⟩ :=
      stay_of_begun ok paged none welcomes.accepted
    have hopen := welcomes.stays
    unfold host at hopen ⊢
    rw [hrun] at hopen ⊢
    have life := Commons.run_continues lodged.sound (asks.map Ask.turn)
    have served : (c.run (asks.map Ask.turn)).region.phase ≠ .closed := by
      intro hclosed
      exact hopen ((Commons.after_continues (life.sound lodged.sound) s.ending).closed hclosed)
    obtain ⟨hgiven, hsaved, last⟩ := lodged.serve asks served
    have hstack : (c.run (asks.map Ask.turn)).region.saved = r.cursor :: r.saved :=
      hsaved.trans (congrArg Outline.saved houtline)
    obtain ⟨hphase, hcursor, hrest⟩ := last.leave hstack rfl s hopen
    refine ⟨hcursor, hrest, ?_, fun _ => ⟨base, hphase, ?_⟩⟩
    · intro held hheld
      rw [honly held hheld]
      exact hphase
    · rw [hresults, hgiven, houtline, hwanted]

/-- **Many stays**: one base is what they are all told from. -/
theorem hostAll_keeps (ok : Sound r) (paged : Paged r) {stays : List Stay}
    (welcomes : r.WelcomesAll stays) :
    ∃ base, (∀ held, r.phase = .reserved held → held = base) ∧
      ∀ before s after, stays = before ++ s :: after →
        (r.hostAll before).results s = (r.offer.serve base s.wanted).map (Except.map some) ∧
        ((r.hostAll before).host s).cursor = (r.hostAll before).cursor ∧
        ((r.hostAll before).host s).saved = (r.hostAll before).saved := by
  induction stays generalizing r with
  | nil =>
      obtain ⟨base, honly, -⟩ := exists_based r
      refine ⟨base, honly, fun before s after hsplit => ?_⟩
      exact absurd hsplit (by simp)
  | cons s stays ih =>
      have life := host_continues ok s
      obtain ⟨hcursor, hsaved, hbase, hgiven⟩ := host_keeps ok paged welcomes.1
      -- The base is found from the end: whoever obtains it hands it on to all that follow.
      obtain ⟨base, honly, hrest⟩ := ih (life.sound ok) (life.paged ok paged) welcomes.2
      have hoffer : (r.host s).offer = r.offer := by
        unfold offer
        rw [life.total, hcursor, hsaved]
      rw [hoffer] at hrest
      refine ⟨base, fun held hheld => honly held (hbase held hheld), ?_⟩
      rintro (_ | ⟨first, before⟩) s' after hsplit
      · obtain ⟨rfl, rfl⟩ := List.cons.inj hsplit
        refine ⟨?_, hcursor, hsaved⟩
        cases hasks : s.asks with
        | nil =>
            show (Commons.of r).replies s.turns = _
            rw [Stay.turns, Stay.wanted, hasks]
            rfl
        | cons a asks =>
            obtain ⟨held, hheld, hresults⟩ := hgiven (by simp [hasks])
            rw [← honly held hheld]
            exact hresults
      · obtain ⟨rfl, htail⟩ := List.cons.inj hsplit
        exact hrest before s' after htail

/-- **Stays can be repeated.**  What a pool is given depends on what it wants and on nothing
else, wherever its stay stands in a sequence of stays: not on the other stays, not on the time,
and not on the pages that were taken away in between.  After each stay the cursor and the depth
of the stack are what they were before it.

The region may have been through anything before, and need not have a base yet. -/
theorem stays_can_be_repeated (made : r₀.Made) (geometry : r₀.backend.toGeometry.Sound)
    (os : List Commons.Occasion) (stays : List Stay)
    (welcomes : ((Commons.of r₀).through os).region.WelcomesAll stays) :
    let r := ((Commons.of r₀).through os).region
    ∃ given : List (Nat × Nat) → List (Except ArenaError (Option Span)),
      ∀ before s after, stays = before ++ s :: after →
        (r.hostAll before).results s = given s.wanted ∧
        ((r.hostAll before).host s).cursor = (r.hostAll before).cursor ∧
        ((r.hostAll before).host s).depth = (r.hostAll before).depth := by
  intro r
  have life : Continues r₀ r := Commons.through_continues (c := Commons.of r₀) made.sound os
  have ok : Sound r := life.sound made.sound
  have paged : Paged r := life.paged made.sound (made.paged geometry)
  obtain ⟨base, -, hstays⟩ := hostAll_keeps ok paged welcomes
  refine ⟨fun wanted => (r.offer.serve base wanted).map (Except.map some), ?_⟩
  intro before s after hsplit
  obtain ⟨hresults, hcursor, hsaved⟩ := hstays before s after hsplit
  exact ⟨hresults, hcursor, congrArg List.length hsaved⟩

/-- A pool wants the same again after another has used up the region.  The first time no page is
committed, the second time two are, and one was taken away.  It is refused the same, and given
the same. -/
theorem stays_repeated_in_eager :
    let asks : List Ask := [⟨{}, 100, 3, false⟩, ⟨{}, 5000, 64, false⟩, ⟨{}, 12000, 1, true⟩]
    let small : Stay := ⟨asks, {}, false⟩
    let large : Stay := ⟨[⟨{}, 12288, 1, false⟩], {}, true⟩
    let between := eager.hostAll [small, large]
    eager.committed = 0 ∧ between.committed = 8192 ∧
      eager.results small = [.error (.invalidAlignment 3), .ok (some ⟨0x100000000000, 5000⟩),
        .error (.outOfBounds 17000 12288)] ∧
      between.results small = eager.results small ∧
      (between.host small).cursor = between.cursor ∧
      (between.host small).depth = between.depth := by
  intro asks small large between
  have made : eager.Made :=
    ⟨12000, eager.tuning, eager.backend, ⟨{}, ()⟩, ⟨{}, ()⟩, rfl⟩
  have geometry : eager.backend.toGeometry.Sound :=
    Geometry.sound_of_ofPageSize (show Geometry.ofPageSize 4096 = _ from rfl)
  have first : eager.Welcomes small := by
    refine .of_calm (by decide) (by simp [small, asks]) rfl ?_
    rintro a ⟨⟩
    exact ⟨0x100000000000, by decide⟩
  have second : (eager.host small).Welcomes large := by
    refine .of_calm (by decide) (by simp [large]) rfl ?_
    rintro a ⟨⟩
    exact ⟨0x100000000000, by decide⟩
  have third : ((eager.host small).host large).Welcomes small := by
    refine .of_calm (by decide) (by simp [small, asks]) rfl ?_
    rintro a ⟨⟩
    exact ⟨0x100000000000, by decide⟩
  have welcomes : eager.WelcomesAll [small, large, small] := ⟨first, second, third, trivial⟩
  obtain ⟨given, hgiven⟩ := stays_can_be_repeated made geometry [] [small, large, small] welcomes
  obtain ⟨hfirst, -⟩ := hgiven [] small [large, small] rfl
  obtain ⟨hagain, hcursor, hdepth⟩ := hgiven [small, large] small [] rfl
  exact ⟨rfl, by decide, by decide, hagain.trans hfirst.symm, hcursor, hdepth⟩

end Region

end PageArena
