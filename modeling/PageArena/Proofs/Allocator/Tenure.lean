/-
Which checkpoint a pool holds.

A pool takes a checkpoint when it begins and remembers no more of it than its place on the
stack.  Places are used again, so it has to be shown that what lies at the place of a pool is
what the pool put there.  The register keeps what a pool found when it began: the cursor and
the stack of that time.  As long as the pool has not been ended, that cursor lies on that
stack, unchanged (`Kept.stacked`), whatever happens to the other pools, in whatever order they
are ended, and even if some of them leave their checkpoints behind.

What is on top then decides what becomes of a pool that is ended.  If it is the pool's own
checkpoint, the region is as it was when the pool began; if it is not, nothing happens to the
region, and the checkpoint of the pool stays on the stack for good.

If only the pool that began last is ever ended, nothing stays behind: `Layered` says how the
stack is made of the checkpoints of the pools then, one on the other.
-/
import Mathlib
import PageArena.Proofs.Allocator.Occasions
import PageArena.Proofs.Region.Undo

namespace PageArena

open OsCall (Record)

namespace Commons

/-- What a pool found when it began: the cursor, which it has put by, and the stack beneath. -/
structure Tenure where
  pool : Nat
  cursor : Nat
  below : List Nat
  deriving DecidableEq, Repr

/-- The pool has taken its checkpoint, and has not been ended. -/
def isActive (c : Commons) (p : Nat) : Bool := (c.pools p).handle?.isSome

/-- A region with its pools, and what those of them found that have begun and have not been
ended, the last to begin first. -/
structure Register where
  commons : Commons
  tenures : List Tenure

/-- What is entered on an occasion: a pool that begins, with what it finds. -/
def entered (c : Commons) (o : Occasion) : List Tenure :=
  match o.deed with
  | .errand p _ =>
    if c.pools p = .fresh ∧ (c.next o).isActive p then [⟨p, c.region.cursor, c.region.saved⟩]
    else []
  | _ => []

namespace Register

/-- A region with pools of which none has begun. -/
def of (r : Region) : Register := ⟨Commons.of r, []⟩

/-- The register after an occasion: a pool that begins is entered, one that is ended is
struck out. -/
def next (g : Register) (o : Occasion) : Register where
  commons := g.commons.next o
  tenures := (g.commons.entered o ++ g.tenures).filter fun t => (g.commons.next o).isActive t.pool

/-- The register after a run. -/
def through (g : Register) (os : List Occasion) : Register := os.foldl next g

theorem commons_through (g : Register) (os : List Occasion) :
    (g.through os).commons = g.commons.through os := by
  induction os generalizing g with
  | nil => rfl
  | cons o os ih => exact ih (g.next o)

end Register

/-- What is done is left to the pools, except for closing the region. -/
def Deed.LeftToPools : Deed → Prop
  | .ask request => request = .close
  | .errand .. | .discard => True

variable {c : Commons} {g : Register} {o : Occasion} {p : Nat} {handle : Handle}

theorem isActive_iff : c.isActive p = true ↔ ∃ handle, c.pools p = .active handle := by
  unfold isActive
  cases c.pools p with
  | fresh => simp [Pool.handle?]
  | active handle => simp [Pool.handle?]
  | closed => simp [Pool.handle?]

/-! ### Beginning -/

/-- A pool that is active after a turn was so before, or it has begun in the turn, with the
place on top of an open region. -/
theorem active_of_after (ok : Region.Sound c.region) {u : Turn}
    (h : (c.after u).pools p = .active handle) :
    c.pools p = .active handle ∨ c.pools p = .fresh ∧ p = u.pool ∧
      handle = ⟨c.region.depth⟩ ∧ c.region.phase ≠ .closed := by
  by_cases hp : p = u.pool
  · subst hp
    have hmeets := meet_meets ok u
    rw [pools_after_self] at h
    generalize (c.meet u).2.self = t' at hmeets h
    generalize u.errand = errand at hmeets
    generalize c.answer u = answer at hmeets
    cases hmeets with
    | allocate allocates =>
        cases allocates with
        | closed hclosed => exact Or.inl h
        | active hactive slices => exact Or.inl h
        | unstarted hfresh checkpoints => exact Or.inl h
        | started hfresh checkpoints slices =>
            cases checkpoints with
            | pushed obtains =>
                obtain ⟨hsaved, -, -⟩ := obtains.of_sound ok
                refine Or.inr ⟨hfresh, rfl, ?_, ?_⟩
                · rw [← Pool.active.inj h, Region.depth, hsaved]
                  rfl
                · intro hclosed
                  cases obtains with
                  | held phase => exact Region.Phase.noConfusion (phase.symm.trans hclosed)
                  | fresh phase pos hbound =>
                      exact Region.Phase.noConfusion (phase.symm.trans hclosed)
    | ended ends silent closes =>
        cases closes with
        | again hclosed => exact Or.inl h
        | unused hfresh => cases h
        | rolled hactive rolls => cases h
  · rw [pools_after_of_ne c u p hp] at h
    exact Or.inl h

/-- The same of an occasion. -/
theorem active_of_next (ok : Region.Sound c.region) (h : (c.next o).pools p = .active handle) :
    c.pools p = .active handle ∨ c.pools p = .fresh ∧ (∃ errand, o.deed = .errand p errand) ∧
      handle = ⟨c.region.depth⟩ ∧ c.region.phase ≠ .closed := by
  obtain ⟨machine, deed⟩ := o
  cases deed with
  | ask request => exact Or.inl h
  | discard => exact Or.inl h
  | errand q errand =>
      rcases active_of_after ok (u := ⟨machine, q, errand⟩) h with held | ⟨fresh, rfl, began⟩
      · exact Or.inl held
      · exact Or.inr ⟨fresh, ⟨errand, rfl⟩, began⟩

theorem mem_entered_iff {t : Tenure} :
    t ∈ c.entered o ↔ c.pools t.pool = .fresh ∧ (c.next o).isActive t.pool = true ∧
      (∃ errand, o.deed = .errand t.pool errand) ∧ t.cursor = c.region.cursor ∧
      t.below = c.region.saved := by
  obtain ⟨machine, deed⟩ := o
  unfold entered
  cases deed with
  | ask request => simp
  | discard => simp
  | errand p errand =>
      by_cases hbegins : c.pools p = .fresh ∧ (c.next ⟨machine, .errand p errand⟩).isActive p
      · obtain ⟨q, cursor, below⟩ := t
        simp only [if_pos hbegins, List.mem_singleton, Tenure.mk.injEq]
        constructor
        · rintro ⟨rfl, rfl, rfl⟩
          exact ⟨hbegins.1, hbegins.2, ⟨errand, rfl⟩, rfl, rfl⟩
        · rintro ⟨-, -, ⟨errand', herrand⟩, rfl, rfl⟩
          obtain ⟨rfl, -⟩ := Deed.errand.inj herrand
          exact ⟨rfl, rfl, rfl⟩
      · simp only [if_neg hbegins, List.not_mem_nil, false_iff]
        rintro ⟨hfresh, hactive, ⟨errand', herrand⟩, -⟩
        obtain ⟨rfl, -⟩ := Deed.errand.inj herrand
        exact hbegins ⟨hfresh, hactive⟩

/-- At most one pool begins on an occasion. -/
theorem entered_pairwise {R : Tenure → Tenure → Prop} (c : Commons) (o : Occasion) :
    (c.entered o).Pairwise R := by
  unfold entered
  split
  · split
    · exact List.pairwise_singleton _ _
    · exact List.Pairwise.nil
  · exact List.Pairwise.nil

/-! ### What is kept -/

namespace Register

/-- The register tells how the region and the pools stand. -/
structure Kept (g : Register) : Prop where
  active : ∀ p handle, g.commons.pools p = .active handle ↔
    ∃ t ∈ g.tenures, t.pool = p ∧ t.below.length = handle.index
  /-- What a pool put by, and all beneath, lay there when a later one began. -/
  nested : g.tenures.Pairwise fun newer older => older.cursor :: older.below <:+ newer.below
  /-- It still lies there. -/
  stacked : g.commons.region.phase ≠ .closed →
    ∀ t ∈ g.tenures, t.cursor :: t.below <:+ g.commons.region.saved

theorem kept_of (r : Region) : Kept (of r) where
  active p handle := by
    constructor
    · intro h
      cases h
    · rintro ⟨t, ht, -⟩
      cases ht
  nested := List.Pairwise.nil
  stacked _ t ht := by cases ht

/-- Tenures with the same place are the same. -/
theorem Kept.eq_of_length (kept : Kept g) {t t' : Tenure} (ht : t ∈ g.tenures)
    (ht' : t' ∈ g.tenures) (h : t.below.length = t'.below.length) : t = t' := by
  have distinct : (g.tenures.map fun t => t.below.length).Nodup := by
    refine List.pairwise_map.mpr (kept.nested.imp ?_)
    intro newer older below
    have hle := below.length_le
    rw [List.length_cons] at hle
    omega
  exact List.inj_on_of_nodup_map distinct ht ht' h

theorem mem_next_iff {t : Tenure} :
    t ∈ (g.next o).tenures ↔
      (t ∈ g.commons.entered o ∨ t ∈ g.tenures) ∧ (g.commons.next o).isActive t.pool = true := by
  show t ∈ List.filter _ _ ↔ _
  rw [List.mem_filter, List.mem_append]

theorem Kept.pool_active (kept : Kept g) {t : Tenure} (ht : t ∈ g.tenures) :
    g.commons.pools t.pool = .active ⟨t.below.length⟩ :=
  (kept.active t.pool ⟨t.below.length⟩).mpr ⟨t, ht, rfl, rfl⟩

theorem Kept.isActive_of_mem (kept : Kept g) {t : Tenure} (ht : t ∈ g.tenures) :
    g.commons.isActive t.pool = true := isActive_iff.mpr ⟨_, kept.pool_active ht⟩

/-- No tenure is in the register exactly where no pool is active. -/
theorem Kept.tenures_eq_nil_iff (kept : Kept g) :
    g.tenures = [] ↔ ∀ p, g.commons.isActive p = false := by
  constructor
  · intro hnone p
    refine Bool.eq_false_iff.mpr fun h => ?_
    obtain ⟨handle, hhandle⟩ := isActive_iff.mp h
    obtain ⟨t, ht, -⟩ := (kept.active p handle).mp hhandle
    rw [hnone] at ht
    cases ht
  · intro idle
    refine List.eq_nil_iff_forall_not_mem.mpr fun t ht => ?_
    exact Bool.false_ne_true ((idle t.pool).symm.trans (kept.isActive_of_mem ht))

/-- The register still tells the places of the pools after an occasion. -/
theorem Kept.active_next (kept : Kept g) (ok : Region.Sound g.commons.region) (o : Occasion)
    (p : Nat) (handle : Handle) :
    (g.next o).commons.pools p = .active handle ↔
      ∃ t ∈ (g.next o).tenures, t.pool = p ∧ t.below.length = handle.index := by
  constructor
  · intro h
    have hactive : (g.commons.next o).isActive p = true := isActive_iff.mpr ⟨handle, h⟩
    rcases active_of_next ok h with held | ⟨fresh, began, rfl, -⟩
    · obtain ⟨t, ht, rfl, hlength⟩ := (kept.active p handle).mp held
      exact ⟨t, mem_next_iff.mpr ⟨Or.inr ht, hactive⟩, rfl, hlength⟩
    · refine ⟨⟨p, g.commons.region.cursor, g.commons.region.saved⟩, ?_, rfl, rfl⟩
      exact mem_next_iff.mpr
        ⟨Or.inl (mem_entered_iff.mpr ⟨fresh, hactive, began, rfl, rfl⟩), hactive⟩
  · rintro ⟨t, ht, rfl, hlength⟩
    obtain ⟨hmem, hactive⟩ := mem_next_iff.mp ht
    obtain ⟨handle', h⟩ := isActive_iff.mp hactive
    have hindex : handle'.index = t.below.length := by
      rcases hmem with hentered | hmem
      · obtain ⟨fresh, -, -, -, hbelow⟩ := mem_entered_iff.mp hentered
        rcases active_of_next ok h with held | ⟨-, -, rfl, -⟩
        · rw [fresh] at held
          cases held
        · rw [hbelow]
          rfl
      · have held := kept.pool_active hmem
        rcases active_of_next ok h with same | ⟨fresh, -⟩
        · rw [held] at same
          rw [← Pool.active.inj same]
        · rw [fresh] at held
          cases held
    rw [show handle = handle' from congrArg Handle.mk (hlength.symm.trans hindex.symm)]
    exact h

/-- A later pool begins above all that was put by. -/
theorem Kept.nested_next (kept : Kept g) (ok : Region.Sound g.commons.region) (o : Occasion) :
    (g.next o).tenures.Pairwise fun newer older => older.cursor :: older.below <:+ newer.below := by
  refine List.Pairwise.filter _ (List.pairwise_append.mpr ⟨entered_pairwise _ _, kept.nested, ?_⟩)
  intro newer hnewer older holder
  obtain ⟨fresh, hactive, -, -, hbelow⟩ := mem_entered_iff.mp hnewer
  obtain ⟨handle, h⟩ := isActive_iff.mp hactive
  rw [hbelow]
  rcases active_of_next ok h with held | ⟨-, -, -, hopen⟩
  · rw [fresh] at held
    cases held
  · exact kept.stacked hopen older holder

/-- What a pool put by still lies on the stack after a turn of any pool. -/
theorem Kept.stacked_turn (kept : Kept g) (ok : Region.Sound g.commons.region) {u : Turn}
    (hopen : (g.commons.after u).region.phase ≠ .closed) {t : Tenure}
    (ht : t ∈ (g.next ⟨u.machine, .errand u.pool u.errand⟩).tenures) :
    t.cursor :: t.below <:+ (g.commons.after u).region.saved := by
  have hbefore : g.commons.region.phase ≠ .closed :=
    fun hclosed => hopen ((after_continues ok u).closed hclosed)
  obtain ⟨hmem, hactive⟩ := mem_next_iff.mp ht
  obtain ⟨handle, h⟩ := isActive_iff.mp hactive
  have h : (g.commons.after u).pools t.pool = .active handle := h
  -- What is entered is of the pool of this turn, which was fresh.
  have hentered : t ∈ g.commons.entered ⟨u.machine, .errand u.pool u.errand⟩ →
      g.commons.pools t.pool = .fresh ∧ t.pool = u.pool ∧ t.cursor = g.commons.region.cursor ∧
        t.below = g.commons.region.saved := by
    intro hnew
    obtain ⟨fresh, -, ⟨errand, herrand⟩, hfound⟩ := mem_entered_iff.mp hnew
    exact ⟨fresh, (Deed.errand.inj herrand).1.symm, hfound⟩
  cases (shifts_of_open ok u hopen).1 with
  | stayed saved cursor pools =>
      rw [saved]
      refine kept.stacked hbefore t (hmem.resolve_left fun hnew => ?_)
      rw [pools, (hentered hnew).1] at h
      cases h
  | begun fresh saved cursor pool others =>
      rw [saved]
      rcases hmem with hnew | hmem
      · obtain ⟨-, -, hcursor, hbelow⟩ := hentered hnew
        rw [hcursor, hbelow]
      · exact (kept.stacked hbefore t hmem).trans (List.suffix_cons _ _)
  | left ends region pool others =>
      rw [region]
      refine kept.stacked hbefore t (hmem.resolve_left fun hnew => ?_)
      rw [(hentered hnew).2.1, pool] at h
      cases h
  | @freed freedHandle older ends active newest saved rest pool others =>
      have hother : t.pool ≠ u.pool := by
        intro hsame
        rw [hsame, pool] at h
        cases h
      have hmem := hmem.resolve_left fun hnew => hother (hentered hnew).2.1
      have below := kept.stacked hbefore t hmem
      rw [saved] at below
      rw [rest]
      refine Region.suffix_of_popped below fun hlength => ?_
      -- The pool of the turn would hold the same place.
      obtain ⟨own, hown, hpool, hplace⟩ := (kept.active u.pool freedHandle).mp active
      have hsame := kept.eq_of_length hmem hown (hlength.symm.trans (newest.trans hplace.symm))
      exact hother (hsame ▸ hpool)

/-- A region that is left to the pools stays open only where nothing happens to it but turns
of pools. -/
theorem same_or_turn_of_open (pooled : o.deed.LeftToPools)
    (hopen : (c.next o).region.phase ≠ .closed) (ok : Region.Sound c.region) :
    c.next o = c ∨ ∃ u : Turn, o = ⟨u.machine, .errand u.pool u.errand⟩ := by
  obtain ⟨machine, deed⟩ := o
  have hnext := next_happens ok ⟨machine, deed⟩
  cases deed with
  | errand p errand => exact Or.inr ⟨⟨machine, p, errand⟩, rfl⟩
  | ask request =>
      obtain rfl : request = .close := pooled
      generalize c.made ⟨machine, .ask .close⟩ = made at hnext
      generalize (c.next ⟨machine, .ask .close⟩).region = r' at hnext hopen
      cases hnext with
      | ask h =>
          cases h with
          | close h => exact absurd h.closed hopen
  | discard =>
      refine Or.inl ?_
      have hsame : (c.next ⟨machine, .discard⟩).region = c.region := by
        generalize c.made ⟨machine, .discard⟩ = made at hnext
        generalize (c.next ⟨machine, .discard⟩).region = r' at hnext hopen ⊢
        cases hnext with
        | discard h =>
            cases h with
            | unheld h => rfl
            | released held => exact absurd rfl hopen
      exact congrArg (fun r => ({ c with region := r } : Commons)) hsame

/-- Where nothing happens the register stays. -/
theorem Kept.next_of_same (kept : Kept g) (hsame : g.commons.next o = g.commons) :
    g.next o = g := by
  have hnone : g.commons.entered o = [] := by
    refine List.eq_nil_iff_forall_not_mem.mpr fun t ht => ?_
    obtain ⟨fresh, began, -⟩ := mem_entered_iff.mp ht
    rw [hsame, isActive, fresh] at began
    cases began
  unfold next
  rw [hnone, hsame, List.nil_append,
    List.filter_eq_self.mpr fun t ht => kept.isActive_of_mem ht]

/-- **One occasion** keeps the register right. -/
theorem Kept.step (kept : Kept g) (ok : Region.Sound g.commons.region)
    (pooled : o.deed.LeftToPools) : Kept (g.next o) where
  active := kept.active_next ok o
  nested := kept.nested_next ok o
  stacked hopen t ht := by
    rcases same_or_turn_of_open pooled hopen ok with hsame | ⟨u, rfl⟩
    · rw [kept.next_of_same hsame] at hopen ht ⊢
      exact kept.stacked hopen t ht
    · exact kept.stacked_turn ok hopen ht

theorem Kept.through (kept : Kept g) (ok : Region.Sound g.commons.region) (os : List Occasion)
    (pooled : ∀ o ∈ os, o.deed.LeftToPools) : Kept (g.through os) := by
  induction os generalizing g with
  | nil => exact kept
  | cons o os ih =>
      obtain ⟨hfirst, hrest⟩ := List.forall_mem_cons.mp pooled
      exact ih (kept.step ok hfirst) ((next_continues ok o).sound ok) hrest

end Register

end Commons

/-! ### Ending -/

namespace Region

variable {r r' : Region} {clock : Nat} {made : List Record} {handle : Handle}

/-- **A rollback** takes the newest checkpoint off the stack, or is turned away and does
nothing. -/
theorem RollsBack.pops_or_refused {answer : Except ArenaError Unit} (ok : Sound r)
    (h : RollsBack handle r clock answer r' made) :
    (∃ cursor older, r.saved = cursor :: older ∧ older.length = handle.index ∧
        r'.cursor = cursor ∧ (r'.saved = older ∨ r'.phase = .closed) ∧
        ∀ why, answer ≠ .error (.invalidState why)) ∨
      (r.depth ≠ handle.index + 1 ∧ (∃ why, answer = .error (.invalidState why)) ∧ r' = r ∧
        made = []) := by
  cases h with
  | unreserved h =>
      refine Or.inr ⟨?_, ⟨_, rfl⟩, rfl, rfl⟩
      rw [depth, ok.unheld h]
      exact Nat.zero_ne_add_one _
  | stale phase h => exact Or.inr ⟨h, ⟨_, rfl⟩, rfl, rfl⟩
  | @popped base cursor older _ _ _ phase saved newest trims =>
      refine Or.inl ⟨cursor, older, saved, newest, ?_, ?_, trims.ne_invalidState⟩
      · cases trims with
        | unmeasured h => rfl
        | kept fits h => rfl
        | trimmed fits due => rfl
        | lost fits due uncommits => rfl
      · by_cases hopen : r'.phase = .closed
        · exact Or.inr hopen
        · exact Or.inl (trims.of_not_closed hopen).2.1

end Region

namespace Pool

variable {t t' : Tenancy} {clock : Nat} {made : List Record} {answer : Except ArenaError Unit}

theorem Closes.rolled_of_active {handle : Handle} (h : Closes t clock answer t' made)
    (active : t.pool = .active handle) :
    Region.RollsBack handle t.region clock answer t'.region made := by
  cases h with
  | again hclosed =>
      rw [active] at hclosed
      cases hclosed
  | unused hfresh =>
      rw [active] at hfresh
      cases hfresh
  | rolled hactive rolls =>
      rw [active] at hactive
      obtain rfl := Pool.active.inj hactive
      exact rolls

theorem Closes.idle (h : Closes t clock answer t' made) (idle : t.pool.handle?.isSome = false) :
    t'.region = t.region ∧ made = [] := by
  cases h with
  | again hclosed => exact ⟨rfl, rfl⟩
  | unused hfresh => exact ⟨rfl, rfl⟩
  | rolled hactive rolls =>
      rw [hactive] at idle
      cases idle

theorem Closes.isActive_eq_false (h : Closes t clock answer t' made) :
    t'.pool.handle?.isSome = false := by
  cases h with
  | again hclosed => rw [hclosed]; rfl
  | unused hfresh => rfl
  | rolled hactive rolls => rfl

end Pool

namespace Commons

variable {c : Commons} {g : Register} {u : Turn} {p : Nat} {handle : Handle} {o : Occasion}

/-- What the end of a pool is answered when its checkpoint cannot be used: a close says so, and
of a drop nobody hears. -/
def Errand.Refused (errand : Errand) (answer : Except ArenaError (Option Span)) : Prop :=
  match errand with
  | .drop => answer = .ok none
  | _ => ∃ why, answer = .error (.invalidState why)

/-- **A turn that ends its pool.**  A close tells what it came to, and a drop does not. -/
theorem end_closes (ok : Region.Sound c.region) (ends : u.errand.Ends) :
    ∃ ended, Pool.Closes ⟨c.pools u.pool, c.region⟩ u.machine.kernel.clock ended
        ⟨(c.after u).pools u.pool, (c.after u).region⟩ (c.calls u) ∧
      (u.errand = .close ∧ c.answer u = ended.map (fun _ => none) ∨
        u.errand = .drop ∧ c.answer u = .ok none) := by
  have hgoes := meet_goes ok u
  have hregion : (c.after u).region = (c.meet u).2.self.region := rfl
  rw [hregion, pools_after_self]
  generalize (c.meet u).2.self = t' at hgoes ⊢
  generalize c.answer u = answer at hgoes ⊢
  generalize c.calls u = made at hgoes ⊢
  generalize u.errand = errand at hgoes ends ⊢
  cases hgoes with
  | allocate h => exact ends.elim
  | close h => exact ⟨_, h, Or.inl ⟨rfl, rfl⟩⟩
  | drop h => exact ⟨_, h, Or.inr ⟨rfl, rfl⟩⟩

/-- **An active pool is ended.**  Its checkpoint is taken off if it is the newest, and otherwise
nothing happens. -/
theorem end_of_active (ok : Region.Sound c.region) (ends : u.errand.Ends)
    (active : c.pools u.pool = .active handle) :
    (∃ cursor older, c.region.saved = cursor :: older ∧ older.length = handle.index ∧
        (c.after u).region.cursor = cursor ∧
        ((c.after u).region.saved = older ∨ (c.after u).region.phase = .closed) ∧
        (u.errand = .close → ¬ u.errand.Refused (c.answer u))) ∨
      (c.region.depth ≠ handle.index + 1 ∧ u.errand.Refused (c.answer u) ∧
        (c.after u).region = c.region ∧ c.calls u = []) := by
  obtain ⟨ended, h, told⟩ := end_closes ok ends
  rcases (h.rolled_of_active active).pops_or_refused ok with
    ⟨cursor, older, saved, newest, hcursor, hrest, accepted⟩ | ⟨hdepth, ⟨why, rfl⟩, hnothing⟩
  · refine Or.inl ⟨cursor, older, saved, newest, hcursor, hrest, fun hclose => ?_⟩
    rcases told with ⟨-, hanswer⟩ | ⟨hdrop, -⟩
    · rw [hclose, hanswer]
      rintro ⟨why, hwhy⟩
      cases ended with
      | ok a => cases hwhy
      | error e => exact accepted why (congrArg Except.error (Except.error.inj hwhy))
    · rw [hclose] at hdrop
      cases hdrop
  · refine Or.inr ⟨hdepth, ?_, hnothing⟩
    rcases told with ⟨hclose, hanswer⟩ | ⟨hdrop, hanswer⟩
    · rw [hclose, hanswer]
      exact ⟨why, rfl⟩
    · rw [hdrop, hanswer]
      rfl

/-- A pool that has not begun, or was ended before, leaves the region alone at its end. -/
theorem end_of_idle (ok : Region.Sound c.region) (ends : u.errand.Ends)
    (idle : c.isActive u.pool = false) :
    (c.after u).region = c.region ∧ c.calls u = [] := by
  obtain ⟨ended, h, -⟩ := end_closes ok ends
  exact h.idle idle

/-- A pool that is ended is not active after that. -/
theorem isActive_after_end (ok : Region.Sound c.region) (ends : u.errand.Ends) :
    (c.after u).isActive u.pool = false := by
  obtain ⟨ended, h, -⟩ := end_closes ok ends
  exact h.isActive_eq_false

/-- A turn in which its pool does not begin and frees nothing leaves the cursor alone. -/
theorem cursor_after_of_idle (ok : Region.Sound c.region) (before : c.isActive u.pool = false)
    (idle : (c.after u).isActive u.pool = false) :
    (c.after u).region.cursor = c.region.cursor := by
  have hgoes := meet_goes ok u
  have hregion : (c.after u).region = (c.meet u).2.self.region := rfl
  unfold isActive at idle
  rw [pools_after_self] at idle
  rw [hregion]
  generalize (c.meet u).2.self = t' at hgoes idle ⊢
  generalize c.answer u = answer at hgoes
  generalize c.calls u = made at hgoes
  generalize u.errand = errand at hgoes
  cases hgoes with
  | close h => rw [(h.idle before).1]
  | drop h => rw [(h.idle before).1]
  | allocate h =>
      cases h with
      | closed hclosed => rfl
      | active hactive slices =>
          rw [show (Tenancy.mk _ _).pool = _ from hactive] at idle
          cases idle
      | unstarted hfresh checkpoints =>
          cases checkpoints with
          | unobtained obtains => exact (obtains.of_sound ok).2.1
      | started hfresh checkpoints slices => cases idle

/-! ### The last first -/

namespace Register

/-- Of the pools that have begun, only the one that began last is ever ended. -/
def LastFirst (g : Register) : List Occasion → Prop
  | [] => True
  | o :: os =>
    (∀ p errand, o.deed = .errand p errand → errand.Ends → g.commons.isActive p = true →
      g.tenures.head?.map Tenure.pool = some p) ∧ (g.next o).LastFirst os

/-- The stack is that of the bottom with nothing on it but what the pools of these tenures put
by, and if there are none, the cursor is that of the bottom. -/
def Layered (bottom : Region) : List Tenure → List Nat → Nat → Prop
  | [], saved, cursor => saved = bottom.saved ∧ cursor = bottom.cursor
  | t :: ts, saved, _ => saved = t.cursor :: t.below ∧ Layered bottom ts t.below t.cursor

variable {bottom : Region}

/-- Above a tenure the cursor may move. -/
theorem Layered.moved {ts : List Tenure} {saved : List Nat} {cursor cursor' : Nat}
    (layered : Layered bottom ts saved cursor) (h : ts = [] → cursor' = cursor) :
    Layered bottom ts saved cursor' := by
  cases ts with
  | nil => exact ⟨layered.1, (h rfl).trans layered.2⟩
  | cons t ts => exact layered

/-- Where the pool of a turn does not begin, the register is what is left of it. -/
theorem tenures_of_not_begun {u : Turn}
    (h : ¬ (g.commons.pools u.pool = .fresh ∧ (g.commons.after u).isActive u.pool = true)) :
    (g.next ⟨u.machine, .errand u.pool u.errand⟩).tenures =
      g.tenures.filter fun t => (g.commons.after u).isActive t.pool := by
  have hnone : g.commons.entered ⟨u.machine, .errand u.pool u.errand⟩ = [] := if_neg h
  show List.filter _ (_ ++ g.tenures) = _
  rw [hnone]
  rfl

/-- A pool that was active and has no part in a turn is active after it. -/
theorem Kept.isActive_after (kept : Kept g) {u : Turn} {t : Tenure} (ht : t ∈ g.tenures)
    (other : t.pool ≠ u.pool) : (g.commons.after u).isActive t.pool = true := by
  refine isActive_iff.mpr ⟨⟨t.below.length⟩, ?_⟩
  rw [pools_after_of_ne _ u t.pool other]
  exact kept.pool_active ht

/-- Where the pool of a turn is active neither before nor after it, the register stays. -/
theorem Kept.tenures_of_idle (kept : Kept g) {u : Turn}
    (before : g.commons.isActive u.pool = false) (idle : (g.commons.after u).isActive u.pool = false) :
    (g.next ⟨u.machine, .errand u.pool u.errand⟩).tenures = g.tenures := by
  rw [tenures_of_not_begun fun begins => Bool.false_ne_true (idle.symm.trans begins.2)]
  refine List.filter_eq_self.mpr fun t ht => kept.isActive_after ht fun hsame => ?_
  have hactive := kept.isActive_of_mem ht
  rw [hsame, before] at hactive
  cases hactive

/-- Where no pool moves, the register stays. -/
theorem Kept.tenures_of_same (kept : Kept g) {u : Turn}
    (pools : (g.commons.after u).pools = g.commons.pools) :
    (g.next ⟨u.machine, .errand u.pool u.errand⟩).tenures = g.tenures := by
  have hsame : ∀ p, (g.commons.after u).isActive p = g.commons.isActive p := by
    intro p
    rw [isActive, pools]
    rfl
  rw [tenures_of_not_begun]
  · exact List.filter_eq_self.mpr fun t ht => (hsame t.pool).trans (kept.isActive_of_mem ht)
  · rintro ⟨fresh, began⟩
    rw [hsame, isActive, fresh] at began
    cases began

/-- A pool that begins is entered before all others. -/
theorem Kept.tenures_of_begun (kept : Kept g) {u : Turn}
    (fresh : g.commons.pools u.pool = .fresh) (began : (g.commons.after u).isActive u.pool = true) :
    (g.next ⟨u.machine, .errand u.pool u.errand⟩).tenures =
      ⟨u.pool, g.commons.region.cursor, g.commons.region.saved⟩ :: g.tenures := by
  have hnew : g.commons.entered ⟨u.machine, .errand u.pool u.errand⟩ =
      [⟨u.pool, g.commons.region.cursor, g.commons.region.saved⟩] := if_pos ⟨fresh, began⟩
  show List.filter _ (_ ++ g.tenures) = _
  rw [hnew]
  refine List.filter_eq_self.mpr (List.forall_mem_cons.mpr ⟨began, fun t ht => ?_⟩)
  refine kept.isActive_after ht fun hsame => ?_
  have hactive := kept.pool_active ht
  rw [hsame, fresh] at hactive
  cases hactive

/-- When the pool is ended that began last, the other tenures are what is left. -/
theorem Kept.tenures_of_ended (kept : Kept g) (ok : Region.Sound g.commons.region) {u : Turn}
    {t : Tenure} {ts : List Tenure} (htenures : g.tenures = t :: ts) (hpool : t.pool = u.pool)
    (ends : u.errand.Ends) : (g.next ⟨u.machine, .errand u.pool u.errand⟩).tenures = ts := by
  have active := kept.pool_active (htenures ▸ List.mem_cons_self : t ∈ g.tenures)
  have hended : (g.commons.after u).isActive u.pool = false := isActive_after_end ok ends
  have hbegun : ¬ (g.commons.pools u.pool = .fresh ∧
      (g.commons.after u).isActive u.pool = true) := by
    rw [hended]
    exact fun begins => Bool.false_ne_true begins.2
  rw [tenures_of_not_begun hbegun, htenures, List.filter_cons_of_neg (by simp [hpool, hended])]
  refine List.filter_eq_self.mpr fun older holder => ?_
  have hmem : older ∈ g.tenures := htenures ▸ List.mem_cons_of_mem t holder
  refine kept.isActive_after hmem fun hsame => ?_
  -- It would hold a place below its own.
  have below := (List.pairwise_cons.mp (htenures ▸ kept.nested)).1 older holder
  have hactive := kept.pool_active hmem
  rw [hsame, ← hpool, active] at hactive
  have hle := below.length_le
  rw [List.length_cons, Handle.mk.inj (Pool.active.inj hactive)] at hle
  exact absurd hle (Nat.not_succ_le_self _)

/-- The pool that began last is ended: what it put by is off the stack. -/
theorem Layered.ended (kept : Kept g) (ok : Region.Sound g.commons.region) {u : Turn}
    {t : Tenure} {ts : List Tenure} (htenures : g.tenures = t :: ts) (hpool : t.pool = u.pool)
    (layered : Layered bottom g.tenures g.commons.region.saved g.commons.region.cursor)
    (ends : u.errand.Ends) (hopen : (g.commons.after u).region.phase ≠ .closed) :
    Layered bottom (g.next ⟨u.machine, .errand u.pool u.errand⟩).tenures
      (g.commons.after u).region.saved (g.commons.after u).region.cursor := by
  have active : g.commons.pools u.pool = .active ⟨t.below.length⟩ :=
    hpool ▸ kept.pool_active (htenures ▸ List.mem_cons_self)
  rw [htenures] at layered
  obtain ⟨htop, hbeneath⟩ := layered
  rw [kept.tenures_of_ended ok htenures hpool ends]
  rcases end_of_active ok ends active with ⟨cursor, older, saved, -, hcursor, hleft, -⟩ |
    ⟨hdepth, -⟩
  · rw [htop] at saved
    obtain ⟨rfl, rfl⟩ := List.cons.inj saved
    rw [hleft.resolve_right hopen, hcursor]
    exact hbeneath
  · refine absurd ?_ hdepth
    rw [Region.depth, htop]
    rfl

/-- **One turn** of a pool, if of the active pools only the last is ended. -/
theorem Layered.turn (kept : Kept g) (ok : Region.Sound g.commons.region) {u : Turn}
    (layered : Layered bottom g.tenures g.commons.region.saved g.commons.region.cursor)
    (last : u.errand.Ends → g.commons.isActive u.pool = true →
      g.tenures.head?.map Tenure.pool = some u.pool)
    (hopen : (g.commons.after u).region.phase ≠ .closed) :
    Layered bottom (g.next ⟨u.machine, .errand u.pool u.errand⟩).tenures
      (g.commons.after u).region.saved (g.commons.after u).region.cursor := by
  by_cases hlast : u.errand.Ends ∧ g.commons.isActive u.pool = true
  · obtain ⟨t, hhead, hpool⟩ := Option.map_eq_some_iff.mp (last hlast.1 hlast.2)
    obtain ⟨ts, htenures⟩ := List.head?_eq_some_iff.mp hhead
    exact layered.ended kept ok htenures hpool hlast.1 hopen
  · cases (shifts_of_open ok u hopen).1 with
    | begun fresh saved cursor pool others =>
        rw [kept.tenures_of_begun fresh (isActive_iff.mpr ⟨_, pool⟩), saved]
        exact ⟨rfl, layered⟩
    | left ends region pool others =>
        have hidle : g.commons.isActive u.pool = false :=
          Bool.eq_false_iff.mpr fun h => hlast ⟨ends, h⟩
        rw [kept.tenures_of_idle hidle (isActive_after_end ok ends), region]
        exact layered
    | freed ends active newest saved rest pool others =>
        exact absurd ⟨ends, isActive_iff.mpr ⟨_, active⟩⟩ hlast
    | stayed saved cursor pools =>
        rw [saved, kept.tenures_of_same pools]
        refine layered.moved fun hnone => ?_
        have hidle := kept.tenures_eq_nil_iff.mp hnone u.pool
        refine cursor_after_of_idle ok hidle ?_
        rw [isActive, pools]
        exact hidle

/-- **One occasion**, if of the active pools only the last is ended. -/
theorem Layered.step (kept : Kept g) (ok : Region.Sound g.commons.region) {o : Occasion}
    (pooled : o.deed.LeftToPools)
    (layered : Layered bottom g.tenures g.commons.region.saved g.commons.region.cursor)
    (last : ∀ p errand, o.deed = .errand p errand → errand.Ends → g.commons.isActive p = true →
      g.tenures.head?.map Tenure.pool = some p)
    (hopen : (g.next o).commons.region.phase ≠ .closed) :
    Layered bottom (g.next o).tenures (g.next o).commons.region.saved
      (g.next o).commons.region.cursor := by
  rcases same_or_turn_of_open pooled hopen ok with hsame | ⟨u, rfl⟩
  · rw [kept.next_of_same hsame]
    exact layered
  · exact layered.turn kept ok (last u.pool u.errand rfl) hopen

/-- **A run** on which of the active pools only the last is ended. -/
theorem Layered.through (kept : Kept g) (ok : Region.Sound g.commons.region)
    (layered : Layered bottom g.tenures g.commons.region.saved g.commons.region.cursor)
    (os : List Occasion) (pooled : ∀ o ∈ os, o.deed.LeftToPools) (last : g.LastFirst os)
    (hopen : (g.through os).commons.region.phase ≠ .closed) :
    Layered bottom (g.through os).tenures (g.through os).commons.region.saved
      (g.through os).commons.region.cursor := by
  induction os generalizing g with
  | nil => exact layered
  | cons o os ih =>
      obtain ⟨hfirst, hrest⟩ := List.forall_mem_cons.mp pooled
      have ok' : Region.Sound (g.next o).commons.region := (next_continues ok o).sound ok
      have hopen' : (g.next o).commons.region.phase ≠ .closed := by
        intro hclosed
        refine hopen ?_
        show ((g.next o).through os).commons.region.phase = .closed
        rw [commons_through]
        exact (through_continues ok' os).closed hclosed
      exact ih (kept.step ok hfirst) ok' (layered.step kept ok hfirst last.1 hopen') hrest last.2
        hopen

theorem through_concat (g : Register) (os : List Occasion) (o : Occasion) :
    g.through (os ++ [o]) = (g.through os).next o := List.foldl_concat ..

/-- A tenure tells what its pool found on the occasion on which it began: one before which it
was fresh, and on which it allocated. -/
def Tells (r : Region) (os : List Occasion) (t : Tenure) : Prop :=
  ∃ before o since, os = before ++ o :: since ∧
    (∃ errand, o.deed = .errand t.pool errand ∧ ¬ errand.Ends) ∧
    ((Commons.of r).through before).pools t.pool = .fresh ∧
    ((Commons.of r).through (before ++ [o])).isActive t.pool = true ∧
    ((Commons.of r).through before).region.cursor = t.cursor ∧
    ((Commons.of r).through before).region.saved = t.below

theorem tells_of_mem {r : Region} (ok : Region.Sound r) {os : List Occasion} {t : Tenure}
    (ht : t ∈ ((of r).through os).tenures) : Tells r os t := by
  induction os using List.reverseRecOn with
  | nil => cases ht
  | append_singleton os o ih =>
      rw [through_concat] at ht
      rcases (mem_next_iff.mp ht).1 with hnew | hold
      · rw [commons_through] at hnew
        obtain ⟨fresh, began, ⟨errand, herrand⟩, hcursor, hbelow⟩ := mem_entered_iff.mp hnew
        refine ⟨os, o, [], rfl, ⟨errand, herrand, fun ends => ?_⟩, fresh, ?_, hcursor.symm,
          hbelow.symm⟩
        · have okNow : Region.Sound ((Commons.of r).through os).region :=
            (through_continues (c := Commons.of r) ok os).sound ok
          have hended := isActive_after_end (u := ⟨o.machine, t.pool, errand⟩) okNow ends
          have hnext : ((Commons.of r).through os).next o =
              ((Commons.of r).through os).after ⟨o.machine, t.pool, errand⟩ := by
            unfold Commons.next
            rw [herrand]
          have began : (((Commons.of r).through os).next o).isActive t.pool = true := began
          rw [hnext] at began
          exact Bool.false_ne_true (hended.symm.trans began)
        · rw [Commons.through_concat]
          exact began
      · obtain ⟨before, first, since, rfl, hfound⟩ := ih hold
        exact ⟨before, first, since ++ [o], by simp, hfound⟩

/-- **Every active pool holds the checkpoint that it took, and no other.**  On a region that is
left to its pools, whatever fails and in whatever order pools are ended,

* each active pool has a place of its own on the stack, as long as the region is open, and at
  that place lies what it put by: the cursor as it was when the pool began, that is on the
  allocation by which it became active, with all beneath it unchanged;
* to end an active pool takes the newest checkpoint off the stack if that is its own, and sets
  the cursor to where it was when the pool began.  If something lies above it, the answer is
  that the state is invalid, of which nobody hears when the pool is dropped, and the region is
  left alone.  A pool that is not active leaves it alone as well;
* if of the active pools only the one that began last is ever ended, then cursor and stack are
  back where they were before the first of them began, once none is active. -/
theorem pools_hold_their_checkpoints {r : Region} (made : r.Made) (os : List Occasion)
    (pooled : ∀ o ∈ os, o.deed.LeftToPools) :
    let g := (of r).through os
    let c := g.commons
    (c.region.phase ≠ .closed →
      (∀ p handle, c.pools p = .active handle → handle.index < c.region.depth ∧
        ∃ t ∈ g.tenures, t.pool = p ∧ Tells r os t ∧ t.below.length = handle.index ∧
          t.cursor :: t.below <:+ c.region.saved) ∧
      ∀ p q handle, c.pools p = .active handle → c.pools q = .active handle → p = q) ∧
    (∀ u : Turn, u.errand.Ends →
      (∀ handle, c.pools u.pool = .active handle →
        ∃ t ∈ g.tenures, t.pool = u.pool ∧ Tells r os t ∧ t.below.length = handle.index ∧
          (c.region.depth = handle.index + 1 →
            c.region.saved = t.cursor :: t.below ∧ (c.after u).region.cursor = t.cursor ∧
            ((c.after u).region.saved = t.below ∨ (c.after u).region.phase = .closed) ∧
            (u.errand = .close → ¬ u.errand.Refused (c.answer u))) ∧
          (c.region.depth ≠ handle.index + 1 →
            u.errand.Refused (c.answer u) ∧ (c.after u).region = c.region ∧ c.calls u = [])) ∧
      (c.isActive u.pool = false → (c.after u).region = c.region ∧ c.calls u = [])) ∧
    ∀ since, (∀ o ∈ since, o.deed.LeftToPools) → (∀ p, c.isActive p = false) →
      g.LastFirst since → (∀ p, (g.through since).commons.isActive p = false) →
      (g.through since).commons.region.phase ≠ .closed →
      (g.through since).commons.region.saved = c.region.saved ∧
        (g.through since).commons.region.cursor = c.region.cursor := by
  intro g c
  have hc : c = (Commons.of r).through os := commons_through (of r) os
  have ok : Region.Sound c.region := by
    rw [hc]
    exact (through_continues (c := Commons.of r) made.sound os).sound made.sound
  have kept : Kept g := (kept_of r).through made.sound os pooled
  refine ⟨fun hopen => ⟨?_, ?_⟩, fun u ends => ⟨?_, end_of_idle ok ends⟩, ?_⟩
  · intro p handle h
    obtain ⟨t, ht, hpool, hlength⟩ := (kept.active p handle).mp h
    have lies := kept.stacked hopen t ht
    have hle := lies.length_le
    rw [List.length_cons, hlength] at hle
    exact ⟨hle, t, ht, hpool, tells_of_mem made.sound ht, hlength, lies⟩
  · intro p q handle hp hq
    obtain ⟨t, ht, rfl, hlength⟩ := (kept.active p handle).mp hp
    obtain ⟨t', ht', rfl, hlength'⟩ := (kept.active q handle).mp hq
    rw [kept.eq_of_length ht ht' (hlength.trans hlength'.symm)]
  · intro handle h
    obtain ⟨t, ht, hpool, hlength⟩ := (kept.active u.pool handle).mp h
    refine ⟨t, ht, hpool, tells_of_mem made.sound ht, hlength, fun htop => ?_, fun hburied => ?_⟩
    · rcases end_of_active ok ends h with
        ⟨cursor, older, saved, -, hcursor, hleft, hanswer⟩ | ⟨hburied, -⟩
      · have hopen : c.region.phase ≠ .closed := by
          intro hclosed
          rw [ok.saved_nil (Or.inr hclosed)] at saved
          cases saved
        have whole : t.cursor :: t.below = c.region.saved := by
          refine (kept.stacked hopen t ht).eq_of_length ?_
          rw [List.length_cons, hlength]
          exact htop.symm
        obtain ⟨htcursor, hbelow⟩ := List.cons.inj (whole.trans saved)
        exact ⟨whole.symm, htcursor ▸ hcursor, hbelow ▸ hleft, hanswer⟩
      · exact absurd htop hburied
    · rcases end_of_active ok ends h with ⟨cursor, older, saved, newest, -⟩ | ⟨-, refused⟩
      · refine absurd ?_ hburied
        rw [Region.depth, saved, List.length_cons, newest]
      · exact refused
  · intro since pooled' idle last idle' hopen
    have layered : Layered c.region g.tenures c.region.saved c.region.cursor := by
      rw [kept.tenures_eq_nil_iff.mpr idle]
      exact ⟨rfl, rfl⟩
    have layered' := layered.through kept ok since pooled' last hopen
    rw [(kept.through ok since pooled').tenures_eq_nil_iff.mpr idle'] at layered'
    exact layered'

/-- The first of two pools is closed out of turn: it is turned away, and its checkpoint stays
on the stack when the second is closed.  Above it two more pools begin and are ended, the last
first, and leave stack and cursor as they found them. -/
theorem pools_above_one_closed_out_of_turn :
    let errand (p : Nat) (errand : Errand) : Occasion := ⟨{}, .errand p errand⟩
    let os : List Occasion :=
      [errand 0 (.allocate 100 1 false), errand 1 (.allocate 50 1 false), errand 0 .close]
    let since : List Occasion :=
      [errand 2 (.allocate 30 1 true), errand 3 (.allocate 20000 1 false), errand 3 .drop,
        errand 2 .close]
    let g := (of Region.twoPages).through os
    let u : Turn := ⟨{}, 1, .close⟩
    let later := (of Region.twoPages).through (os ++ [errand 1 .close])
    Region.twoPages.Made ∧ (∀ o ∈ os ++ [errand 1 .close] ++ since, o.deed.LeftToPools) ∧
      g.commons.pools 0 = .closed ∧ g.commons.pools 1 = .active ⟨1⟩ ∧
      g.commons.region.saved = [100, 0] ∧ g.commons.region.cursor = 150 ∧
      (g.commons.after u).region.cursor = 100 ∧ (g.commons.after u).region.saved = [0] ∧
      later.LastFirst since ∧
      (later.through since).commons.region.saved = [0] ∧
      (later.through since).commons.region.cursor = 100 := by
  intro errand os since g u later
  have pooled : ∀ o ∈ os ++ [errand 1 .close] ++ since, o.deed.LeftToPools := by
    simp [os, since, errand, Deed.LeftToPools]
  have pooled₀ : ∀ o ∈ os, o.deed.LeftToPools :=
    fun o ho => pooled o (List.mem_append_left _ (List.mem_append_left _ ho))
  have pooled₁ : ∀ o ∈ os ++ [errand 1 .close], o.deed.LeftToPools :=
    fun o ho => pooled o (List.mem_append_left _ ho)
  have active : g.commons.pools 1 = .active ⟨1⟩ := by decide
  have stack : g.commons.region.saved = [100, 0] := by decide
  have hopen : (g.commons.after u).region.phase ≠ .closed := by decide
  have holds := pools_hold_their_checkpoints Region.twoPages_made os pooled₀
  rw [show (of Region.twoPages).through os = g from rfl] at holds
  obtain ⟨-, hends, -⟩ := holds
  obtain ⟨t, -, -, -, -, htop, -⟩ := (hends u trivial).1 ⟨1⟩ active
  obtain ⟨hsaved, hcursor, hleft, -⟩ := htop (by decide)
  obtain ⟨htcursor, hbelow⟩ := List.cons.inj (hsaved.symm.trans stack)
  -- The checkpoint of the first pool is left, and no pool holds it.
  have kept := (kept_of Region.twoPages).through Region.twoPages_made.sound _ pooled₁
  have kept' := kept.through
    (commons_through _ _ ▸ (through_continues (c := Commons.of Region.twoPages)
      Region.twoPages_made.sound (os ++ [errand 1 .close])).sound Region.twoPages_made.sound)
    since fun o ho => pooled o (List.mem_append_right _ ho)
  have last : later.LastFirst since := by
    refine ⟨?_, ?_, ?_, ?_, trivial⟩
    · rintro p e ⟨⟩ ends
      exact ends.elim
    · rintro p e ⟨⟩ ends
      exact ends.elim
    · rintro p e ⟨⟩ - -
      decide
    · rintro p e ⟨⟩ - -
      decide
  have holds := pools_hold_their_checkpoints Region.twoPages_made _ pooled₁
  rw [show (of Region.twoPages).through (os ++ [errand 1 .close]) = later from rfl] at holds
  obtain ⟨-, -, hback⟩ := holds
  obtain ⟨hsaved', hcursor'⟩ := hback since
    (fun o ho => pooled o (List.mem_append_right _ ho))
    (kept.tenures_eq_nil_iff.mp (by decide)) last (kept'.tenures_eq_nil_iff.mp (by decide))
    (by decide)
  have bottom : later.commons.region.saved = [0] ∧ later.commons.region.cursor = 100 := by decide
  exact ⟨Region.twoPages_made, pooled, by decide, active, stack, by decide,
    hcursor.trans htcursor, (hleft.resolve_right hopen).trans hbelow, last,
    hsaved'.trans bottom.1, hcursor'.trans bottom.2⟩

end Register

end Commons

end PageArena
