/-
The address space of a region, from the mapping to its end.

Of all calls that are made for a region those count here that begin and end its address
space.  `Passage` says how these can go while something is done with the region.  Nothing is
mapped unless the region is unused, and nothing is unmapped but what the region holds; it is
closed then, so nothing comes after that.

`Account` says the same of a whole life.  There are tries that got nothing, then the mapping
that is the region's own, then changes of its pages, and at last the release.  A region that
is closed has either gone all the way or never began it.
-/
import Mathlib
import PageArena.Proofs.Allocator.Pool

namespace PageArena

open OsCall (Record)

namespace Region

/-- Calls that ask for a mapping and nothing else. -/
def Attempts (total : Nat) (made : List Record) : Prop :=
  ∀ record ∈ made, ∃ result, record = .mmap total result

/-- A call that changes pages within a reservation. -/
inductive Change (base total : Nat) : Record → Prop
  | access {start length : Nat} {protection : OsCall.Protection} {result : Int}
      (low : base ≤ start) (high : start + length ≤ base + total) :
      Change base total (.mprotect start length protection result)
  | contents {start length : Nat} {result : Int} (low : base ≤ start)
      (high : start + length ≤ base + total) : Change base total (.madvise start length result)

/-- Calls that change pages within a reservation and nothing else. -/
def Changes (base total : Nat) (made : List Record) : Prop :=
  ∀ record ∈ made, Change base total record

theorem Changes.nil {base total : Nat} : Changes base total [] := nofun

theorem Changes.cons {base total : Nat} {record : Record} {made : List Record}
    (first : Change base total record) (h : Changes base total made) :
    Changes base total (record :: made) := by
  intro record' hrecord
  rcases List.mem_cons.mp hrecord with rfl | hrecord
  · exact first
  · exact h record' hrecord

theorem Changes.single {base total : Nat} {record : Record} (h : Change base total record) :
    Changes base total [record] :=
  .cons h .nil

theorem Changes.append {base total : Nat} {made made' : List Record}
    (h : Changes base total made) (h' : Changes base total made') :
    Changes base total (made ++ made') := by
  intro record hrecord
  rcases List.mem_append.mp hrecord with hrecord | hrecord
  · exact h record hrecord
  · exact h' record hrecord

/-- What is done with address space that is held: its pages are changed, and it may be
released at the end, whether or not the release succeeds. -/
inductive Uses (base total : Nat) : Phase → List Record → Prop
  | kept {made : List Record} (changes : Changes base total made) :
      Uses base total (.reserved base) made
  | released {made : List Record} {result : Int} (changes : Changes base total made) :
      Uses base total .closed (made ++ [.munmap base total result])

/-- What becomes of a region's address space while something is done with the region: where
it stands then, and the calls that were made. -/
inductive Passage (r : Region) : Phase → List Record → Prop
  | idle : Passage r r.phase []
  /-- The region is closed before it was used. -/
  | dismissed (unused : r.phase = .unreserved) : Passage r .closed []
  /-- There is no mapping, or the region cannot begin where it is. -/
  | refused {result : Int} (unused : r.phase = .unreserved) :
      Passage r .unreserved [.mmap r.total result]
  | held {base : Nat} {phase : Phase} {made : List Record} (held : r.phase = .reserved base)
      (uses : Uses base r.total phase made) : Passage r phase made
  | entered {base : Nat} {phase : Phase} {made : List Record} (unused : r.phase = .unreserved)
      (uses : Uses base r.total phase made) : Passage r phase (.mmap r.total base :: made)

variable {r r' : Region} {clock base : Nat} {phase : Phase} {made made' : List Record}

/-- Changes before a use are part of it. -/
theorem Uses.prepend {total : Nat} (changes : Changes base total made) (h : Uses base total phase made') :
    Uses base total phase (made ++ made') := by
  cases h with
  | kept changes' => exact .kept (changes.append changes')
  | released changes' =>
      rw [← List.append_assoc]
      exact .released (changes.append changes')

theorem Uses.changes_of_reserved {total base' : Nat}
    (h : Uses base total (.reserved base') made) : base' = base ∧ Changes base total made := by
  cases h with
  | kept changes => exact ⟨rfl, changes⟩

/-- A region that holds address space uses it, whatever is done. -/
theorem Passage.uses (hbase : r.phase = .reserved base) (h : Passage r phase made) :
    Uses base r.total phase made := by
  cases h with
  | idle =>
      rw [hbase]
      exact .kept .nil
  | dismissed unused =>
      rw [hbase] at unused
      cases unused
  | refused unused =>
      rw [hbase] at unused
      cases unused
  | held held uses =>
      rw [hbase] at held
      obtain rfl := Phase.reserved.inj held
      exact uses
  | entered unused uses =>
      rw [hbase] at unused
      cases unused

/-- Something that leaves the region holding address space, and then a use of that. -/
theorem Passage.append (first : Passage r (.reserved base) made)
    (next : Uses base r.total phase made') : Passage r phase (made ++ made') := by
  generalize hphase : Phase.reserved base = phase₁ at first
  cases first with
  | idle => exact .held hphase.symm next
  | dismissed unused => cases hphase
  | refused unused => cases hphase
  | held held uses =>
      subst hphase
      obtain ⟨rfl, changes⟩ := uses.changes_of_reserved
      exact .held held (next.prepend changes)
  | entered unused uses =>
      subst hphase
      obtain ⟨rfl, changes⟩ := uses.changes_of_reserved
      exact .entered unused (next.prepend changes)

/-! ### What each operation does -/

theorem Obtains.passage {answer : Except ArenaError Nat}
    (h : Obtains r clock answer r' made) : Passage r r'.phase made := by
  cases h with
  | held phase => exact .idle
  | closed phase => exact .idle
  | unreserved unused reserves =>
      rw [unused]
      cases reserves with
      | unusable => exact .refused unused
      | failed errno result => exact .refused unused
  | unaddressable unused h =>
      rw [unused]
      exact .refused unused
  | fresh unused pos h => exact .entered unused (.kept .nil)

/-- Pages that are made accessible lie within the reservation. -/
theorem change_grown (ok : Sound r) (whole : Nat) (result : Int) :
    Change base r.total (.mprotect (base + r.committed) (min whole r.total - r.committed)
      .readWrite result) := by
  have hle := ok.committed_le
  exact .access (by omega) (by omega)

theorem Grows.uses {stop : Nat} {answer : Except ArenaError Unit} (ok : Sound r)
    (hbase : r.phase = .reserved base) (h : Grows r base stop answer r' made) :
    Uses base r.total r'.phase made := by
  cases h with
  | unrounded h =>
      rw [hbase]
      exact .kept .nil
  | @grown whole h =>
      show Uses base r.total r.phase _
      rw [hbase]
      exact .kept (.single (change_grown ok whole 0))
  | @lost whole errno result h =>
      exact .released (.single (change_grown ok whole (-errno)))

theorem Cuts.uses {size align : Nat} {answer : Except ArenaError Span} (ok : Sound r)
    (hbase : r.phase = .reserved base) (h : Cuts size align base r answer r' made) :
    Uses base r.total r'.phase made := by
  have kept : Uses base r.total r.phase [] := by
    rw [hbase]
    exact .kept .nil
  cases h with
  | unrounded h => exact kept
  | oversized rounded h => exact kept
  | unfit rounded h => exact kept
  | empty rounded fits h => exact kept
  | inside rounded pos h => exact kept
  | grown rounded pos past fits grows =>
      have uses := grows.uses ok hbase
      exact uses
  | ungrown rounded pos past fits grows => exact grows.uses ok hbase

theorem Slices.passage {size align : Nat} {answer : Except ArenaError Span} (ok : Sound r)
    (h : Slices size align r clock answer r' made) : Passage r r'.phase made := by
  cases h with
  | misaligned h => exact .idle
  | unobtained aligned obtains => exact obtains.passage
  | obtained aligned obtains cuts =>
      have hbase := obtains.phase_of_ok
      have first := obtains.passage
      have ok₁ := obtains.continues.sound ok
      rw [hbase] at first
      exact first.append (obtains.continues.total ▸ cuts.uses ok₁ hbase)

theorem Checkpoints.passage {answer : Except ArenaError Handle}
    (h : Checkpoints r clock answer r' made) : Passage r r'.phase made := by
  cases h with
  | unobtained obtains => exact obtains.passage
  | pushed obtains => exact obtains.passage

/-- Pages that are taken away lie within the reservation. -/
theorem trimmed_within (base : Nat) (ok : Sound r) (due : r.Due clock) :
    base ≤ base + (r.committed - r.batchBytes) ∧
      base + (r.committed - r.batchBytes) + r.batchBytes ≤ base + r.total := by
  have hcommitted := ok.committed_le
  have hbatch := ok.batchBytes_le
  have hidle := due.1
  omega

theorem Trims.uses {answer : Except ArenaError Unit} (ok : Sound r)
    (hbase : r.phase = .reserved base) (h : Trims r clock base answer r' made) :
    Uses base r.total r'.phase made := by
  have kept : ∀ made, Changes base r.total made → Uses base r.total r.phase made := by
    intro made changes
    rw [hbase]
    exact .kept changes
  cases h with
  | unmeasured h => exact kept [] .nil
  | kept fits h => exact kept [] .nil
  | trimmed fits due =>
      obtain ⟨low, high⟩ := trimmed_within base ok due
      refine kept _ (Changes.cons (.access low high) (.single (.contents low high)))
  | @lost e made result fits due uncommits =>
      obtain ⟨low, high⟩ := trimmed_within base ok due
      have changes : Changes base r.total made := by
        cases uncommits with
        | unprotected errno => exact .single (.access low high)
        | kept errno =>
            exact .cons (.access low high) (.single (.contents low high))
      exact .released changes

theorem RollsBack.passage {handle : Handle} {answer : Except ArenaError Unit} (ok : Sound r)
    (h : RollsBack handle r clock answer r' made) : Passage r r'.phase made := by
  cases h with
  | unreserved h => exact .idle
  | stale phase h => exact .idle
  | popped phase saved newest trims =>
      have uses := Trims.uses (ok.popped saved) (by exact phase) trims
      exact .held phase uses

theorem Closes.passage {answer : Except ArenaError Unit} (h : Closes r answer r' made) :
    Passage r r'.phase made := by
  cases h with
  | again phase => exact .idle
  | unused phase => exact .dismissed phase
  | released phase answered =>
      cases answered with
      | done => exact .held phase (.released .nil)
      | failed errno => exact .held phase (.released .nil)

/-- How the end of a region can go that nobody holds any more. -/
inductive Discards (r : Region) : Region → List Record → Prop
  | unheld (h : ∀ base, r.phase ≠ .reserved base) : Discards r r []
  | released {base : Nat} {result : Int} (held : r.phase = .reserved base) :
      Discards r r.abandoned [.munmap base r.total result]

theorem discard_discards {w w' : World Region} {answer : Except Empty Unit}
    (h : discard.run w = (answer, w')) :
    ∃ r made, Discards w.self r made ∧ w.Leads w' r made := by
  unfold discard at h
  rw [Act.run_self_bind] at h
  cases hp : w.self.phase with
  | unreserved =>
      simp only [hp, Act.run_pure] at h
      obtain ⟨rfl, rfl⟩ := Prod.mk.inj h
      exact ⟨_, _, .unheld (by simp [hp]), .refl w⟩
  | closed =>
      simp only [hp, Act.run_pure] at h
      obtain ⟨rfl, rfl⟩ := Prod.mk.inj h
      exact ⟨_, _, .unheld (by simp [hp]), .refl w⟩
  | reserved base =>
      simp only [hp, Act.run_bind, Act.run_emit, Act.run_attempt] at h
      generalize hclose : close.run _ = outcome at h
      obtain ⟨closed, w₁⟩ := outcome
      obtain ⟨r, made, closes, leads⟩ := close_closes hclose
      have leads : w.Leads w₁ r made := ⟨leads.self, leads.calls, leads.clock⟩
      have hdiscards : Discards w.self r made := by
        cases closes with
        | again phase =>
            rw [show w.self.phase = .closed from phase] at hp
            cases hp
        | unused phase =>
            rw [show w.self.phase = .unreserved from phase] at hp
            cases hp
        | released phase answered =>
            cases answered with
            | done => exact .released phase
            | failed errno => exact .released phase
      cases closed with
      | ok u =>
          obtain ⟨rfl, rfl⟩ := Prod.mk.inj h
          exact ⟨r, made, hdiscards, leads⟩
      | error e =>
          obtain ⟨rfl, rfl⟩ := Prod.mk.inj h
          exact ⟨r, made, hdiscards, leads.report _⟩

/-- After its end a region holds no address space. -/
theorem Discards.phase_ne (h : Discards r r' made) (base : Nat) :
    r'.phase ≠ .reserved base := by
  cases h with
  | unheld h => exact h base
  | released held => exact nofun

/-- Something that is done with a region, and then its end. -/
theorem Passage.discard {r₁ : Region} (first : Passage r r₁.phase made)
    (total : r₁.total = r.total) (next : Discards r₁ r' made') :
    Passage r r'.phase (made ++ made') := by
  cases next with
  | unheld h =>
      rw [List.append_nil]
      exact first
  | released held =>
      rw [held] at first
      exact first.append (total ▸ .released .nil)

/-- A region for which nothing was called yet has nothing to release at its end. -/
theorem Passage.unbegun {r₁ : Region} (first : Passage r r₁.phase [])
    (unused : r.phase = .unreserved) (next : Discards r₁ r' made) : made = [] := by
  cases next with
  | unheld h => rfl
  | released held =>
      rw [held] at first
      generalize hphase : Phase.reserved _ = phase₁ at first
      generalize hmade : ([] : List Record) = made₁ at first
      cases first with
      | idle =>
          rw [unused] at hphase
          cases hphase
      | dismissed => cases hphase
      | refused => cases hphase
      | held held uses =>
          rw [unused] at held
          cases held
      | entered => cases hmade

/-! ### A whole life -/

/-- The mapping that a region has taken, if it was unused before and is not any more. -/
def taken (before after : Phase) (made : List Record) : List Int :=
  if before = .unreserved ∧ after ≠ .unreserved then
    made.filterMap fun
      | .mmap _ result => some result
      | _ => none
  else []

/-- The calls that were made for a region since it was made, where it stands now, and which
mappings it has taken. -/
inductive Account (total : Nat) : Phase → List Int → List Record → Prop
  | unused {made : List Record} (attempts : Attempts total made) :
      Account total .unreserved [] made
  | dismissed {made : List Record} (attempts : Attempts total made) :
      Account total .closed [] made
  | began {attempts made : List Record} {base : Nat} {phase : Phase}
      (tried : Attempts total attempts) (uses : Uses base total phase made) :
      Account total phase [(base : Int)] (attempts ++ .mmap total base :: made)

theorem taken_of_ne {before after : Phase} (h : before ≠ .unreserved) (made : List Record) :
    taken before after made = [] :=
  if_neg fun hc => h hc.1

/-- Changes and a release take no mapping. -/
theorem Uses.taken {total : Nat} (h : Uses base total phase made) (result : Int) :
    Region.taken .unreserved phase (.mmap total result :: made) = [result] := by
  have none_of_changes : ∀ {made : List Record}, Changes base total made →
      made.filterMap (fun | .mmap _ result => some result | _ => none)
        = ([] : List Int) := by
    intro made changes
    refine List.filterMap_eq_nil_iff.mpr ?_
    intro record hrecord
    cases changes record hrecord with
    | access low high => rfl
    | contents low high => rfl
  unfold Region.taken
  cases h with
  | kept changes =>
      rw [if_pos ⟨rfl, nofun⟩, List.filterMap_cons, none_of_changes changes]
  | released changes =>
      rw [if_pos ⟨rfl, nofun⟩, List.filterMap_cons, List.filterMap_append,
        none_of_changes changes]
      rfl

/-- **The account goes on** with whatever is done next. -/
theorem Account.passage {bases : List Int} {calls : List Record}
    (h : Account r.total r.phase bases calls) (next : Passage r phase made) :
    Account r.total phase (bases ++ taken r.phase phase made) (calls ++ made) := by
  generalize hphase : r.phase = before at h
  cases h with
  | unused attempts =>
      cases next with
      | idle =>
          rw [hphase, List.append_nil]
          exact .unused attempts
      | dismissed unused =>
          rw [List.append_nil]
          exact .dismissed attempts
      | refused unused =>
          refine .unused ?_
          intro record hrecord
          rcases List.mem_append.mp hrecord with hrecord | hrecord
          · exact attempts record hrecord
          · exact ⟨_, List.mem_singleton.mp hrecord⟩
      | held held uses =>
          rw [hphase] at held
          cases held
      | entered unused uses =>
          rw [uses.taken]
          exact .began attempts uses
  | dismissed attempts =>
      cases next with
      | idle =>
          rw [hphase, List.append_nil]
          exact .dismissed attempts
      | dismissed unused =>
          rw [hphase] at unused
          cases unused
      | refused unused =>
          rw [hphase] at unused
          cases unused
      | held held uses =>
          rw [hphase] at held
          cases held
      | entered unused uses =>
          rw [hphase] at unused
          cases unused
  | @began attempts made₁ base _ tried uses =>
      cases uses with
      | kept changes =>
          have hne : Phase.reserved base ≠ .unreserved := nofun
          rw [taken_of_ne hne, List.append_nil, List.append_assoc, List.cons_append]
          exact .began tried ((next.uses hphase).prepend changes)
      | released changes =>
          have hidle : phase = .closed ∧ made = [] := by
            cases next with
            | idle => exact ⟨hphase, rfl⟩
            | dismissed unused => exact ⟨rfl, rfl⟩
            | refused unused =>
                rw [hphase] at unused
                cases unused
            | held held uses =>
                rw [hphase] at held
                cases held
            | entered unused uses =>
                rw [hphase] at unused
                cases unused
          obtain ⟨rfl, rfl⟩ := hidle
          have hne : Phase.closed ≠ .unreserved := nofun
          rw [taken_of_ne hne, List.append_nil, List.append_nil]
          exact .began tried (.released changes)

/-- A region that is unused now was never used. -/
theorem Passage.unused (h : Passage r phase made) (now : phase = .unreserved) :
    r.phase = .unreserved := by
  cases h with
  | idle => exact now
  | dismissed unused => exact unused
  | refused unused => exact unused
  | held held uses =>
      cases uses with
      | kept => cases now
      | released => cases now
  | entered unused uses => exact unused

/-- The account is closed with a region that ends, if it has released what it held and nothing
was called for it as long as it was unused. -/
theorem Account.closed {bases : List Int} {calls : List Record}
    (h : Account r.total r.phase bases calls) (last : Passage r phase made)
    (released : ∀ base, phase ≠ .reserved base)
    (unbegun : r.phase = .unreserved → made = []) :
    Account r.total .closed (bases ++ taken r.phase .closed made) (calls ++ made) := by
  cases hphase : phase with
  | closed =>
      rw [hphase] at last
      exact h.passage last
  | reserved base => exact absurd hphase (released base)
  | unreserved =>
      have unused := last.unused hphase
      obtain rfl := unbegun unused
      exact h.passage (.dismissed unused)

end Region

namespace Pool

variable {t t' : Tenancy} {clock : Nat} {made : List Record}

theorem Allocates.passage {size align : Nat} {answer : Except ArenaError Span}
    (ok : Region.Sound t.region) (h : Allocates size align t clock answer t' made) :
    Region.Passage t.region t'.region.phase made := by
  cases h with
  | closed h => exact .idle
  | active h slices => exact slices.passage ok
  | unstarted h checkpoints => exact checkpoints.passage
  | started h checkpoints slices =>
      have ok₁ := checkpoints.continues.sound ok
      cases checkpoints with
      | pushed obtains =>
          have hbase := obtains.phase_of_ok
          have first := obtains.passage
          rw [hbase] at first
          have next := Region.Passage.uses (by exact hbase) (slices.passage ok₁)
          exact first.append (obtains.continues.total ▸ next)

/-- The end of a pool takes nothing from a region that is unused. -/
theorem Closes.made_eq_nil {answer : Except ArenaError Unit} (h : Closes t clock answer t' made)
    (unused : t.region.phase = .unreserved) : made = [] := by
  cases h with
  | again h => rfl
  | unused h => rfl
  | rolled h rolls =>
      cases rolls with
      | unreserved h => rfl
      | stale phase h => rfl
      | popped phase saved newest trims =>
          rw [unused] at phase
          cases phase

theorem Closes.passage {answer : Except ArenaError Unit} (ok : Region.Sound t.region)
    (h : Closes t clock answer t' made) : Region.Passage t.region t'.region.phase made := by
  cases h with
  | again h => exact .idle
  | unused h => exact .idle
  | rolled h rolls => exact rolls.passage ok

end Pool

end PageArena
