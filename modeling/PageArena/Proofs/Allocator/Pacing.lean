/-
When pages are given back, and how often.

Pages are given back in one place only: at the end of a rollback that was accepted, whether it
was asked of the region or made for a pool that is ended.  Every other way for an occasion to
go makes no such call, and sets the region's time only where it reserves the region
(`Spares`).  So the time that a rollback looks at is always the later of the reservation
and the last giving back, and this is what the list of moments says as well (`Timed`).

That pages are given back no more often than the tuning allows is then no more than the test
that the rollback makes, for two moments that follow each other; for any two it follows because
the moments come in their order.
-/
import Mathlib
import PageArena.Proofs.Allocator.Occasions
import PageArena.Proofs.Region.Rollback

namespace PageArena

open OsCall (Record)

/-- Whether a call is one of the two by which pages are given back. -/
def OsCall.Record.isUncommit : Record → Bool
  | .mprotect _ _ .noAccess _ => true
  | .madvise .. => true
  | _ => false

/-- Each call by which pages are taken away is one of the two. -/
theorem VirtualMemory.Uncommits.isUncommit {address length : Nat}
    {answer : Except ArenaError Unit} {made : List Record}
    (h : Uncommits address length answer made) : ∀ record ∈ made, record.isUncommit = true := by
  cases h with
  | done => simp [Record.isUncommit]
  | unprotected errno => simp [Record.isUncommit]
  | kept errno => simp [Record.isUncommit]

/-- To take pages away takes a call. -/
theorem VirtualMemory.Uncommits.ne_nil {address length : Nat} {answer : Except ArenaError Unit}
    {made : List Record} (h : Uncommits address length answer made) : made ≠ [] := by
  cases h with
  | done => exact nofun
  | unprotected errno => exact nofun
  | kept errno => exact nofun

namespace Region

/-- Nothing is given back, and the time is set only when the region is reserved. -/
structure Spares (r : Region) (clock : Nat) (r' : Region) (made : List Record) : Prop where
  calls : made.filter Record.isUncommit = []
  reserved : ∀ base, r'.phase = .reserved base →
    r.phase = .reserved base ∧ r'.lastTrim = r.lastTrim ∨
      r.phase = .unreserved ∧ r'.lastTrim = clock
  unused : r'.phase = .unreserved → r.phase = .unreserved

variable {r r₁ r' : Region} {clock base : Nat} {made made' : List Record}

/-- Pages are spared where phase and time stay. -/
theorem Spares.of_same (calls : made.filter Record.isUncommit = []) (phase : r'.phase = r.phase)
    (time : r'.lastTrim = r.lastTrim) : Spares r clock r' made where
  calls := calls
  reserved _ h := Or.inl ⟨phase ▸ h, time⟩
  unused h := phase ▸ h

/-- They are spared where the region is closed. -/
theorem Spares.of_closed (calls : made.filter Record.isUncommit = []) (phase : r'.phase = .closed) :
    Spares r clock r' made where
  calls := calls
  reserved _ h := by rw [phase] at h; cases h
  unused h := by rw [phase] at h; cases h

theorem Spares.refl (r : Region) (clock : Nat) : Spares r clock r [] := .of_same rfl rfl rfl

/-- One thing after the other, at one time. -/
theorem Spares.append (first : Spares r clock r₁ made) (second : Spares r₁ clock r' made') :
    Spares r clock r' (made ++ made') where
  calls := by rw [List.filter_append, first.calls, second.calls, List.append_nil]
  reserved base h := by
    rcases second.reserved base h with ⟨hphase, htime⟩ | ⟨hphase, htime⟩
    · exact htime ▸ first.reserved base hphase
    · exact Or.inr ⟨first.unused hphase, htime⟩
  unused h := first.unused (second.unused h)

theorem Obtains.spares {answer : Except ArenaError Nat}
    (h : Obtains r clock answer r' made) : Spares r clock r' made := by
  cases h with
  | held phase => exact .refl r clock
  | closed phase => exact .refl r clock
  | unaddressable phase h => exact .of_same rfl rfl rfl
  | unreserved phase reserves =>
      cases reserves with
      | unusable => exact .of_same rfl rfl rfl
      | failed errno result => exact .of_same rfl rfl rfl
  | fresh phase pos h =>
      refine ⟨rfl, fun _ _ => Or.inr ⟨phase, rfl⟩, fun hu => ?_⟩
      cases hu

theorem Grows.spares {stop : Nat} {answer : Except ArenaError Unit}
    (h : Grows r base stop answer r' made) : Spares r clock r' made := by
  cases h with
  | unrounded h => exact .refl r clock
  | grown h => exact .of_same rfl rfl rfl
  | lost h => exact .of_closed rfl rfl

theorem Cuts.spares {size align : Nat} {answer : Except ArenaError Span}
    (h : Cuts size align base r answer r' made) : Spares r clock r' made := by
  cases h with
  | unrounded h => exact .refl r clock
  | oversized rounded h => exact .refl r clock
  | unfit rounded h => exact .refl r clock
  | empty rounded fits h => exact .refl r clock
  | inside rounded pos h => exact .of_same rfl rfl rfl
  | ungrown rounded pos past fits grows => exact grows.spares
  | grown rounded pos past fits grows =>
      have first : Spares r clock _ _ := grows.spares
      exact ⟨first.calls, first.reserved, first.unused⟩

theorem Slices.spares {size align : Nat} {answer : Except ArenaError Span}
    (h : Slices size align r clock answer r' made) : Spares r clock r' made := by
  cases h with
  | misaligned h => exact .refl r clock
  | unobtained aligned obtains => exact obtains.spares
  | obtained aligned obtains cuts => exact obtains.spares.append cuts.spares

theorem Checkpoints.spares {answer : Except ArenaError Handle}
    (h : Checkpoints r clock answer r' made) : Spares r clock r' made := by
  cases h with
  | unobtained obtains => exact obtains.spares
  | pushed obtains =>
      obtain ⟨calls, reserved, unused⟩ := obtains.spares
      exact ⟨calls, reserved, unused⟩

theorem Closes.spares {answer : Except ArenaError Unit} (h : Closes r answer r' made) :
    Spares r clock r' made := by
  cases h with
  | again phase => exact .refl r clock
  | unused phase => exact .of_closed rfl rfl
  | released phase answered =>
      cases answered with
      | done => exact .of_closed rfl rfl
      | failed errno => exact .of_closed rfl rfl

theorem Discards.spares (h : Discards r r' made) : Spares r clock r' made := by
  cases h with
  | unheld h => exact .refl r clock
  | released held => exact .of_closed rfl rfl

/-- When a rollback is to give pages back: the handle is that of the newest checkpoint, and
with the cursor put back there more lies idle than may, and long enough. -/
def Overdue (r : Region) (handle : Handle) (clock : Nat) : Prop :=
  r.Accepts handle ∧ ∃ cursor ∈ r.saved.head?, r.thresholdBytes < r.committed - cursor ∧
    r.tuning.cooldown.nanoseconds ≤ clock - r.lastTrim

/-- The topmost batch of accessible pages is given back, or the region is lost in trying. -/
structure GivesBack (r : Region) (clock : Nat) (r' : Region) (made : List Record) : Prop where
  cursor : r.saved.head? = some r'.cursor
  batch : r.batchBytes ≤ r.committed
  calls : ∃ base answer, r.phase = .reserved base ∧
    VirtualMemory.Uncommits (base + (r.committed - r.batchBytes)) r.batchBytes answer
      (made.filter Record.isUncommit) ∧
    (answer = .ok () ∧ r'.phase = .reserved base ∧ r'.lastTrim = clock ∧
        r'.committed = r.committed - r.batchBytes ∨
      answer ≠ .ok () ∧ r'.phase = .closed)

/-- **A rollback** gives a batch back if that is overdue, and otherwise nothing. -/
theorem RollsBack.givesBack_or_spares {handle : Handle} {answer : Except ArenaError Unit}
    (ok : Sound r) (fits : r.thresholdBytes < Word.limit)
    (h : RollsBack handle r clock answer r' made) :
    r.Overdue handle clock ∧ r.GivesBack clock r' made ∨
      ¬ r.Overdue handle clock ∧ r.Spares clock r' made := by
  cases h with
  | unreserved h =>
      refine Or.inr ⟨?_, .refl r clock⟩
      rintro ⟨⟨⟨base, hbase⟩, -⟩, -⟩
      exact h base hbase
  | stale phase h => exact Or.inr ⟨fun overdue => h overdue.1.2, .refl r clock⟩
  | @popped base cursor older _ _ _ phase saved newest trims =>
      have accepts : r.Accepts handle := by
        refine ⟨⟨base, phase⟩, ?_⟩
        rw [depth, saved, List.length_cons, newest]
      have hhead : r.saved.head? = some cursor := by
        rw [saved]
        rfl
      cases trims with
      | unmeasured h => exact absurd fits (Nat.not_lt.mpr h)
      | kept fits h =>
          refine Or.inr ⟨?_, .of_same rfl rfl rfl⟩
          rintro ⟨-, cursor', hcursor', idle, waited⟩
          obtain rfl := Option.some.inj (hhead.symm.trans hcursor')
          exact h ⟨idle, waited⟩
      | trimmed fits due =>
          refine Or.inl ⟨⟨accepts, cursor, hhead, due⟩, hhead, ?_, base, .ok (), phase, ?_, ?_⟩
          · exact ((ok.popped saved).cursor_lt_of_due due).2
          · exact .done
          · exact Or.inl ⟨rfl, phase, rfl, rfl⟩
      | @lost e failed result fits due uncommits =>
          refine Or.inl ⟨⟨accepts, cursor, hhead, due⟩, hhead, ?_, base, .error e, phase, ?_, ?_⟩
          · exact ((ok.popped saved).cursor_lt_of_due due).2
          · rw [List.filter_append, List.filter_eq_self.mpr uncommits.isUncommit]
            exact (List.append_nil failed).symm ▸ uncommits
          · refine Or.inr ⟨?_, rfl⟩
            intro hok
            cases hok

/-- The same, where the handle is one that was asked for. -/
theorem RollsBack.asked_givesBack_or_spares {handle : Handle} {answer : Except ArenaError Unit}
    (ok : Sound r) (fits : r.thresholdBytes < Word.limit)
    (h : RollsBack handle r clock answer r' made) :
    (∃ asked ∈ some handle, r.Overdue asked clock) ∧ r.GivesBack clock r' made ∨
      (¬ ∃ asked ∈ some handle, r.Overdue asked clock) ∧ r.Spares clock r' made := by
  have hasked : (∃ asked ∈ some handle, r.Overdue asked clock) ↔ r.Overdue handle clock := by
    simp only [Option.mem_def, Option.some.injEq, exists_eq_left']
  rw [hasked]
  exact h.givesBack_or_spares ok fits

end Region

namespace Pool

variable {t t' : Tenancy} {clock : Nat} {made : List Record}

theorem Allocates.spares {size align : Nat} {answer : Except ArenaError Span}
    (h : Allocates size align t clock answer t' made) :
    Region.Spares t.region clock t'.region made := by
  cases h with
  | closed h => exact .refl t.region clock
  | active h slices => exact slices.spares
  | unstarted h checkpoints => exact checkpoints.spares
  | started h checkpoints slices => exact checkpoints.spares.append slices.spares

/-- What the end of a pool comes to, by whether giving pages back is overdue. -/
theorem Closes.givesBack_or_spares {answer : Except ArenaError Unit}
    (ok : Region.Sound t.region) (fits : t.region.thresholdBytes < Word.limit)
    (h : Closes t clock answer t' made) :
    (∃ handle ∈ t.pool.handle?, t.region.Overdue handle clock) ∧
        t.region.GivesBack clock t'.region made ∨
      (¬ ∃ handle ∈ t.pool.handle?, t.region.Overdue handle clock) ∧
        t.region.Spares clock t'.region made := by
  cases h with
  | again h =>
      rw [h]
      exact Or.inr ⟨nofun, .refl t.region clock⟩
  | unused h =>
      rw [h]
      exact Or.inr ⟨nofun, .refl t.region clock⟩
  | rolled h rolls =>
      rw [h]
      exact rolls.asked_givesBack_or_spares ok fits

end Pool

namespace Commons

variable {c : Commons}

/-- The calls of an occasion by which pages are given back. -/
def uncommits (c : Commons) (o : Occasion) : List Record := (c.made o).filter Record.isUncommit

/-- Giving pages back is due on an occasion: on it a handle is used for which it is. -/
def Overdue (c : Commons) (o : Occasion) : Prop :=
  ∃ handle ∈ c.asked o, c.region.Overdue handle o.clock

/-- **On an occasion** pages are given back if that is due, and otherwise none are. -/
theorem next_givesBack_or_spares (ok : Region.Sound c.region)
    (fits : c.region.thresholdBytes < Word.limit) (o : Occasion) :
    c.Overdue o ∧ c.region.GivesBack o.clock (c.next o).region (c.made o) ∨
      ¬ c.Overdue o ∧ c.region.Spares o.clock (c.next o).region (c.made o) := by
  have happens := next_happens ok o
  unfold Overdue asked
  generalize o.deed = deed at happens
  generalize o.clock = clock at happens
  generalize (c.next o).region = r' at happens
  generalize c.made o = made at happens
  cases happens with
  | ask h =>
      cases h with
      | slice h => exact Or.inr ⟨nofun, h.spares⟩
      | checkpoint h => exact Or.inr ⟨nofun, h.spares⟩
      | close h => exact Or.inr ⟨nofun, h.spares⟩
      | rollback h =>
          exact h.asked_givesBack_or_spares ok fits
  | errand h =>
      cases h with
      | allocate h => exact Or.inr ⟨nofun, h.spares⟩
      | close h => exact h.givesBack_or_spares ok fits
      | drop h => exact h.givesBack_or_spares ok fits
  | discard h => exact Or.inr ⟨nofun, h.spares⟩

theorem uncommits_ne_nil_iff (ok : Region.Sound c.region)
    (fits : c.region.thresholdBytes < Word.limit) {o : Occasion} :
    c.uncommits o ≠ [] ↔ c.Overdue o := by
  rcases next_givesBack_or_spares ok fits o with ⟨overdue, gives⟩ | ⟨early, spares⟩
  · obtain ⟨base, answer, -, taken, -⟩ := gives.calls
    exact ⟨fun _ => overdue, fun _ => taken.ne_nil⟩
  · exact ⟨fun hsome => absurd spares.calls hsome, fun overdue => absurd overdue early⟩

/-- Whether an occasion is one of the moments that count: the region is reserved on it, or
pages are given back. -/
def Counts (c : Commons) (o : Occasion) : Bool :=
  c.region.phase == .unreserved && (c.next o).region.base?.isSome || !(c.uncommits o).isEmpty

/-- When the region was reserved, and when pages were given back since. -/
def moments (c : Commons) : List Occasion → List Nat
  | [] => []
  | o :: os => (if c.Counts o then [o.clock] else []) ++ (c.next o).moments os

theorem counts_iff {o : Occasion} :
    c.Counts o = true ↔
      (c.region.phase = .unreserved ∧ ∃ base, (c.next o).region.phase = .reserved base) ∨
        c.uncommits o ≠ [] := by
  unfold Counts Region.base?
  cases (c.next o).region.phase with
  | unreserved => simp
  | reserved base => simp
  | closed => simp

theorem moments_concat (c : Commons) (os : List Occasion) (o : Occasion) :
    c.moments (os ++ [o]) =
      c.moments os ++ if (c.through os).Counts o then [o.clock] else [] := by
  induction os generalizing c with
  | nil => exact List.append_nil _
  | cons first os ih =>
      show _ ++ (c.next first).moments (os ++ [o]) = (_ ++ (c.next first).moments os) ++ _
      rw [ih, List.append_assoc]
      rfl

theorem mem_clocks_of_mem_moments {os : List Occasion} {time : Nat} (h : time ∈ c.moments os) :
    time ∈ os.map Occasion.clock := by
  induction os generalizing c with
  | nil => exact h
  | cons o os ih =>
      rw [List.map_cons, List.mem_cons]
      rcases List.mem_append.mp h with hfirst | hrest
      · split at hfirst
        · exact Or.inl (List.mem_singleton.mp hfirst)
        · cases hfirst
      · exact Or.inr (ih hrest)

/-- The time that a region keeps is that of the last moment, and moments are a cooldown
apart. -/
structure Timed (r : Region) (times : List Nat) : Prop where
  last : ∀ base, r.phase = .reserved base → times.getLast? = some r.lastTrim
  none : r.phase = .unreserved → times = []
  apart : times.Pairwise fun earlier later =>
    earlier + r.tuning.cooldown.nanoseconds ≤ later

/-- No moment lies after the last. -/
theorem le_last_of_pairwise {times : List Nat} {pause last : Nat}
    (apart : times.Pairwise fun earlier later => earlier + pause ≤ later)
    (h : times.getLast? = some last) : ∀ time ∈ times, time ≤ last := by
  obtain ⟨earlier, rfl⟩ := List.getLast?_eq_some_iff.mp h
  intro time htime
  rcases List.mem_append.mp htime with hearlier | hlast
  · have hpause := (List.pairwise_append.mp apart).2.2 time hearlier last (by simp)
    omega
  · exact Nat.le_of_eq (List.mem_singleton.mp hlast)

/-- A moment at which pages are given back is added to the others. -/
theorem Timed.gaveBack {r r' : Region} {times : List Nat} {clock : Nat} {handle : Handle}
    {made : List Record} (timed : Timed r times) (life : Region.Continues r r')
    (overdue : r.Overdue handle clock) (gives : r.GivesBack clock r' made)
    (later : ∀ time ∈ times, time ≤ clock) : Timed r' (times ++ [clock]) := by
  obtain ⟨-, cursor, -, -, waited⟩ := overdue
  obtain ⟨base, answer, phase, -, outcome⟩ := gives.calls
  have hlast := timed.last base phase
  have hclock := later r.lastTrim (List.mem_of_getLast? hlast)
  refine ⟨fun base' hbase' => ?_, fun hunused => ?_, ?_⟩
  · rcases outcome with ⟨-, -, htime, -⟩ | ⟨-, hclosed⟩
    · rw [List.getLast?_concat, htime]
    · rw [hclosed] at hbase'
      cases hbase'
  · rcases outcome with ⟨-, hphase, -⟩ | ⟨-, hclosed⟩
    · rw [hphase] at hunused
      cases hunused
    · rw [hclosed] at hunused
      cases hunused
  · rw [life.tuning]
    refine List.pairwise_append.mpr ⟨timed.apart, List.pairwise_singleton _ _, ?_⟩
    intro time htime new hnew
    obtain rfl := List.mem_singleton.mp hnew
    have hle := le_last_of_pairwise timed.apart hlast time htime
    omega

/-- Where nothing is given back, a moment is only added when the region is reserved. -/
theorem Timed.spared {r r' : Region} {times : List Nat} {clock : Nat} {made : List Record}
    (timed : Timed r times) (life : Region.Continues r r') (spares : r.Spares clock r' made) :
    ((r.phase = .unreserved ∧ ∃ base, r'.phase = .reserved base) → Timed r' (times ++ [clock])) ∧
      (¬ (r.phase = .unreserved ∧ ∃ base, r'.phase = .reserved base) → Timed r' times) := by
  constructor
  · rintro ⟨unreserved, base, reserved⟩
    rw [timed.none unreserved, List.nil_append]
    refine ⟨fun base' hbase' => ?_, fun hunused => ?_, List.pairwise_singleton _ _⟩
    · rcases spares.reserved base' hbase' with ⟨hphase, -⟩ | ⟨-, htime⟩
      · rw [unreserved] at hphase
        cases hphase
      · rw [htime]
        rfl
    · rw [reserved] at hunused
      cases hunused
  · intro hsame
    refine ⟨fun base hbase => ?_, fun hunused => timed.none (spares.unused hunused), ?_⟩
    · rcases spares.reserved base hbase with ⟨hphase, htime⟩ | ⟨unreserved, -⟩
      · rw [htime]
        exact timed.last base hphase
      · exact absurd ⟨unreserved, base, hbase⟩ hsame
    · rw [life.tuning]
      exact timed.apart

/-- **One occasion** that is not before the moments so far. -/
theorem Timed.step {times : List Nat} (timed : Timed c.region times) (ok : Region.Sound c.region)
    (fits : c.region.thresholdBytes < Word.limit) {o : Occasion}
    (later : ∀ time ∈ times, time ≤ o.clock) :
    Timed (c.next o).region (times ++ if c.Counts o then [o.clock] else []) := by
  have life := next_continues ok o
  rcases next_givesBack_or_spares ok fits o with ⟨⟨handle, -, overdue⟩, gives⟩ | ⟨-, spares⟩
  · obtain ⟨base, answer, -, taken, -⟩ := gives.calls
    rw [if_pos (counts_iff.mpr (Or.inr taken.ne_nil))]
    exact timed.gaveBack life overdue gives later
  · have hnone : ¬ c.uncommits o ≠ [] := not_not_intro spares.calls
    by_cases counts : c.Counts o = true
    · rw [if_pos counts]
      exact (timed.spared life spares).1 ((counts_iff.mp counts).resolve_right hnone)
    · rw [if_neg counts, List.append_nil]
      exact (timed.spared life spares).2 fun reserved => counts (counts_iff.mpr (Or.inl reserved))

theorem thresholdBytes_through (ok : Region.Sound c.region) (os : List Occasion) :
    (c.through os).region.thresholdBytes = c.region.thresholdBytes := by
  have life := through_continues ok os
  rw [Region.thresholdBytes, Region.thresholdBytes, life.tuning, life.backend]

/-- **A run** on which time does not run back. -/
theorem timed_through (unused : c.region.phase = .unreserved) (ok : Region.Sound c.region)
    (fits : c.region.thresholdBytes < Word.limit) (os : List Occasion)
    (monotone : (os.map Occasion.clock).Pairwise (· ≤ ·)) :
    Timed (c.through os).region (c.moments os) := by
  induction os using List.reverseRecOn with
  | nil =>
      refine ⟨fun base hbase => ?_, fun _ => rfl, List.Pairwise.nil⟩
      rw [show (c.through []).region.phase = .unreserved from unused] at hbase
      cases hbase
  | append_singleton os o ih =>
      rw [List.map_append, List.pairwise_append] at monotone
      obtain ⟨hearlier, -, hlast⟩ := monotone
      rw [through_concat, moments_concat]
      refine (ih hearlier).step ((through_continues ok os).sound ok) ?_ ?_
      · rw [thresholdBytes_through ok]
        exact fits
      · intro time htime
        exact hlast time (mem_clocks_of_mem_moments htime) o.clock (by simp)

/-- **Pages are given back exactly when that is due, and never twice within a cooldown.**  Take
a region whose threshold can be measured in bytes, any pools on it, anything that is done with
the region and the pools, and a time that does not run back.  Then

* calls that give pages back are made exactly when a handle is used that is accepted — by a
  rollback, or by the end of a pool — and with the cursor back at its checkpoint more than the
  threshold lies idle, and a cooldown has passed since pages were last given back, or since the
  region was reserved;
* they are those of giving back once, namely the topmost batch of the accessible pages, and the
  cursor, which is back at the checkpoint, still lies among those that are left;
* the moment at which the region is reserved and those at which pages are given back are a
  cooldown apart, any two of them. -/
theorem pages_given_back_when_due {r : Region} (made : r.Made)
    (fits : r.thresholdBytes < Word.limit) (os : List Occasion) (o : Occasion)
    (monotone : ((os ++ [o]).map Occasion.clock).Pairwise (· ≤ ·)) :
    let c := (of r).through os
    let r' := (c.next o).region
    (c.uncommits o ≠ [] ↔ ∃ handle ∈ c.asked o, c.region.Accepts handle ∧
      ∃ cursor ∈ c.region.saved.head?, r.thresholdBytes < c.region.committed - cursor ∧
        ∃ last ∈ ((of r).moments os).getLast?,
          last + r.tuning.cooldown.nanoseconds ≤ o.clock) ∧
    (c.uncommits o ≠ [] → ∃ base answer, c.region.phase = .reserved base ∧
      r.batchBytes ≤ c.region.committed ∧
      VirtualMemory.Uncommits (base + (c.region.committed - r.batchBytes)) r.batchBytes answer
        (c.uncommits o) ∧
      c.region.saved.head? = some r'.cursor ∧ r'.cursor ≤ r'.committed ∧
      (answer = .ok () ∧ r'.phase = .reserved base ∧
          r'.committed = c.region.committed - r.batchBytes ∨
        answer ≠ .ok () ∧ r'.phase = .closed)) ∧
    ((of r).moments (os ++ [o])).Pairwise fun earlier later =>
      earlier + r.tuning.cooldown.nanoseconds ≤ later := by
  intro c r'
  have unused : (of r).region.phase = .unreserved := made.cases.2.2.1
  have life : Region.Continues r c.region := through_continues (c := of r) made.sound os
  have ok : Region.Sound c.region := life.sound made.sound
  have hthreshold : c.region.thresholdBytes = r.thresholdBytes :=
    thresholdBytes_through (c := of r) made.sound os
  have hbatch : c.region.batchBytes = r.batchBytes := by
    rw [Region.batchBytes, Region.batchBytes, life.tuning, life.backend]
  have htuning : c.region.tuning = r.tuning := life.tuning
  have hfits : c.region.thresholdBytes < Word.limit := hthreshold ▸ fits
  have timed := timed_through unused made.sound fits (os ++ [o]) monotone
  rw [List.map_append, List.pairwise_append] at monotone
  obtain ⟨hearlier, -, hlater⟩ := monotone
  have before := timed_through unused made.sound fits os hearlier
  refine ⟨(uncommits_ne_nil_iff ok hfits).trans ?_, ?_, ?_⟩
  · refine exists_congr fun handle => and_congr_right fun _ => and_congr_right ?_
    rintro ⟨⟨base, hbase⟩, -⟩
    have hlast : ((of r).moments os).getLast? = some c.region.lastTrim := before.last base hbase
    have hclock : c.region.lastTrim ≤ o.clock :=
      hlater _ (mem_clocks_of_mem_moments (List.mem_of_getLast? hlast)) _ (by simp)
    rw [hthreshold, htuning, hlast]
    refine exists_congr fun cursor => and_congr_right fun _ => and_congr_right fun _ => ?_
    simp only [Option.mem_def, Option.some.injEq, exists_eq_left']
    omega
  · intro hsome
    rcases next_givesBack_or_spares ok hfits o with ⟨-, gives⟩ | ⟨-, spares⟩
    · obtain ⟨base, answer, phase, taken, outcome⟩ := gives.calls
      have after : Region.Sound r' := (next_continues ok o).sound ok
      rw [hbatch] at taken outcome
      refine ⟨base, answer, phase, hbatch ▸ gives.batch, taken, gives.cursor, after.cursor_le, ?_⟩
      rcases outcome with ⟨hok, hphase, -, hcommitted⟩ | lost
      · exact Or.inl ⟨hok, hphase, hcommitted⟩
      · exact Or.inr lost
    · exact absurd spares.calls hsome
  · have life' := through_continues (c := of r) made.sound (os ++ [o])
    have apart := timed.apart
    rw [show ((of r).through (os ++ [o])).region.tuning = r.tuning from life'.tuning] at apart
    exact apart

/-- Three pages, of which one is given back when more than one lies idle, but not within a
hundred nanoseconds of the last time. -/
def unhurried : Region :=
  { tuning := { batchPages := 1, thresholdPages := 1, cooldown := ⟨100⟩ },
    backend := .posix ⟨4096, 4096⟩, total := 12288, lastTrim := 0 }

/-- A pool fills the region and is closed seventy nanoseconds after the region was reserved;
that is too early.  A second pool is dropped a hundred nanoseconds after the reservation, and
one page is given back. -/
theorem page_given_back_when_pool_dropped :
    let moment (clock : Nat) (deed : Deed) : Occasion := ⟨{ kernel := { clock := clock } }, deed⟩
    let os : List Occasion :=
      [moment 50 (.errand 0 (.allocate 12000 1 false)), moment 120 (.errand 0 .close),
        moment 130 (.errand 1 (.allocate 100 1 false))]
    let o : Occasion := moment 150 (.errand 1 .drop)
    let c := (of unhurried).through os
    unhurried.Made ∧ unhurried.thresholdBytes < Word.limit ∧
      ((os ++ [o]).map Occasion.clock).Pairwise (· ≤ ·) ∧
      ((of unhurried).through (os.take 1)).uncommits (moment 120 (.errand 0 .close)) = [] ∧
      c.uncommits o = [.mprotect 0x100000002000 4096 .noAccess 0,
        .madvise 0x100000002000 4096 0] ∧
      (∃ handle ∈ c.asked o, c.region.Accepts handle ∧
        ∃ cursor ∈ c.region.saved.head?, 4096 < c.region.committed - cursor ∧
          ∃ last ∈ ((of unhurried).moments os).getLast?, last + 100 ≤ o.clock) ∧
      (of unhurried).moments (os ++ [o]) = [50, 150] := by
  intro moment os o c
  have made : unhurried.Made :=
    ⟨12000, unhurried.tuning, unhurried.backend, ⟨{}, ()⟩, ⟨{}, ()⟩, rfl⟩
  have fits : unhurried.thresholdBytes < Word.limit := by decide
  have monotone : ((os ++ [o]).map Occasion.clock).Pairwise (· ≤ ·) := by decide
  have taken : c.uncommits o = [.mprotect 0x100000002000 4096 .noAccess 0,
      .madvise 0x100000002000 4096 0] := by decide
  obtain ⟨hwhen, -⟩ := pages_given_back_when_due made fits os o monotone
  exact ⟨made, fits, monotone, by decide, taken, hwhen.mp (by rw [taken]; exact nofun), by decide⟩

end Commons

end PageArena
