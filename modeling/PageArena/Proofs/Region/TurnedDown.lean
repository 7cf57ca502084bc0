/-
What a slice that is turned down leaves behind.

A request may be wrong in itself: its alignment is no power of two, it does not fit, its sums
leave the words, or the region is closed.  Nothing is taken then, and wherever the region has
its address space already, or has lost it, nothing at all is changed and no call is made.

Before its first use a region has no address space, and whether a request fits is only
looked at after the space was reserved.  So a first request that is turned down for its size
has reserved the region all the same.  `turned_down_slice` says that this is the one thing
that can be left, and that it always is.
-/
import Mathlib
import PageArena.Proofs.Region.Outline

namespace PageArena

open OsCall (Record)

namespace Region

/-- Whether an error speaks of the request.  A sum that leaves the words does so unless it is
the end of the reservation, and there the region got no base. -/
def TurnsDown (r : Region) (e : Episode) : ArenaError → Prop
  | .invalidAlignment _ | .outOfBounds _ _ | .invalidState _ => True
  | .sizeOverflow _ => ∃ base, r.reservation e = .ok base
  | _ => False

/-- An episode after which the bookkeeping, the saved cursors and the time of the last trim
are what they were, and in which no call was made. -/
def ChangesNothing (r : Region) (e : Episode) : Prop :=
  (r.after e).snapshot = r.snapshot ∧ (r.after e).saved = r.saved ∧
    (r.after e).lastTrim = r.lastTrim ∧ r.calls e = []

/-- Whether a slice with this alignment would be the first use of the region. -/
def BeginsAt (r : Region) (align : Nat) : Prop :=
  r.phase = .unreserved ∧ Word.isPowerOfTwo align = true

/-- The region at the beginning of its use, with its address space and nothing taken. -/
def begun (r : Region) (base clock : Nat) : Region :=
  { r with phase := .reserved base, cursor := 0, committed := 0, lastTrim := clock }

/-- Whether an error says that a request is too large for the region or for the words. -/
def IsTooLarge : ArenaError → Prop
  | .outOfBounds _ _ | .sizeOverflow _ => True
  | _ => False

variable {r r' r₀ : Region} {base size align : Nat} {made : List Record} {err : ArenaError}
  {machine : Machine}

/-- A cut that fails for another reason than the system is too large, and then nothing
happens. -/
theorem Cuts.of_error (h : Cuts size align base r (.error err) r' made)
    (hcall : ∀ call code, err ≠ .osFailure call code) : r' = r ∧ made = [] ∧ IsTooLarge err := by
  cases h with
  | unrounded h => exact ⟨rfl, rfl, trivial⟩
  | oversized rounded h => exact ⟨rfl, rfl, trivial⟩
  | unfit rounded h => exact ⟨rfl, rfl, trivial⟩
  | ungrown rounded pos past fits grows =>
      cases grows with
      | unrounded h => exact ⟨rfl, rfl, trivial⟩
      | lost h => exact absurd rfl (hcall _ _)

/-- What is known of the world that an episode leaves. -/
theorem after_of_meet {e : Episode} {answer : Except ArenaError Reply} {w' : World Region}
    (h : r.meet e = (answer, w'))
    (leads : World.Leads { e.machine with self := r } w' r' made) :
    r.after e = r' ∧ r.calls e = made := by
  unfold after calls
  rw [h]
  exact ⟨leads.self, drop_calls leads⟩

/-- A slice with a bad alignment is over before the region is looked at. -/
theorem slice_of_misaligned (h : Word.isPowerOfTwo align = false) :
    r.after ⟨machine, .slice size align⟩ = r ∧ r.calls ⟨machine, .slice size align⟩ = [] := by
  have hmeet : r.meet ⟨machine, .slice size align⟩
      = (.error (.invalidAlignment align),
          { machine with self := r, log := machine.log ++ [] }) := by
    unfold meet
    simp only [Request.act, slice, Checked.alignment_of_not h, Act.settle_error, Act.run_bind,
      Act.run_raise]
    rfl
  unfold after calls
  rw [hmeet]
  exact ⟨rfl, List.drop_length⟩

/-- A slice whose base is there goes on with the cut. -/
theorem meet_slice_of_obtained {w₁ : World Region} (size : Nat)
    (hp : Word.isPowerOfTwo align = true)
    (h : obtainBase.run { machine with self := r } = (.ok base, w₁)) :
    r.meet ⟨machine, .slice size align⟩
      = (((cut base size align).run w₁).1.map .span, ((cut base size align).run w₁).2) := by
  unfold meet
  simp only [Request.act, run_bind_pure, slice, Checked.alignment_of_isPowerOfTwo hp,
    Act.settle_ok, Act.run_pure_bind]
  rw [Act.run_bind_ok h]

/-- **One request that is turned down.**  Either it would have been the first use, and then
the region is reserved and that is all, or nothing is changed. -/
theorem slice_of_turnsDown (ok : Sound r)
    (h : r.answer ⟨machine, .slice size align⟩ = .error err)
    (turned : r.TurnsDown ⟨machine, .slice size align⟩ err) :
    (r.BeginsAt align ∧ IsTooLarge err ∧
      ∃ base, r.reservation ⟨machine, .slice size align⟩ = .ok base ∧
        r.after ⟨machine, .slice size align⟩ = r.begun base machine.kernel.clock ∧
        r.calls ⟨machine, .slice size align⟩ = [.mmap r.total base]) ∨
      (¬ r.BeginsAt align ∧ r.after ⟨machine, .slice size align⟩ = r ∧
        r.calls ⟨machine, .slice size align⟩ = []) := by
  have hcall : ∀ call code, err ≠ .osFailure call code := by
    rintro call code rfl
    exact turned
  cases hp : Word.isPowerOfTwo align with
  | false =>
      refine Or.inr ⟨?_, slice_of_misaligned hp⟩
      rintro ⟨-, hpower⟩
      rw [hp] at hpower
      cases hpower
  | true =>
      rcases hrun : obtainBase.run { machine with self := r } with ⟨err' | base, w₁⟩
      · -- The base is refused, so the error is the one of the reservation.
        have hmeet := meet_of_refused (e := ⟨machine, .slice size align⟩) hp hrun
        have herr : err' = err := by
          unfold answer at h
          rw [hmeet] at h
          exact Except.error.inj h
        obtain ⟨r', made, obtains, leads⟩ := obtainBase_obtains hrun
        obtain ⟨hafter, hcalls⟩ := after_of_meet hmeet leads
        rw [hafter, hcalls]
        subst herr
        cases obtains with
        | closed phase =>
            have hclosed : r.phase = .closed := phase
            refine Or.inr ⟨?_, rfl, rfl⟩
            rintro ⟨hunused, -⟩
            rw [hclosed] at hunused
            cases hunused
        | unreserved phase reserves =>
            cases reserves with
            | unusable => exact absurd rfl (hcall _ _)
            | failed errno result => exact absurd rfl (hcall _ _)
        | unaddressable phase hend =>
            obtain ⟨base, hbase⟩ := turned
            unfold reservation at hbase
            rw [hrun] at hbase
            cases hbase
      · obtain ⟨r₁, first, obtains, leads⟩ := obtainBase_obtains hrun
        have ok₁ : Sound w₁.self := by
          rw [leads.self]
          exact obtains.continues.sound ok
        have hp₁ : w₁.self.phase = .reserved base := by rw [leads.self, obtains.phase_of_ok]
        rcases hcut : (cut base size align).run w₁ with ⟨answer, w₂⟩
        have hmeet := meet_slice_of_obtained size hp hrun
        rw [hcut] at hmeet
        obtain ⟨r', made, cuts, next⟩ := cut_cuts ok₁ hp₁ hcut
        have hanswer : answer = .error err := by
          unfold Region.answer at h
          rw [hmeet] at h
          exact error_of_map h
        rw [hanswer, leads.self] at cuts
        obtain ⟨rfl, rfl, hlarge⟩ := cuts.of_error hcall
        obtain ⟨hafter, hcalls⟩ := after_of_meet hmeet (leads.trans next)
        rw [hafter, hcalls, List.append_nil]
        cases obtains with
        | held phase =>
            have hheld : r.phase = .reserved base := phase
            refine Or.inr ⟨?_, rfl, rfl⟩
            rintro ⟨hunused, -⟩
            rw [hheld] at hunused
            cases hunused
        | fresh phase pos hend =>
            refine Or.inl ⟨⟨phase, hp⟩, hlarge, base, ?_, rfl, rfl⟩
            unfold reservation
            rw [hrun]

/-- **A slice that is turned down changes nothing, but for the first use of its region.**  At
every point of every run, a request that is turned down leaves the region as it is and makes
no call, exactly if it would not have been the region's first use.  Otherwise it was turned
down for its size, and it leaves the region reserved: its base is set, the time of the last
trim is the time of the request, and the mapping is the one call that was made. -/
theorem turned_down_slice (made : r₀.Made) (es : List Episode) (machine : Machine)
    (size align : Nat) (err : ArenaError) :
    let r := r₀.run es
    let e : Episode := ⟨machine, .slice size align⟩
    r.answer e = .error err → r.TurnsDown e err →
      (r.ChangesNothing e ↔ ¬ r.BeginsAt align) ∧
      (¬ r.BeginsAt align → r.after e = r) ∧
      (r.BeginsAt align → IsTooLarge err ∧ ∃ base, r.reservation e = .ok base ∧
        r.after e = r.begun base machine.kernel.clock ∧ r.calls e = [.mmap r.total base]) := by
  intro r e answer turned
  have ok : Sound r := (run_continues made.sound es).sound made.sound
  rcases slice_of_turnsDown ok answer turned with
    ⟨begins, hlarge, base, hbase, hafter, hcalls⟩ | ⟨begins, hafter, hcalls⟩
  · refine ⟨⟨?_, absurd begins⟩, absurd begins, fun _ => ⟨hlarge, base, hbase, hafter, hcalls⟩⟩
    rintro ⟨-, -, -, hnone⟩
    rw [hcalls] at hnone
    cases hnone
  · refine ⟨⟨fun _ => begins, fun _ => ?_⟩, fun _ => hafter, fun h => absurd h begins⟩
    exact ⟨by rw [hafter], by rw [hafter], by rw [hafter], hcalls⟩

/-- The same request is turned down twice.  The first time it reserves the region, the second
time nothing is changed. -/
theorem turned_down_slice_of_twoPages :
    let e : Episode := ⟨{}, .slice 8193 1⟩
    let r := twoPages.run [e]
    let err : ArenaError := .outOfBounds 8193 8192
    twoPages.Made ∧
      (twoPages.answer e = .error err ∧ twoPages.TurnsDown e err ∧ twoPages.BeginsAt 1 ∧
        twoPages.calls e = [.mmap 8192 0x100000000000]) ∧
      (r.answer e = .error err ∧ r.TurnsDown e err ∧ r.ChangesNothing e) := by
  intro e r err
  have hfirst : twoPages.answer e = .error err := by decide
  have hagain : r.answer e = .error err := by decide
  have begins : twoPages.BeginsAt 1 := ⟨rfl, by decide⟩
  have reserves := (turned_down_slice twoPages_made [] {} 8193 1 err hfirst trivial).2.2 begins
  have keeps := turned_down_slice twoPages_made [e] {} 8193 1 err hagain trivial
  refine ⟨twoPages_made, ⟨hfirst, trivial, begins, ?_⟩, hagain, trivial, keeps.1.mpr ?_⟩
  · obtain ⟨-, base, hbase, -, hcalls⟩ := reserves
    have hplace : twoPages.reservation e = .ok 0x100000000000 := by decide
    obtain rfl := Except.ok.inj (hplace.symm.trans hbase)
    exact hcalls
  · have hheld : r.phase = .reserved 0x100000000000 := by decide
    rintro ⟨hunused, -⟩
    rw [hheld] at hunused
    cases hunused

/-- More is asked of an unused region than it has room for: the request is turned down, and
the region has a base that it did not have, and a mapping was made. -/
theorem reserved_by_turned_down_slice :
    let e : Episode := ⟨{}, .slice 8193 1⟩
    twoPages.answer e = .error (.outOfBounds 8193 8192) ∧
      twoPages.snapshot.base = none ∧
      (twoPages.after e).snapshot.base = some 0x100000000000 ∧
      twoPages.calls e = [.mmap 8192 0x100000000000] ∧ ¬ twoPages.ChangesNothing e := by
  intro e
  have hcalls : twoPages.calls e = [.mmap 8192 0x100000000000] := by decide
  refine ⟨by decide, rfl, by decide, hcalls, ?_⟩
  rintro ⟨-, -, -, hnone⟩
  rw [hcalls] at hnone
  cases hnone

end Region

end PageArena
