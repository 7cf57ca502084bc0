/-
What is left of a first use that fails.

A region asks for its address space when it is first used, and it can be refused in three
ways.  The system makes no mapping; it makes one at the address zero; or it makes one whose
end is no address.  Of the region nothing is changed in any of them, so whatever is asked of
it later goes as if it had never been tried: `run_append_of_failsFirst`.

Of the system's side the same is true only in the first way.  In the other two the mapping
was made, nobody ends it, and nobody knows of it any more.  `failed_first_uses` says that
these are the only mappings that are left behind, and that each of them is: one for every
such try.
-/
import Mathlib
import PageArena.Proofs.Region.Run

namespace PageArena

open OsCall (Record)

namespace Region

/-- Where the system places the region's address space when it is asked for it, if it does. -/
def mapping (r : Region) (k : Kernel) : Option Nat := (k.mmap r.total).1

/-- Whether the region can begin at an address: it is not zero, and the end is an address
too. -/
def CanBeginAt (r : Region) (base : Nat) : Prop := 0 < base ∧ base + r.total < Word.limit

/-- Whether a request asks for the base before anything else. -/
def Request.Enters : Request → Prop
  | .checkpoint => True
  | .slice _ align => Word.isPowerOfTwo align = true
  | .rollback _ | .close => False

/-- What asking for the base comes to in an episode. -/
def reservation (r : Region) (e : Episode) : Except ArenaError Nat :=
  (obtainBase.run { e.machine with self := r }).1

/-- An episode fails because the region gets no base. -/
def FailsFirst (r : Region) (e : Episode) : Prop :=
  e.request.Enters ∧ ∃ err, r.reservation e = .error err

/-- Every mapping that the system made in an episode was ended in it. -/
def LeavesNothing (r : Region) (e : Episode) : Prop :=
  ∀ base, r.mapping e.machine.kernel = some base →
    ∃ result, Record.munmap base r.total result ∈ r.calls e

/-- The answers of a run. -/
def replies (r : Region) : List Episode → List (Except ArenaError Reply)
  | [] => []
  | e :: es => r.answer e :: (r.after e).replies es

variable {r : Region} {w w' : World Region} {base : Nat} {e : Episode}

/-! ### What the system answers decides -/

/-- A mapping counts as made unless it was placed at zero. -/
theorem reserve_ok_iff {size : Nat} :
    ((VirtualMemory.reserve size).run w).1 = .ok base ↔
      (w.kernel.mmap size).1 = some base ∧ 0 < base := by
  unfold VirtualMemory.reserve
  rw [Act.run_bind, Act.run_kernel]
  generalize w.kernel.mmap size = mapped
  obtain ⟨place, k⟩ := mapped
  cases place with
  | none =>
      simp [Act.run_raiseErrno]
  | some place =>
      by_cases hzero : place = 0
      · simp only [hzero, if_true, Act.run_raise]
        constructor
        · intro h
          cases h
        · rintro ⟨hplace, hpos⟩
          obtain rfl := Option.some.inj hplace
          exact absurd hpos (Nat.lt_irrefl 0)
      · simp only [hzero, if_false, Act.run_pure]
        constructor
        · intro h
          obtain rfl := Except.ok.inj h
          exact ⟨rfl, Nat.pos_of_ne_zero hzero⟩
        · rintro ⟨hplace, -⟩
          rw [Option.some.inj hplace]

/-- An unused region gets a base exactly where it can begin. -/
theorem obtainBase_ok_iff (hp : w.self.phase = .unreserved) :
    (obtainBase.run w).1 = .ok base ↔
      w.self.mapping w.kernel = some base ∧ w.self.CanBeginAt base := by
  have hreserve : obtainBase.run w = reserve.run w := by
    simp only [obtainBase, Act.run_bind, Act.run_self, hp]
  rw [hreserve]
  unfold reserve mapping CanBeginAt
  rw [Act.run_self_bind]
  rcases hr : (VirtualMemory.reserve w.self.total).run w with ⟨e | place, w₁⟩
  · rw [Act.run_bind_error hr]
    constructor
    · intro h
      cases h
    · rintro ⟨hmap, hpos, -⟩
      have hok := reserve_ok_iff.mpr ⟨hmap, hpos⟩
      rw [hr] at hok
      cases hok
  · have hplace := reserve_ok_iff.mp (show (_ : Except _ _ × _).1 = .ok place by rw [hr])
    rw [Act.run_bind_ok hr]
    by_cases hend : place + w.self.total < Word.limit
    · rw [Checked.add_of_lt hend]
      constructor
      · intro h
        obtain rfl := Except.ok.inj h
        exact ⟨hplace.1, hplace.2, hend⟩
      · rintro ⟨hmap, -⟩
        rw [hplace.1] at hmap
        rw [Option.some.inj hmap]
        rfl
    · rw [Checked.add_of_le (Nat.not_lt.mp hend)]
      constructor
      · intro h
        cases h
      · rintro ⟨hmap, -, hlt⟩
        rw [hplace.1] at hmap
        rw [Option.some.inj hmap] at hend
        exact absurd hlt hend

/-! ### One try -/

/-- A request that asks for the base first fails with what that fails with. -/
theorem meet_of_refused {err : ArenaError} (enters : e.request.Enters)
    (h : obtainBase.run { e.machine with self := r } = (.error err, w')) :
    r.meet e = (.error err, w') := by
  obtain ⟨machine, request⟩ := e
  unfold meet
  cases request with
  | checkpoint =>
      have hcheckpoint : checkpoint.run { machine with self := r } = (.error err, w') :=
        Act.run_bind_error h
      exact Act.run_bind_error hcheckpoint
  | slice size align =>
      have hslice : (Region.slice size align).run { machine with self := r }
          = (.error err, w') := by
        unfold Region.slice
        rw [Checked.alignment_of_isPowerOfTwo enters, Act.settle_ok, Act.run_pure_bind]
        exact Act.run_bind_error h
      exact Act.run_bind_error hslice
  | rollback handle => exact enters.elim
  | close => exact enters.elim

/-- **One try**: the region stays as it is, the one call that is made is for the mapping, and
if there is a mapping then it was made where the region cannot begin. -/
theorem step_of_failsFirst (unused : r.phase = .unreserved) (failed : r.FailsFirst e) :
    (∃ err, r.reservation e = .error err ∧ r.answer e = .error err) ∧ r.after e = r ∧
      (∃ result, r.calls e = [.mmap r.total result]) ∧
      ∀ base, r.mapping e.machine.kernel = some base → ¬ r.CanBeginAt base := by
  obtain ⟨enters, err, herr⟩ := failed
  rcases hrun : obtainBase.run { e.machine with self := r } with ⟨answer, w'⟩
  have hanswer : answer = .error err := by
    rw [← herr]
    unfold reservation
    rw [hrun]
  rw [hanswer] at hrun
  have hmeet := meet_of_refused enters hrun
  obtain ⟨r', made, obtains, leads⟩ := obtainBase_obtains hrun
  have hafter : r.after e = r' := by
    unfold after
    rw [hmeet]
    exact leads.self
  have hcalls : r.calls e = made := by
    unfold calls
    rw [hmeet]
    exact drop_calls leads
  refine ⟨⟨err, herr, ?_⟩, ?_, ?_, ?_⟩
  · show (r.meet e).1 = .error err
    rw [hmeet]
  · rw [hafter]
    cases obtains with
    | closed phase => rfl
    | unreserved phase reserves => rfl
    | unaddressable phase h => rfl
  · rw [hcalls]
    cases obtains with
    | closed phase =>
        rw [show r.phase = .closed from phase] at unused
        cases unused
    | unreserved phase reserves =>
        cases reserves with
        | unusable => exact ⟨_, rfl⟩
        | failed errno result => exact ⟨_, rfl⟩
    | unaddressable phase h => exact ⟨_, rfl⟩
  · intro base hmap hcan
    have hok := (obtainBase_ok_iff (w := { e.machine with self := r }) unused).mpr ⟨hmap, hcan⟩
    rw [hrun] at hok
    cases hok

/-- Nothing is left of a failed try exactly if there was no mapping. -/
theorem leavesNothing_iff_of_failsFirst (unused : r.phase = .unreserved)
    (failed : r.FailsFirst e) :
    r.LeavesNothing e ↔ r.mapping e.machine.kernel = none := by
  obtain ⟨-, -, ⟨result, hcalls⟩, -⟩ := step_of_failsFirst unused failed
  constructor
  · intro hnothing
    cases hmap : r.mapping e.machine.kernel with
    | none => rfl
    | some base =>
        obtain ⟨result', hmem⟩ := hnothing base hmap
        rw [hcalls] at hmem
        cases List.mem_singleton.mp hmem
  · intro hnone base hmap
    rw [hnone] at hmap
    cases hmap

/-! ### Any number of tries -/

/-- A run that begins with failed tries goes on as if there had been none. -/
theorem run_append_of_failsFirst (unused : r.phase = .unreserved) {tries : List Episode}
    (failed : ∀ e ∈ tries, r.FailsFirst e) (later : List Episode) :
    r.run (tries ++ later) = r.run later ∧
      (r.replies (tries ++ later)).drop tries.length = r.replies later := by
  induction tries with
  | nil => exact ⟨rfl, rfl⟩
  | cons e tries ih =>
      obtain ⟨-, hafter, -, -⟩ := step_of_failsFirst unused (failed e (by simp))
      obtain ⟨hrun, hreplies⟩ := ih fun e' he' => failed e' (List.mem_cons_of_mem e he')
      constructor
      · show (r.after e).run (tries ++ later) = r.run later
        rw [hafter, hrun]
      · show ((r.after e).replies (tries ++ later)).drop tries.length = r.replies later
        rw [hafter, hreplies]

/-- **A failed first use leaves nothing of itself in the region, and nothing in the address
space but a mapping where no region can begin.**  However often an unused region is tried in
vain, it stays unused, its bookkeeping is the same, and later requests are answered as if it
had not been tried.  Each try answers what it failed with.  A mapping is left exactly by
those tries to which the system gave one, which it then did at zero or so high that the end
is no address. -/
theorem failed_first_uses (unused : r.phase = .unreserved) (tries : List Episode)
    (failed : ∀ e ∈ tries, r.FailsFirst e) :
    ((r.run tries).phase = .unreserved ∧ (r.run tries).snapshot = r.snapshot) ∧
    (∀ later, r.run (tries ++ later) = r.run later ∧
      (r.replies (tries ++ later)).drop tries.length = r.replies later) ∧
    ∀ e ∈ tries, (∃ err, r.reservation e = .error err ∧ r.answer e = .error err) ∧
      (r.LeavesNothing e ↔ r.mapping e.machine.kernel = none) ∧
      ∀ base, r.mapping e.machine.kernel = some base →
        base = 0 ∨ Word.limit ≤ base + r.total := by
  have hgoes := run_append_of_failsFirst unused failed
  have hrun : r.run tries = r := by
    have h := (hgoes []).1
    rw [List.append_nil] at h
    exact h
  refine ⟨?_, hgoes, ?_⟩
  · rw [hrun]
    exact ⟨unused, rfl⟩
  · intro e he
    obtain ⟨hanswer, -, -, hmap⟩ := step_of_failsFirst unused (failed e he)
    refine ⟨hanswer, leavesNothing_iff_of_failsFirst unused (failed e he), ?_⟩
    intro base hbase
    have hcannot := hmap base hbase
    unfold CanBeginAt at hcannot
    omega

/-- The first try finds no memory, and the second gets a mapping that ends past the last
address.  The third goes as if it were the first, and only of the second a mapping is left. -/
theorem failed_first_uses_of_twoPages :
    let full : Machine := { kernel := { failures := [⟨.mmap, 12, 0⟩] } }
    let high : Machine := { kernel := { bases := [0xfffffffffffff000] } }
    let tries : List Episode := [⟨full, .checkpoint⟩, ⟨high, .slice 100 16⟩]
    let later : Episode := ⟨{}, .slice 100 16⟩
    twoPages.phase = .unreserved ∧ (∀ e ∈ tries, twoPages.FailsFirst e) ∧
      (twoPages.run tries).snapshot = twoPages.snapshot ∧
      twoPages.run (tries ++ [later]) = twoPages.run [later] ∧
      twoPages.LeavesNothing ⟨full, .checkpoint⟩ ∧
      ¬ twoPages.LeavesNothing ⟨high, .slice 100 16⟩ := by
  intro full high tries later
  have unused : twoPages.phase = .unreserved := rfl
  have failed : ∀ e ∈ tries, twoPages.FailsFirst e := by
    intro e he
    rcases List.mem_cons.mp he with rfl | he
    · exact ⟨trivial, _, rfl⟩
    · obtain rfl := List.mem_singleton.mp he
      exact ⟨show Word.isPowerOfTwo 16 = true by decide, _, rfl⟩
  obtain ⟨⟨-, hsnapshot⟩, hgoes, heach⟩ := failed_first_uses unused tries failed
  obtain ⟨-, hfull, -⟩ := heach ⟨full, .checkpoint⟩ (by simp [tries])
  obtain ⟨-, hhigh, -⟩ := heach ⟨high, .slice 100 16⟩ (by simp [tries])
  refine ⟨unused, failed, hsnapshot, (hgoes [later]).1, hfull.mpr rfl, ?_⟩
  intro hnothing
  cases hhigh.mp hnothing

/-- A mapping at zero is refused and not ended: the first use fails, the region is unused,
and nobody will ever end the mapping. -/
theorem mapping_left_by_first_use :
    let e : Episode := ⟨{ kernel := { bases := [0] } }, .checkpoint⟩
    twoPages.phase = .unreserved ∧ twoPages.FailsFirst e ∧
      twoPages.answer e = .error (.osFailure OsCall.mmap 0) ∧
      twoPages.mapping e.machine.kernel = some 0 ∧
      twoPages.calls e = [.mmap 8192 0] ∧ ¬ twoPages.LeavesNothing e := by
  intro e
  have hcalls : twoPages.calls e = [.mmap 8192 0] := by decide
  refine ⟨rfl, ⟨trivial, _, rfl⟩, by decide, rfl, hcalls, ?_⟩
  intro hnothing
  obtain ⟨result, hmem⟩ := hnothing 0 rfl
  rw [hcalls] at hmem
  cases List.mem_singleton.mp hmem

end Region

end PageArena
