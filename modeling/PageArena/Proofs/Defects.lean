/-
No defect is silent.

`Operation` lists what can be asked for: of regions, of batch heaps and pools, and of the
backend beneath them.  Each of them keeps to its account, whatever the object is, and on every
machine that operations lead to.

Letting go of an object answers nothing, so whatever fails then is reported and nothing else.
A region that is let go releases its address space, and a pool rolls its region back; the
warning that this failed comes after the report of why it did.  Batch heaps have nothing that
could fail.
-/
import Mathlib
import PageArena.Proofs.Region.Run
import PageArena.Proofs.Reports

namespace PageArena

open OsCall (Record)
open Act

/-- What can be asked for. -/
inductive Operation : {σ α : Type} → Act ArenaError σ α → Prop
  | current {σ : Type} : Operation (Host.current (σ := σ))
  | init {σ : Type} : Operation (Host.init (σ := σ))
  | reserve {σ : Type} (size : Nat) : Operation (VirtualMemory.reserve size (σ := σ))
  | commit {σ : Type} (address length : Nat) :
      Operation (VirtualMemory.commit address length (σ := σ))
  | uncommit {σ : Type} (address length : Nat) :
      Operation (VirtualMemory.uncommit address length (σ := σ))
  | release {σ : Type} (address length : Nat) :
      Operation (VirtualMemory.release address length (σ := σ))
  | region {σ : Type} (size : Nat) : Operation (Region.ofSize size (σ := σ))
  | tunedRegion {σ : Type} (size : Nat) (tuning : RegionTuning) :
      Operation (Region.tuned size tuning (σ := σ))
  | regionOnBackend {σ : Type} (size : Nat) (tuning : RegionTuning) (backend : Backend) :
      Operation (Region.onBackend size tuning backend (σ := σ))
  | slice (size align : Nat) : Operation (Region.slice size align)
  | checkpoint : Operation Region.checkpoint
  | rollback (handle : Handle) : Operation (Region.rollback handle)
  | closeRegion : Operation Region.close
  | heap {σ : Type} (source : RawSource) (tuning : HeapTuning) :
      Operation (BatchHeap.ofSource source tuning (σ := σ))
  | factory {σ : Type} (source : RawSource) (tuning : HeapTuning) :
      Operation (Factory.ofSource source tuning (σ := σ))
  | heapAllocate (size align : Nat) : Operation (BatchHeap.allocate size align)
  | heapAllocateZeroed (size align : Nat) : Operation (BatchHeap.allocateZeroed size align)
  | closeHeap : Operation BatchHeap.close
  | poolAllocate (size align : Nat) : Operation (Pool.allocate size align)
  | poolAllocateZeroed (size align : Nat) : Operation (Pool.allocateZeroed size align)
  | closePool : Operation Pool.close

/-- Every operation keeps to its account. -/
theorem Operation.accounts {σ α : Type} {act : Act ArenaError σ α} (h : Operation act) :
    Accounts act := by
  cases h with
  | current => exact Host.current_accounts
  | init => exact Host.init_accounts
  | reserve size => exact VirtualMemory.reserve_accounts size
  | commit address length => exact VirtualMemory.commit_accounts address length
  | uncommit address length => exact VirtualMemory.uncommit_accounts address length
  | release address length => exact VirtualMemory.release_accounts address length
  | region size => exact Region.tuned_accounts size {}
  | tunedRegion size tuning => exact Region.tuned_accounts size tuning
  | regionOnBackend size tuning backend => exact Region.onBackend_accounts size tuning backend
  | slice size align => exact Region.slice_accounts size align
  | checkpoint => exact Region.checkpoint_accounts
  | rollback handle => exact Region.rollback_accounts handle
  | closeRegion => exact Region.close_accounts
  | heap source tuning => exact BatchHeap.ofSource_accounts source tuning
  | factory source tuning => exact Factory.ofSource_accounts source tuning
  | heapAllocate size align => exact BatchHeap.allocate_accounts size align
  | heapAllocateZeroed size align => exact BatchHeap.allocateZeroed_accounts size align
  | closeHeap => exact BatchHeap.close_accounts
  | poolAllocate size align => exact Pool.allocate_accounts size align
  | poolAllocateZeroed size align => exact Pool.allocateZeroed_accounts size align
  | closePool => exact Pool.close_accounts

/-- The machines that operations lead to.  Whatever else happens on a machine, it leaves alone
what was learned of the backend. -/
inductive Reached : Machine → Prop
  | fresh {m : Machine} (unasked : m.host.backend = none) : Reached m
  | after {σ α : Type} {act : Act ArenaError σ α} {w : World σ} (h : Reached w.toMachine)
      (operation : Operation act) : Reached (act.run w).2.toMachine
  | meanwhile {m m' : Machine} (h : Reached m) (same : m'.host.backend = m.host.backend) :
      Reached m'

/-- No defect is ever kept as what was learned of the backend. -/
theorem Reached.honest {m : Machine} (h : Reached m) : m.host.Honest := by
  induction h with
  | fresh unasked =>
      intro e he
      rw [unasked] at he
      cases he
  | @after σ α act w h operation ih =>
      obtain ⟨-, -, -, -, honest, -⟩ := operation.accounts w ih
      exact honest
  | meanwhile h same ih =>
      intro e he
      exact ih e (same.symm.trans he)

/-! ### What goes wrong when an object is let go -/

/-- A defect that is no failure to release address space. -/
def ArenaError.Inward (e : ArenaError) : Prop :=
  e.data?.isSome ∧ ∀ code, e ≠ .osFailure OsCall.munmap code

theorem ArenaError.inward_of_overflow {operation : Arithmetic} {n? : Option Nat} {e : ArenaError}
    (h : operation.result n? = .error e) : e.Inward := by
  cases n? with
  | some n => cases h
  | none =>
      obtain rfl := Except.error.inj h
      exact ⟨rfl, nofun⟩

namespace Region

theorem currentBase_failsAs : FailsAs ArenaError.Inward currentBase := by
  refine .self_bind fun r => ?_
  cases r.phase with
  | reserved base => exact .pure base
  | closed => exact .raise ⟨rfl, nofun⟩
  | unreserved => exact .raise ⟨rfl, nofun⟩

theorem uncommit_failsAs (address length : Nat) :
    FailsAs ArenaError.Inward (VirtualMemory.uncommit address length (σ := Region)) := by
  refine .bind (.kernel _) fun done => ?_
  cases done with
  | false => exact .raiseErrno fun code => ⟨rfl, nofun⟩
  | true =>
      refine .bind (.kernel _) fun done => ?_
      cases done with
      | true => exact .pure ()
      | false => exact .raiseErrno fun code => ⟨rfl, nofun⟩

/-- The region is given up, and the error stays what it was. -/
theorem orAbandon_failsAs {P : ArenaError → Prop} {change : Act ArenaError Region Unit}
    (h : FailsAs P change) : FailsAs P (orAbandon change) := by
  intro w e he
  unfold orAbandon at he
  rw [run_bind, run_attempt] at he
  rcases hrun : change.run w with ⟨e' | u, w₁⟩
  · obtain ⟨w', made, events, hclose, -⟩ := abandon_reports w₁
    simp only [hrun, run_bind, hclose, run_fail] at he
    exact h w e (by rw [hrun]; exact he)
  · simp only [hrun, run_pure] at he
    cases he

theorem trim_failsAs : FailsAs ArenaError.Inward trim := by
  have overflows {operation : Arithmetic} {n? : Option Nat} :
      FailsAs ArenaError.Inward (Act.settle (operation.result n?) (σ := Region)) :=
    .settle fun _ he => ArenaError.inward_of_overflow he
  refine .self_bind fun r => .bind overflows fun threshold => .bind overflows fun idle => ?_
  refine .now_bind fun time => ?_
  refine iteInduction (motive := FailsAs ArenaError.Inward) (fun _ => .pure ()) fun _ => ?_
  refine .bind overflows fun length => .bind overflows fun boundary => ?_
  refine .bind currentBase_failsAs fun base => ?_
  refine .bind (orAbandon_failsAs (uncommit_failsAs _ _)) fun _ => ?_
  exact .bind (.emit _) fun _ => .now_bind fun _ => .update _

theorem rollback_failsAs (handle : Handle) : FailsAs ArenaError.Inward (rollback handle) := by
  refine .bind currentBase_failsAs fun _ => .self_bind fun r => ?_
  cases r.saved with
  | nil => exact .raise ⟨rfl, nofun⟩
  | cons cursor older =>
      have stale : FailsAs ArenaError.Inward (Act.raise (.invalidState
          (StateFault.staleHandle handle.index r.depth)) : Act ArenaError Region Unit) :=
        .raise ⟨rfl, nofun⟩
      refine iteInduction (motive := FailsAs ArenaError.Inward) (fun _ => ?_) fun _ => stale
      refine .bind (.update _) fun _ => .bind (.emit _) fun _ => ?_
      exact .bind (.update _) fun _ => trim_failsAs

/-- A release that fails when the region is let go is reported, and warned of. -/
theorem discard_reports (w : World Region) :
    ∃ events, (discard.run w).2.log = w.log ++ events ∧
      ∀ base e, w.self.phase = .reserved base → (close.run w).1 = .error e →
        Swallowed .releaseFailedOnDrop e events := by
  unfold discard close VirtualMemory.release
  simp only [run_self_bind]
  cases hp : w.self.phase with
  | unreserved => exact ⟨[], (List.append_nil _).symm, nofun⟩
  | closed => exact ⟨[], (List.append_nil _).symm, nofun⟩
  | reserved base =>
      simp only [run_bind, run_emit, run_attempt, run_update, run_self, run_kernel, hp]
      -- The call depends on nothing that was reported before it.
      generalize w.kernel.munmap base w.self.total = served
      obtain ⟨done, k⟩ := served
      cases done with
      | true =>
          refine ⟨[.regionDropped w.self.total, .releasing base w.self.total w.self.committed],
            List.append_assoc .., ?_⟩
          intro _ _ _ he
          cases he
      | false =>
          refine ⟨[.regionDropped w.self.total, .releasing base w.self.total w.self.committed,
            .osFailed OsCall.munmap k.errno,
            .releaseFailedOnDrop (.osFailure OsCall.munmap k.errno)], ?_, ?_⟩
          · simp [Event.ofError?]
          · intro _ e _ he
            obtain rfl := Except.error.inj he
            refine ⟨.osFailed OsCall.munmap k.errno, _, rfl, ⟨rfl, rfl, rfl⟩, ⟨rfl, rfl⟩, ?_⟩
            exact ((List.Sublist.refl _).cons _).cons _

end Region

namespace Pool

theorem close_failsAs : FailsAs ArenaError.Inward close := by
  refine .self_bind fun t => .bind (.update _) fun _ => ?_
  cases t.pool with
  | closed => exact .raise ⟨rfl, nofun⟩
  | fresh => exact .pure ()
  | active handle => exact .within (Region.rollback_failsAs handle)

/-- A rollback that fails when the pool is let go is reported, and warned of. -/
theorem discard_reports (w : World Tenancy) (honest : w.host.Honest) :
    ∃ made events,
      (discard.run w).2.kernel.calls = w.kernel.calls ++ made ∧
      (discard.run w).2.log = w.log ++ events ∧
      (∀ e, w.self.pool.isClosed = false → (close.run w).1 = .error e →
        Swallowed .rollbackFailedOnDrop e events) ∧
      ∀ address length result, Record.munmap address length result ∈ made → result ≠ 0 →
        Swallowed .releaseFailedAfterFailure (.osFailure OsCall.munmap (-result)) events := by
  obtain ⟨made, events, calls, log, -, account⟩ := close_accounts w honest
  have inward := close_failsAs w
  unfold discard
  rw [run_self_bind]
  by_cases hclosed : w.self.pool.isClosed = true
  · simp only [if_pos hclosed, run_pure]
    refine ⟨[], [], (List.append_nil _).symm, (List.append_nil _).symm, ?_, ?_⟩
    · intro e hopen
      rw [hclosed] at hopen
      cases hopen
    · exact fun _ _ _ hmade => absurd hmade List.not_mem_nil
  · simp only [if_neg hclosed, run_bind, run_attempt]
    rcases hrun : close.run w with ⟨e | u, w₁⟩
    · rw [hrun] at calls log account
      -- The error is a defect, so it was reported, and it is not that of a failed release.
      obtain ⟨reported, noRelease⟩ := inward e (by rw [hrun])
      obtain ⟨data, hdata⟩ := Option.isSome_iff_exists.mp reported
      obtain ⟨cause, hcause, tells⟩ := Event.tells_of_data? hdata
      have told := account.spoken e cause rfl hcause
      refine ⟨made, events ++ [.rollbackFailedOnDrop e], calls, ?_, ?_, ?_⟩
      · rw [run_emit, log, List.append_assoc]
      · intro e' _ he
        obtain rfl := Except.error.inj he
        refine ⟨cause, data, hdata, tells, ⟨rfl, rfl⟩, ?_⟩
        exact (List.singleton_sublist.mpr told).append (List.Sublist.refl _)
      · intro address length result hmade hfailed
        rcases account.released address length result hmade hfailed with hanswer | hswallowed
        · exact absurd (Except.error.inj hanswer) (noRelease _)
        · exact Account.swallowed_mono hswallowed (List.sublist_append_left _ _)
    · rw [hrun] at calls log account
      refine ⟨made, events, calls, log, fun _ _ he => (nomatch he), ?_⟩
      intro address length result hmade hfailed
      rcases account.released address length result hmade hfailed with hanswer | hswallowed
      · cases hanswer
      · exact hswallowed

end Pool

namespace BatchHeap

theorem close_calm {w : World BatchHeap} (opened : w.self.closed = false) :
    Calm w (close.run w).2 := by
  have frees : Along Calm (do
      Act.update fun heap => { heap with closed := true, entries := [] }
      if w.self.entries = [] then return ()
      else w.self.source.releaseBatch w.self.entries : Act ArenaError BatchHeap Unit) := by
    refine tone_calm.bind (fun _ => ⟨rfl, ⟨[], (List.append_nil _).symm, nofun⟩, id⟩) fun _ => ?_
    refine iteInduction (motive := Along Calm) (fun _ => tone_calm.pure ()) fun _ => ?_
    exact RawSource.along_releaseBatch tone_calm _ _
  unfold close
  rw [run_self_bind]
  simp only [opened, Bool.false_eq_true, if_false]
  exact frees w

/-- Nothing goes wrong when a batch heap is let go. -/
theorem discard_calm : Along Calm discard := by
  intro w
  unfold discard
  rw [run_self_bind]
  cases hclosed : w.self.closed with
  | true => exact tone_calm.pure () w
  | false =>
      simp only [Bool.false_eq_true, if_false]
      by_cases hempty : w.self.entries ≠ []
      · simp only [if_pos hempty, run_bind, run_emit, run_attempt, run_pure]
        have reported := tone_calm.report w (.heapDropped w.self.entries.length) nofun
        exact tone_calm.trans reported (close_calm hclosed)
      · simp only [if_neg hempty, run_bind, run_attempt, run_pure]
        exact close_calm hclosed

end BatchHeap

/-- **No defect is silent.**  If an operation answers an error that points at a defect, the
report of it is among what the operation reported, with its data; if it answers none, nothing
was reported as an error.  A release that failed on the way is the answer, or was reported with
a warning after it.  Letting go of a region, a pool or a batch heap answers nothing: what then
fails to be released or rolled back was reported with a warning after it. -/
theorem no_silent_defect :
    (∀ {σ α : Type} {act : Act ArenaError σ α} (w : World σ), Operation act →
      Reached w.toMachine → ∃ made events,
        (act.run w).2.kernel.calls = w.kernel.calls ++ made ∧
        (act.run w).2.log = w.log ++ events ∧
        (∀ e data, (act.run w).1 = .error e → e.data? = some data →
          ∃ x ∈ events, x.Tells data) ∧
        (∀ a, (act.run w).1 = .ok a → ∀ x ∈ events, x.level ≠ .error) ∧
        ∀ address length result, Record.munmap address length result ∈ made → result ≠ 0 →
          (act.run w).1 = .error (.osFailure OsCall.munmap (-result)) ∨
            Swallowed .releaseFailedAfterFailure (.osFailure OsCall.munmap (-result)) events) ∧
    (∀ w : World Region, ∃ events,
      (Region.discard.run w).2.log = w.log ++ events ∧
      ∀ base e, w.self.phase = .reserved base → (Region.close.run w).1 = .error e →
        Swallowed .releaseFailedOnDrop e events) ∧
    (∀ w : World Tenancy, Reached w.toMachine → ∃ made events,
      (Pool.discard.run w).2.kernel.calls = w.kernel.calls ++ made ∧
      (Pool.discard.run w).2.log = w.log ++ events ∧
      (∀ e, w.self.pool.isClosed = false → (Pool.close.run w).1 = .error e →
        Swallowed .rollbackFailedOnDrop e events) ∧
      ∀ address length result, Record.munmap address length result ∈ made → result ≠ 0 →
        Swallowed .releaseFailedAfterFailure (.osFailure OsCall.munmap (-result)) events) ∧
    ∀ w : World BatchHeap, ∃ events,
      (BatchHeap.discard.run w).2.log = w.log ++ events ∧ ∀ x ∈ events, x.level ≠ .error := by
  refine ⟨?_, Region.discard_reports, fun w h => Pool.discard_reports w h.honest, ?_⟩
  · intro σ α act w operation reached
    obtain ⟨made, events, calls, log, -, account⟩ := operation.accounts w reached.honest
    refine ⟨made, events, calls, log, ?_, account.quiet, account.released⟩
    intro e data he hdata
    obtain ⟨x, hx, tells⟩ := Event.tells_of_data? hdata
    exact ⟨x, account.spoken e x he hx, tells⟩
  · intro w
    obtain ⟨-, reports, -⟩ := BatchHeap.discard_calm w
    exact reports

/-- A commit fails in the first slice, and the release after it: the one is answered, the other
is swallowed, and both were reported. -/
theorem no_silent_defect_in_twoPages :
    let m : Machine := { kernel := { failures := [⟨.mprotect, 12, 0⟩, ⟨.munmap, 22, 0⟩] } }
    let w : World Region := { m with self := Region.twoPages }
    Reached w.toMachine ∧
      ((Region.slice 100 16).run w).1 = .error (.osFailure OsCall.mprotect 12) ∧
      (∃ x ∈ ((Region.slice 100 16).run w).2.log,
        x.Tells [("operation", "mprotect"), ("code", "12")]) ∧
      Swallowed .releaseFailedAfterFailure (.osFailure OsCall.munmap 22)
        ((Region.slice 100 16).run w).2.log := by
  intro m w
  have reached : Reached w.toMachine := .fresh rfl
  have hfailed : ((Region.slice 100 16).run w).1 = .error (.osFailure OsCall.mprotect 12) := by
    decide
  obtain ⟨made, events, calls, log, spoken, -, released⟩ :=
    no_silent_defect.1 w (.slice 100 16) reached
  have hmade : made = [.mmap 8192 0x100000000000, .mprotect 0x100000000000 4096 .readWrite (-12),
      .munmap 0x100000000000 8192 (-22)] := by
    have hcalls : ((Region.slice 100 16).run w).2.kernel.calls = made := calls
    rw [← hcalls]
    decide
  have hlog : ((Region.slice 100 16).run w).2.log = events := log
  refine ⟨reached, hfailed, ?_, ?_⟩
  · rw [hlog]
    exact spoken _ _ hfailed rfl
  · rw [hlog]
    rcases released 0x100000000000 8192 (-22) (by simp [hmade]) (by decide) with hanswer | hswallowed
    · rw [hfailed] at hanswer
      cases hanswer
    · exact hswallowed

end PageArena
