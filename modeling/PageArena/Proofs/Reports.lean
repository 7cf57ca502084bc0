/-
What is reported of what goes wrong.

An error that points at a defect is reported when it arises, and it may arise several calls
below the operation that answers it.  `Accounts` says of an act what its caller can rely on
whatever the act is made of: the error that it answers was reported, an answer that is none was
reached without an error, and a release that failed on the way, because something else had
failed before, was reported with a warning after it.  An act keeps to this if each of its steps
does; there is one place where an error is caught, which is where a change of pages failed.
`FailsAs` says which errors an act can answer at all.

Errors of the host are not reported as errors of this library, and they are kept: what was
learned of the backend is told again without being reported again.  So it matters that no other
error is ever kept there, and this is what `Honest` says.
-/
import Mathlib
import PageArena.Allocator.Strategy
import PageArena.Proofs.Allocator.Supplied
import PageArena.Proofs.Silence

namespace PageArena

open OsCall (Record)

/-- What belongs to an error that points at a defect, with the names that it goes by. -/
def ArenaError.data? : ArenaError → Option (List (String × String))
  | .allocationFailed size align => some [("size", toString size), ("align", toString align)]
  | .sizeOverflow operation => some [("operation", operation.words)]
  | .invalidState why => some [("reason", why.words)]
  | .osFailure call code => some [("operation", call.words), ("code", toString code)]
  | _ => none

namespace Event

/-- An error in the log, with these data. -/
structure Tells (x : Event) (data : List (String × String)) : Prop where
  level : x.level = .error
  target : x.target = "vmarena_memory::error"
  fields : x.fields = data

/-- A warning in the log, with the text of an error. -/
structure WarnsOf (x : Event) (e : ArenaError) : Prop where
  level : x.level = .warn
  fields : x.fields = [("error", e.message)]

/-- Every defect has its report, and the report has its data. -/
theorem tells_of_data? {e : ArenaError} {data : List (String × String)}
    (h : e.data? = some data) : ∃ x, ofError? e = some x ∧ x.Tells data := by
  cases e with
  | allocationFailed size align => exact ⟨_, rfl, rfl, rfl, Option.some.inj h⟩
  | sizeOverflow operation => exact ⟨_, rfl, rfl, rfl, Option.some.inj h⟩
  | invalidState why => exact ⟨_, rfl, rfl, rfl, Option.some.inj h⟩
  | osFailure call code => exact ⟨_, rfl, rfl, rfl, Option.some.inj h⟩
  | invalidLayout why => cases h
  | invalidAlignment align => cases h
  | outOfBounds requested capacity => cases h
  | unsupportedPlatform os => cases h
  | invalidTuning why => cases h
  | host error => cases h

end Event

/-- An error that nobody was answered: it was reported, and a warning came after it. -/
def Swallowed (warning : ArenaError → Event) (e : ArenaError) (events : List Event) : Prop :=
  ∃ cause data, e.data? = some data ∧ cause.Tells data ∧ (warning e).WarnsOf e ∧
    [cause, warning e].Sublist events

/-- An error that is answered and not reported. -/
def Unspoken (e : ArenaError) : Prop := Event.ofError? e = none

/-- What was learned of the backend is no error that is reported. -/
def HostRecord.Honest (host : HostRecord) : Prop :=
  ∀ e, host.backend = some (.error e) → Unspoken e

/-- What can be relied on of an answer, of the calls that were made for it and of the reports. -/
structure Account {α : Type} (answer : Except ArenaError α) (made : List Record)
    (events : List Event) : Prop where
  /-- The error that is answered was reported, if it is one that is. -/
  spoken : ∀ e x, answer = .error e → Event.ofError? e = some x → x ∈ events
  quiet : ∀ a, answer = .ok a → ∀ x ∈ events, x.level ≠ .error
  /-- A release that failed is answered or was reported with a warning. -/
  released : ∀ address length result, Record.munmap address length result ∈ made →
    result ≠ 0 → answer = .error (.osFailure OsCall.munmap (-result)) ∨
      Swallowed .releaseFailedAfterFailure (.osFailure OsCall.munmap (-result)) events

namespace Account

variable {α β : Type} {answer : Except ArenaError β} {made made' : List Record}
  {events events' : List Event} {a : α} {e : ArenaError}

theorem swallowed_mono {warning : ArenaError → Event} (h : Swallowed warning e events)
    (sub : events.Sublist events') : Swallowed warning e events' := by
  obtain ⟨cause, data, hdata, tells, warns, listed⟩ := h
  exact ⟨cause, data, hdata, tells, warns, listed.trans sub⟩

/-- What follows on a step that went well. -/
theorem trans (first : Account (.ok a : Except ArenaError α) made events)
    (next : Account answer made' events') : Account answer (made ++ made') (events ++ events') where
  spoken e x he hx := List.mem_append_right _ (next.spoken e x he hx)
  quiet b hb x hx := by
    rcases List.mem_append.mp hx with hfirst | hnext
    · exact first.quiet a rfl x hfirst
    · exact next.quiet b hb x hnext
  released address length result hmade hfailed := by
    rcases List.mem_append.mp hmade with hfirst | hnext
    · rcases first.released address length result hfirst hfailed with hanswer | hswallowed
      · cases hanswer
      · exact Or.inr (swallowed_mono hswallowed (List.sublist_append_left _ _))
    · rcases next.released address length result hnext hfailed with hanswer | hswallowed
      · exact Or.inl hanswer
      · exact Or.inr (swallowed_mono hswallowed (List.sublist_append_right _ _))

/-- A step that failed is the failure of the whole. -/
theorem of_error (first : Account (.error e : Except ArenaError α) made events) :
    Account (.error e : Except ArenaError β) made events where
  spoken e' x he hx := first.spoken e' x (congrArg _ (Except.error.inj he)) hx
  quiet b hb := nomatch hb
  released address length result hmade hfailed := by
    rcases first.released address length result hmade hfailed with hanswer | hswallowed
    · exact Or.inl (congrArg _ (Except.error.inj hanswer))
    · exact Or.inr hswallowed

/-- A step that says nothing of what goes wrong, because nothing does, or because what it
answers is not reported. -/
theorem of_quiet (quiet : ∀ x ∈ events, x.level ≠ .error)
    (unspoken : ∀ e, answer = .error e → Unspoken e)
    (kept : ∀ record ∈ made, record.call ≠ .munmap) : Account answer made events where
  spoken e x he hx := by
    rw [show Event.ofError? e = none from unspoken e he] at hx
    cases hx
  quiet _ _ := quiet
  released address length result hmade _ := absurd rfl (kept _ hmade)

end Account

namespace Act

variable {ε σ τ α β : Type} {P : ArenaError → Prop}

/-- Whatever world an act finds, there is an account of its answer, its calls and its reports. -/
def Accounts (act : Act ArenaError σ α) : Prop :=
  ∀ w : World σ, w.host.Honest → ∃ made events,
    (act.run w).2.kernel.calls = w.kernel.calls ++ made ∧
    (act.run w).2.log = w.log ++ events ∧ (act.run w).2.host.Honest ∧
    Account (act.run w).1 made events

/-- Nothing was reported as an error meanwhile, and no call was made. -/
def Calm (w w' : World σ) : Prop :=
  w'.kernel.calls = w.kernel.calls ∧
    (∃ events, w'.log = w.log ++ events ∧ ∀ x ∈ events, x.level ≠ .error) ∧
    (w.host.Honest → w'.host.Honest)

theorem tone_calm : Tone (Calm (σ := σ)) where
  plain calls _ log backend :=
    ⟨calls, ⟨[], log.trans (List.append_nil _).symm, nofun⟩,
      fun honest e he => honest e (backend.symm.trans he)⟩
  report w event h := by
    refine ⟨rfl, ⟨[event], rfl, ?_⟩, id⟩
    intro x hx
    rw [List.mem_singleton.mp hx]
    exact h
  trans := by
    rintro w w₁ w' ⟨calls, ⟨events, log, quiet⟩, honest⟩ ⟨calls', ⟨events', log', quiet'⟩, honest'⟩
    refine ⟨calls'.trans calls, ⟨events ++ events', ?_, ?_⟩, honest' ∘ honest⟩
    · rw [log', log, List.append_assoc]
    · intro x hx
      rcases List.mem_append.mp hx with hfirst | hnext
      · exact quiet x hfirst
      · exact quiet' x hnext

namespace Accounts

theorem of_calm {act : Act ArenaError σ α} (calm : Along Calm act)
    (unspoken : ∀ w : World σ, w.host.Honest → ∀ e, (act.run w).1 = .error e → Unspoken e) :
    Accounts act := by
  intro w honest
  obtain ⟨calls, ⟨events, log, quiet⟩, honest'⟩ := calm w
  refine ⟨[], events, calls.trans (List.append_nil _).symm, log, honest' honest, ?_⟩
  exact .of_quiet quiet (unspoken w honest) nofun

theorem bind {first : Act ArenaError σ α} {next : α → Act ArenaError σ β}
    (hfirst : Accounts first) (hnext : ∀ a, Accounts (next a)) : Accounts (first >>= next) := by
  intro w honest
  obtain ⟨made, events, calls, log, honest₁, account⟩ := hfirst w honest
  rw [run_bind]
  rcases hrun : first.run w with ⟨e | a, w₁⟩
  · rw [hrun] at calls log honest₁ account
    exact ⟨made, events, calls, log, honest₁, account.of_error⟩
  · rw [hrun] at calls log honest₁ account
    obtain ⟨made', events', calls', log', honest', account'⟩ := hnext a w₁ honest₁
    refine ⟨made ++ made', events ++ events', ?_, ?_, honest', account.trans account'⟩
    · rw [calls', calls, List.append_assoc]
    · rw [log', log, List.append_assoc]

theorem pure (a : α) : Accounts (Pure.pure a : Act ArenaError σ α) :=
  of_calm (tone_calm.pure a) fun _ _ _ he => nomatch he

theorem fail {e : ArenaError} (h : Unspoken e) :
    Accounts (Act.fail e : Act ArenaError σ α) :=
  of_calm (tone_calm.fail e) fun _ _ _ he => (Except.error.inj he) ▸ h

theorem raise (e : ArenaError) : Accounts (Act.raise e : Act ArenaError σ α) := by
  intro w honest
  refine ⟨[], (Event.ofError? e).toList, (List.append_nil _).symm, rfl, honest, ?_, nofun, nofun⟩
  rintro _ x ⟨⟩ hx
  rw [hx]
  exact List.mem_singleton_self x

theorem settle (result : Except ArenaError α) : Accounts (Act.settle result (σ := σ)) := by
  cases result with
  | ok a => exact pure a
  | error e => exact raise e

theorem emit {event : Event} (h : event.level ≠ .error) :
    Accounts (Act.emit event : Act ArenaError σ Unit) :=
  of_calm (tone_calm.emit h) fun _ _ _ he => nomatch he

theorem update (change : σ → σ) : Accounts (Act.update change : Act ArenaError σ Unit) :=
  of_calm (fun _ => ⟨rfl, ⟨[], (List.append_nil _).symm, nofun⟩, id⟩) fun _ _ _ he => nomatch he

theorem heap (call : RawHeap → α × RawHeap) : Accounts (Act.heap call : Act ArenaError σ α) :=
  of_calm (tone_calm.heap call) fun _ _ _ he => nomatch he

theorem attempt {ε : Type} {act : Act ε σ α} (h : Along Calm act) :
    Accounts (Act.attempt act : Act ArenaError σ (Except ε α)) :=
  of_calm h fun _ _ _ he => nomatch he

/-- A call for address space that is no release. -/
theorem kernel {call : Kernel → α × Kernel}
    (h : ∀ k, ∃ record : Record, (call k).2.calls = k.calls ++ [record] ∧
      record.call ≠ .munmap) : Accounts (Act.kernel call : Act ArenaError σ α) := by
  intro w honest
  obtain ⟨record, calls, hcall⟩ := h w.kernel
  refine ⟨[record], [], calls, (List.append_nil _).symm, honest, ?_⟩
  refine .of_quiet nofun nofun ?_
  intro record' hrecord
  rw [List.mem_singleton.mp hrecord]
  exact hcall

/-- What is done next may depend on the object. -/
theorem self_bind {next : σ → Act ArenaError σ β} (h : ∀ s, Accounts (next s)) :
    Accounts (Act.self >>= next) := fun w => h w.self w

theorem now_bind {next : Nat → Act ArenaError σ β} (h : ∀ time, Accounts (next time)) :
    Accounts (Act.now >>= next) := fun w => h w.kernel.clock w

theorem raiseErrno (call : OsCall) : Accounts (Act.raiseErrno call : Act ArenaError σ α) :=
  fun w => raise (.osFailure call w.kernel.errno) w

/-- A part reports what the whole does. -/
theorem within {get : σ → τ} {put : τ → σ → σ} {act : Act ArenaError τ α} (h : Accounts act) :
    Accounts (act.within get put) :=
  fun w honest => h { w with self := get w.self } honest

end Accounts

/-! What an act can fail with, by whatever it is made of. -/

/-- Whatever error an act answers, it is one of these. -/
def FailsAs (P : ArenaError → Prop) (act : Act ArenaError σ α) : Prop :=
  ∀ w e, (act.run w).1 = .error e → P e

namespace FailsAs

theorem pure (a : α) : FailsAs P (Pure.pure a : Act ArenaError σ α) := fun _ _ he => nomatch he

theorem raise {e : ArenaError} (h : P e) : FailsAs P (Act.raise e : Act ArenaError σ α) :=
  fun _ _ he => (Except.error.inj he) ▸ h

theorem fail {e : ArenaError} (h : P e) : FailsAs P (Act.fail e : Act ArenaError σ α) :=
  fun _ _ he => (Except.error.inj he) ▸ h

theorem bind {first : Act ArenaError σ α} {next : α → Act ArenaError σ β}
    (hfirst : FailsAs P first) (hnext : ∀ a, FailsAs P (next a)) :
    FailsAs P (first >>= next) := by
  intro w e he
  obtain ⟨a, w₁, -, hnext'⟩ | ⟨e', hfailed, he'⟩ :=
    run_bind_cases (Prod.mk.eta (p := (first >>= next).run w)).symm
  · exact hnext a w₁ e (by rw [hnext']; exact he)
  · rw [he'] at he
    exact hfirst w e (by rw [hfailed]; exact congrArg _ (Except.error.inj he))

theorem settle {result : Except ArenaError α} (h : ∀ e, result = .error e → P e) :
    FailsAs P (Act.settle result (σ := σ)) := by
  cases result with
  | ok a => exact pure a
  | error e => exact raise (h e rfl)

/-- An error of another kind is told as one of these. -/
theorem mapError {f : ε → ArenaError} (h : ∀ e, P (f e)) (act : Act ε σ α) :
    FailsAs P (act.mapError f) := by
  intro w e he
  rw [run_mapError] at he
  generalize (act.run w).1 = answer at he
  cases answer with
  | ok a => cases he
  | error cause => exact (Except.error.inj he) ▸ h cause

theorem self_bind {next : σ → Act ArenaError σ β} (h : ∀ s, FailsAs P (next s)) :
    FailsAs P (Act.self >>= next) := fun w => h w.self w

theorem now_bind {next : Nat → Act ArenaError σ β} (h : ∀ time, FailsAs P (next time)) :
    FailsAs P (Act.now >>= next) := fun w => h w.kernel.clock w

theorem kernel (call : Kernel → α × Kernel) :
    FailsAs P (Act.kernel call : Act ArenaError σ α) := fun _ _ he => nomatch he

theorem update (change : σ → σ) : FailsAs P (Act.update change : Act ArenaError σ Unit) :=
  fun _ _ he => nomatch he

theorem emit (event : Event) : FailsAs P (Act.emit event : Act ArenaError σ Unit) :=
  fun _ _ he => nomatch he

theorem raiseErrno {call : OsCall} (h : ∀ code, P (.osFailure call code)) :
    FailsAs P (Act.raiseErrno call : Act ArenaError σ α) :=
  fun w => raise (h w.kernel.errno) w

theorem within {get : σ → τ} {put : τ → σ → σ} {act : Act ArenaError τ α} (h : FailsAs P act) :
    FailsAs P (act.within get put) := fun w => h { w with self := get w.self }

end FailsAs

end Act

open Act

/-! ### Calls for address space -/

namespace VirtualMemory

variable {σ : Type}

theorem reserve_accounts (size : Nat) : Accounts (reserve size (σ := σ)) := by
  refine .bind (.kernel fun k => ?_) fun place => ?_
  · have hmapped := Kernel.mmap_mapped k size
    generalize k.mmap size = mapped at hmapped ⊢
    obtain ⟨place, k'⟩ := mapped
    cases hmapped with
    | placed calls clock => exact ⟨_, calls, nofun⟩
    | failed calls clock => exact ⟨_, calls, nofun⟩
  · cases place with
    | none => exact .raiseErrno .mmap
    | some base =>
        exact iteInduction (motive := Accounts) (fun _ => .raise _) fun _ => .pure base

/-- A call that answers whether it succeeded is written down in either case. -/
theorem kernel_accounts {call : OsCall} {record : Int → Record} {serve : Kernel → Bool × Kernel}
    (hserve : ∀ k, Kernel.Served record k (serve k).1 (serve k).2)
    (hrecord : ∀ result, (record result).call = call) (hcall : call ≠ .munmap) :
    Accounts (Act.kernel serve : Act ArenaError σ Bool) := by
  refine .kernel fun k => ?_
  have hserved := hserve k
  generalize serve k = served at hserved ⊢
  obtain ⟨done, k'⟩ := served
  cases hserved with
  | done calls clock => exact ⟨_, calls, hrecord _ ▸ hcall⟩
  | failed calls clock => exact ⟨_, calls, hrecord _ ▸ hcall⟩

theorem commit_accounts (address length : Nat) : Accounts (commit address length (σ := σ)) := by
  refine .bind (kernel_accounts (fun k => Kernel.mprotect_served k address length .readWrite)
    (fun _ => rfl) nofun) fun done => ?_
  cases done with
  | true => exact .pure ()
  | false => exact .raiseErrno .mprotect

theorem uncommit_accounts (address length : Nat) :
    Accounts (uncommit address length (σ := σ)) := by
  refine .bind (kernel_accounts (fun k => Kernel.mprotect_served k address length .noAccess)
    (fun _ => rfl) nofun) fun done => ?_
  cases done with
  | false => exact .raiseErrno .mprotect
  | true =>
      refine .bind (kernel_accounts (fun k => Kernel.madvise_served k address length)
        (fun _ => rfl) nofun) fun done => ?_
      cases done with
      | true => exact .pure ()
      | false => exact .raiseErrno .madvise

/-- How a release can go, with its reports. -/
inductive Releases (address length : Nat) : Except ArenaError Unit → List Record → List Event → Prop
  | done : Releases address length (.ok ()) [.munmap address length 0] []
  | failed (errno : Int) :
      Releases address length (.error (.osFailure OsCall.munmap errno))
        [.munmap address length (-errno)] [.osFailed OsCall.munmap errno]

theorem release_releases (address length : Nat) (w : World σ) :
    ∃ answer w' made events, (release address length).run w = (answer, w') ∧
      Releases address length answer made events ∧
      w'.kernel.calls = w.kernel.calls ++ made ∧ w'.log = w.log ++ events ∧ w'.host = w.host := by
  unfold release
  rw [run_bind, run_kernel]
  have hserved := Kernel.munmap_served w.kernel address length
  generalize w.kernel.munmap address length = served at hserved
  obtain ⟨done, k⟩ := served
  cases hserved with
  | done calls clock =>
      exact ⟨_, _, _, _, rfl, .done, calls, (List.append_nil _).symm, rfl⟩
  | failed calls clock => exact ⟨_, _, _, _, rfl, .failed k.errno, calls, rfl, rfl⟩

theorem Releases.account {address length : Nat} {answer : Except ArenaError Unit}
    {made : List Record} {events : List Event} (h : Releases address length answer made events) :
    Account answer made events := by
  cases h with
  | done =>
      refine ⟨fun _ _ he => (nomatch he), fun _ _ x hx => absurd hx List.not_mem_nil, ?_⟩
      intro _ _ result hmade hfailed
      have hresult := (Record.munmap.inj (List.mem_singleton.mp hmade)).2.2
      exact absurd hresult hfailed
  | failed errno =>
      refine ⟨?_, fun _ hok => (nomatch hok), ?_⟩
      · intro e x he hx
        obtain rfl := Except.error.inj he
        obtain rfl := Option.some.inj hx
        exact List.mem_singleton_self _
      · intro _ _ result hmade _
        have hresult := (Record.munmap.inj (List.mem_singleton.mp hmade)).2.2
        rw [hresult, Int.neg_neg]
        exact Or.inl rfl

theorem release_accounts (address length : Nat) : Accounts (release address length (σ := σ)) := by
  intro w honest
  obtain ⟨answer, w', made, events, hrun, releases, calls, log, host⟩ :=
    release_releases address length w
  rw [hrun]
  exact ⟨made, events, calls, log, host ▸ honest, releases.account⟩

end VirtualMemory

/-! ### Regions -/

namespace Region

variable {w : World Region}

/-- Closing after a failure answers nothing, and a release that fails is reported. -/
theorem abandon_reports (w : World Region) :
    ∃ w' made events, abandon.run w = (.ok (), w') ∧
      w'.kernel.calls = w.kernel.calls ++ made ∧ w'.log = w.log ++ events ∧ w'.host = w.host ∧
      ∀ address length result, Record.munmap address length result ∈ made → result ≠ 0 →
        Swallowed .releaseFailedAfterFailure (.osFailure OsCall.munmap (-result)) events := by
  unfold abandon
  rw [run_self_bind]
  cases hp : w.self.phase with
  | unreserved =>
      exact ⟨_, [], [], rfl, (List.append_nil _).symm, (List.append_nil _).symm, rfl,
        fun _ _ _ hmade => absurd hmade List.not_mem_nil⟩
  | closed =>
      exact ⟨_, [], [], rfl, (List.append_nil _).symm, (List.append_nil _).symm, rfl,
        fun _ _ _ hmade => absurd hmade List.not_mem_nil⟩
  | reserved base =>
      simp only [run_bind, run_update, run_attempt]
      obtain ⟨answer, w', made, events, hrun, releases, calls, log, host⟩ :=
        VirtualMemory.release_releases base w.self.total
          { w with self := { w.self with phase := .closed, saved := [] } }
      rw [hrun]
      cases releases with
      | done =>
          refine ⟨_, _, _, rfl, calls, log, host, ?_⟩
          intro _ _ result hmade hfailed
          exact absurd (Record.munmap.inj (List.mem_singleton.mp hmade)).2.2 hfailed
      | failed errno =>
          refine ⟨_, _, [.osFailed OsCall.munmap errno,
            .releaseFailedAfterFailure (.osFailure OsCall.munmap errno)], rfl, calls, ?_, host, ?_⟩
          · show w'.log ++ [_] = _
            rw [log, List.append_assoc]
            rfl
          · intro _ _ result hmade _
            have hresult := (Record.munmap.inj (List.mem_singleton.mp hmade)).2.2
            rw [hresult, Int.neg_neg]
            exact ⟨_, _, rfl, ⟨rfl, rfl, rfl⟩, ⟨rfl, rfl⟩, List.Sublist.refl _⟩

/-- **Where an error is caught**: the region is given up, and the error is answered after all. -/
theorem orAbandon_accounts {change : Act ArenaError Region Unit} (h : Accounts change) :
    Accounts (orAbandon change) := by
  intro w honest
  obtain ⟨made, events, calls, log, honest₁, account⟩ := h w honest
  unfold orAbandon
  rw [run_bind, run_attempt]
  rcases hrun : change.run w with ⟨e | u, w₁⟩
  · rw [hrun] at calls log honest₁ account
    obtain ⟨w', made', events', hclose, calls', log', host', released⟩ := abandon_reports w₁
    simp only [run_bind, hclose, run_fail]
    -- The change reported its error before the region was given up, and that is what is answered.
    refine ⟨made ++ made', events ++ events', ?_, ?_, host' ▸ honest₁, ?_⟩
    · rw [calls', calls, List.append_assoc]
    · rw [log', log, List.append_assoc]
    · refine ⟨?_, fun _ hok => (nomatch hok), ?_⟩
      · intro e' x he hx
        exact List.mem_append_left _ (account.spoken e' x he hx)
      · intro address length result hmade hfailed
        rcases List.mem_append.mp hmade with hfirst | hnext
        · rcases account.released address length result hfirst hfailed with hanswer | hswallowed
          · exact Or.inl hanswer
          · exact Or.inr (Account.swallowed_mono hswallowed (List.sublist_append_left _ _))
        · exact Or.inr (Account.swallowed_mono (released address length result hnext hfailed)
            (List.sublist_append_right _ _))
  · rw [hrun] at calls log honest₁ account
    exact ⟨made, events, calls, log, honest₁, account⟩

theorem currentBase_accounts : Accounts currentBase := by
  refine .self_bind fun r => ?_
  cases r.phase with
  | reserved base => exact .pure base
  | closed => exact .raise _
  | unreserved => exact .raise _

theorem obtainBase_accounts : Accounts obtainBase := by
  refine .self_bind fun r => ?_
  cases r.phase with
  | reserved base => exact .pure base
  | closed => exact .raise _
  | unreserved =>
      refine .self_bind fun r => .bind (VirtualMemory.reserve_accounts _) fun base => ?_
      refine .bind (.settle _) fun _ => .now_bind fun time => .bind (.update _) fun _ => ?_
      exact .bind (.emit nofun) fun _ => .pure base

theorem checkpoint_accounts : Accounts checkpoint := by
  refine .bind obtainBase_accounts fun _ => .self_bind fun r => ?_
  exact .bind (.update _) fun _ => .pure _

theorem commitTo_accounts (base stop : Nat) : Accounts (commitTo base stop) := by
  refine .self_bind fun r => .bind (.settle _) fun whole => .bind (.settle _) fun length => ?_
  refine .bind (orAbandon_accounts (VirtualMemory.commit_accounts _ _)) fun _ => ?_
  exact .bind (.emit nofun) fun _ => .update _

theorem cut_accounts (base size align : Nat) : Accounts (cut base size align) := by
  refine .self_bind fun r => .bind (.settle _) fun here => .bind (.settle _) fun address => ?_
  refine .bind (.settle _) fun start => .bind (.settle _) fun stop => ?_
  have advance : Accounts (do
      Act.update fun r : Region => { r with cursor := stop }
      return ⟨base + start, size⟩ : Act ArenaError Region Span) :=
    .bind (.update _) fun _ => .pure _
  refine iteInduction (motive := Accounts) (fun _ => .raise _) fun _ => ?_
  refine iteInduction (motive := Accounts) (fun _ => .pure _) fun _ => ?_
  refine iteInduction (motive := Accounts) (fun _ => ?_) fun _ => advance
  exact .bind (commitTo_accounts base stop) fun _ => advance

theorem slice_accounts (size align : Nat) : Accounts (slice size align) := by
  refine .bind (.settle _) fun _ => .bind obtainBase_accounts fun base => ?_
  exact cut_accounts base size align

theorem trim_accounts : Accounts trim := by
  refine .self_bind fun r => .bind (.settle _) fun threshold => .bind (.settle _) fun idle => ?_
  refine .now_bind fun time => ?_
  refine iteInduction (motive := Accounts) (fun _ => .pure ()) fun _ => ?_
  refine .bind (.settle _) fun length => .bind (.settle _) fun boundary => ?_
  refine .bind currentBase_accounts fun base => ?_
  refine .bind (orAbandon_accounts (VirtualMemory.uncommit_accounts _ _)) fun _ => ?_
  exact .bind (.emit nofun) fun _ => .now_bind fun _ => .update _

theorem rollback_accounts (handle : Handle) : Accounts (rollback handle) := by
  refine .bind currentBase_accounts fun _ => .self_bind fun r => ?_
  cases r.saved with
  | nil => exact .raise _
  | cons cursor older =>
      refine iteInduction (motive := Accounts) (fun _ => ?_) fun _ => .raise _
      refine .bind (.update _) fun _ => .bind (.emit nofun) fun _ => ?_
      exact .bind (.update _) fun _ => trim_accounts

theorem close_accounts : Accounts close := by
  refine .self_bind fun r => .bind (.update _) fun _ => ?_
  cases r.phase with
  | closed => exact .raise _
  | unreserved => exact .pure ()
  | reserved base =>
      refine .bind (.update _) fun _ => .bind (.emit nofun) fun _ => ?_
      exact VirtualMemory.release_accounts base r.total

end Region

/-! ### The host -/

namespace Host

variable {σ : Type} {w : World σ}

/-- Why there is no backend is nothing that is reported as a defect. -/
theorem chooseBackend_failsAs : FailsAs Unspoken (chooseBackend (σ := σ)) := by
  have told {α : Type} (act : Act HostError σ α) : FailsAs Unspoken (act.mapError .host) :=
    .mapError (fun e => (rfl : Unspoken (.host e))) act
  unfold chooseBackend
  cases OsFamily.running with
  | error why => exact .fail rfl
  | ok os =>
      refine .bind (told pageSize?) fun _ => .bind (told granularity?) fun _ => ?_
      have unsupported : FailsAs Unspoken (Act.fail (.unsupportedPlatform os.name) :
          Act ArenaError σ Backend) := .fail rfl
      refine iteInduction (motive := FailsAs Unspoken) (fun _ => ?_) fun _ => unsupported
      refine .bind (.mapError (fun e => e.elim) _) fun backend => ?_
      exact .bind (.emit _) fun _ => .pure backend

theorem learnBackend_accounts : Accounts (learnBackend (σ := σ)) := by
  intro w honest
  obtain ⟨calls, ⟨events, log, quiet⟩, -⟩ := along_chooseBackend tone_calm w
  have unspoken := chooseBackend_failsAs w
  unfold learnBackend
  simp only [run_bind, run_attempt, run_learn]
  generalize chooseBackend.run w = ran at calls log unspoken ⊢
  obtain ⟨answer, w₁⟩ := ran
  have honest₁ : HostRecord.Honest { w₁.host with backend := some answer } := by
    intro e he
    exact unspoken e (Option.some.inj he)
  cases answer with
  | ok backend =>
      refine ⟨[], events, calls.trans (List.append_nil _).symm, log, honest₁, ?_⟩
      exact .of_quiet quiet (fun _ he => (nomatch he)) nofun
  | error e =>
      refine ⟨[], events, calls.trans (List.append_nil _).symm, log, honest₁, ?_⟩
      exact .of_quiet quiet unspoken nofun

theorem current_accounts : Accounts (current (σ := σ)) := by
  intro w honest
  unfold current
  rw [run_world_bind]
  cases hknown : w.host.backend with
  | none => exact learnBackend_accounts w honest
  | some known =>
      cases known with
      | ok backend => exact Accounts.pure backend w honest
      | error e => exact Accounts.fail (honest e hknown) w honest

theorem init_accounts : Accounts (init (σ := σ)) :=
  .bind current_accounts fun backend => .bind (.emit nofun) fun _ => .pure backend

end Host

namespace Region

variable {σ : Type}

theorem onBackend_accounts (size : Nat) (tuning : RegionTuning) (backend : Backend) :
    Accounts (onBackend size tuning backend (σ := σ)) := by
  refine .bind (.settle _) fun _ => ?_
  refine iteInduction (motive := Accounts) (fun _ => .raise _) fun _ => ?_
  refine .bind (.settle _) fun total => ?_
  exact iteInduction (motive := Accounts) (fun _ => .now_bind fun _ => .pure _) fun _ => .pure none

theorem tuned_accounts (size : Nat) (tuning : RegionTuning) :
    Accounts (tuned size tuning (σ := σ)) :=
  .bind Host.current_accounts fun backend => onBackend_accounts size tuning backend

end Region

/-! ### Batch heaps -/

namespace BatchHeap

theorem ofSource_accounts {σ : Type} (source : RawSource) (tuning : HeapTuning) :
    Accounts (ofSource source tuning (σ := σ)) := .bind (.settle _) fun _ => .pure _

/-- A good alignment is all that the raw memory asks for not to report one. -/
theorem calm_allocate {size align : Nat} (h : Word.isPowerOfTwo align = true)
    (source : RawSource) : Along Calm (source.allocate size align (σ := BatchHeap)) := by
  refine RawSource.along_allocate tone_calm ?_ source size
  intro hbad
  rw [h] at hbad
  cases hbad

theorem allocate_accounts (size align : Nat) : Accounts (allocate size align) := by
  unfold allocate
  cases haligned : Word.isPowerOfTwo align with
  | false =>
      rw [Checked.alignment_of_not haligned]
      exact fun w => Accounts.raise (.invalidAlignment align) w
  | true =>
      refine .bind (.settle _) fun _ => .self_bind fun heap => ?_
      refine iteInduction (motive := Accounts) (fun _ => .raise _) fun _ => ?_
      refine .bind (.attempt (calm_allocate haligned heap.source)) fun answer => ?_
      split
      · exact .bind (.emit nofun) fun _ => .bind (.update _) fun _ => .pure _
      · exact .raise _
      · exact .fail rfl

theorem allocateZeroed_accounts (size align : Nat) : Accounts (allocateZeroed size align) :=
  .bind (allocate_accounts size align) fun span => .bind (.heap _) fun _ => .pure span

theorem close_accounts : Accounts close := by
  refine .self_bind fun heap => ?_
  refine iteInduction (motive := Accounts) (fun _ => .raise _) fun _ => ?_
  refine .bind (.update _) fun _ => ?_
  refine iteInduction (motive := Accounts) (fun _ => .pure ()) fun _ => ?_
  refine .of_calm (RawSource.along_releaseBatch tone_calm _ _) fun w _ e he => ?_
  obtain ⟨w', hrun, -⟩ := RawSource.releaseBatch_ok (ε := ArenaError) heap.source heap.entries w
  rw [hrun] at he
  cases he

end BatchHeap

theorem Factory.ofSource_accounts {σ : Type} (source : RawSource) (tuning : HeapTuning) :
    Accounts (Factory.ofSource source tuning (σ := σ)) := .bind (.settle _) fun _ => .pure _

/-! ### Pools -/

namespace Pool

theorem allocate_accounts (size align : Nat) : Accounts (allocate size align) := by
  refine .self_bind fun t => ?_
  have slices : Accounts (onRegion (Region.slice size align)) :=
    .within (Region.slice_accounts size align)
  cases t.pool with
  | closed => exact .raise _
  | active handle => exact slices
  | fresh =>
      refine .bind (.within Region.checkpoint_accounts) fun handle => ?_
      exact .bind (.update _) fun _ => slices

theorem allocateZeroed_accounts (size align : Nat) : Accounts (allocateZeroed size align) := by
  refine .bind (allocate_accounts size align) fun span => .bind ?_ fun _ => .pure span
  exact .of_calm (fun _ => tone_calm.plain rfl rfl rfl rfl) fun _ _ _ he => nomatch he

theorem close_accounts : Accounts close := by
  refine .self_bind fun t => .bind (.update _) fun _ => ?_
  cases t.pool with
  | closed => exact .raise _
  | fresh => exact .pure ()
  | active handle => exact .within (Region.rollback_accounts handle)

end Pool

end PageArena
