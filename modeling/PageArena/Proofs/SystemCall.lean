/-
What the calls for managing address space answer, and how they are written down.

Every call is written down with its arguments, whether it succeeds or not.  `Answered` says
for the calls that answer no more than that: a success is written down with zero, a failure
with its number, and the error carries the same number.  Taking pages away is two calls, and
the second is made only after the first succeeded, so there are three ways for it to go.
-/
import Mathlib
import PageArena.Proofs.World
import PageArena.VirtualMemory

namespace PageArena

open OsCall (Record)

namespace Kernel

theorem judge_frame {k k' : Kernel} {call : OsCall} {verdict : Option Int}
    (h : k.judge call = (verdict, k')) : k'.calls = k.calls ∧ k'.clock = k.clock := by
  have hk : k' = (k.judge call).2 := by rw [h]
  rw [hk]
  exact ⟨rfl, rfl⟩

/-- A kernel after a call that answered whether it succeeded. -/
inductive Served (record : Int → Record) (k : Kernel) : Bool → Kernel → Prop
  | done {k' : Kernel} (calls : k'.calls = k.calls ++ [record 0])
      (clock : k'.clock = k.clock) : Served record k true k'
  | failed {k' : Kernel} (calls : k'.calls = k.calls ++ [record (-k'.errno)])
      (clock : k'.clock = k.clock) : Served record k false k'

/-- A call that is judged first, and then does no more than change what memory holds. -/
theorem served_of_judge {k : Kernel} {call : OsCall} {record : Int → Record}
    (next : Kernel → Kernel) (hcalls : ∀ k, (next k).calls = k.calls)
    (hclock : ∀ k, (next k).clock = k.clock) :
    let served := match k.judge call with
      | (some errno, k) => (false, k.fail errno record)
      | (none, k) => (true, next (k.record (record 0)))
    Served record k served.1 served.2 := by
  intro served
  rcases hj : k.judge call with ⟨_ | errno, k₁⟩
  · obtain ⟨hc, ht⟩ := judge_frame hj
    rw [show served = (true, next (k₁.record (record 0))) by simp only [served, hj]]
    exact .done (by rw [hcalls, Kernel.record, hc]) (by rw [hclock]; exact ht)
  · obtain ⟨hc, ht⟩ := judge_frame hj
    rw [show served = (false, k₁.fail errno record) by simp only [served, hj]]
    exact .failed (by simp only [fail, Kernel.record, hc]) ht

theorem mprotect_served (k : Kernel) (address length : Nat) (protection : OsCall.Protection) :
    Served (.mprotect address length protection) k
      (k.mprotect address length protection).1 (k.mprotect address length protection).2 :=
  served_of_judge id (fun _ => rfl) (fun _ => rfl)

theorem madvise_served (k : Kernel) (address length : Nat) :
    Served (.madvise address length) k
      (k.madvise address length).1 (k.madvise address length).2 :=
  served_of_judge (fun k => { k with memory := k.memory.fill address length 0 })
    (fun _ => rfl) (fun _ => rfl)

theorem munmap_served (k : Kernel) (address length : Nat) :
    Served (.munmap address length) k
      (k.munmap address length).1 (k.munmap address length).2 :=
  served_of_judge id (fun _ => rfl) (fun _ => rfl)

/-- A kernel after a mapping was asked for. -/
inductive Mapped (length : Nat) (k : Kernel) : Option Nat → Kernel → Prop
  | placed {k' : Kernel} {base : Nat} (calls : k'.calls = k.calls ++ [.mmap length base])
      (clock : k'.clock = k.clock) : Mapped length k (some base) k'
  | failed {k' : Kernel} {result : Int} (calls : k'.calls = k.calls ++ [.mmap length result])
      (clock : k'.clock = k.clock) : Mapped length k none k'

theorem place_frame {k k' : Kernel} {length : Nat} {base : Option Nat}
    (h : k.place length = (base, k')) : k'.calls = k.calls ∧ k'.clock = k.clock := by
  have hk : k' = (k.place length).2 := by rw [h]
  rw [hk]
  unfold place
  split
  · exact ⟨rfl, rfl⟩
  · split
    · exact ⟨rfl, rfl⟩
    · exact ⟨rfl, rfl⟩

theorem mmap_mapped (k : Kernel) (length : Nat) :
    Mapped length k (k.mmap length).1 (k.mmap length).2 := by
  unfold mmap
  split
  · rename_i errno k₁ h
    obtain ⟨hcalls, hclock⟩ := judge_frame h
    exact .failed (by simp [fail, record, hcalls]; rfl) hclock
  · rename_i k₁ h
    obtain ⟨hcalls, hclock⟩ := judge_frame h
    split
    · rename_i k₂ hp
      obtain ⟨hcalls', hclock'⟩ := place_frame hp
      exact .failed (by simp [fail, record, hcalls', hcalls]; rfl) (hclock'.trans hclock)
    · rename_i base k₂ hp
      obtain ⟨hcalls', hclock'⟩ := place_frame hp
      by_cases hb : base = noMapping
      · simp only [hb, if_true]
        exact .failed (by simp [record, hcalls', hcalls]; rfl) (hclock'.trans hclock)
      · simp only [hb, if_false]
        exact .placed (by simp [record, hcalls', hcalls]) (hclock'.trans hclock)

end Kernel

namespace VirtualMemory

variable {σ : Type} {w w' : World σ} {address length size : Nat}

/-- What a call that answers no more than whether it succeeded comes to, and how it is
written down. -/
inductive Answered (call : OsCall) (record : Int → Record) :
    Except ArenaError Unit → List Record → Prop
  | done : Answered call record (.ok ()) [record 0]
  | failed (errno : Int) :
      Answered call record (.error (.osFailure call errno)) [record (-errno)]

/-- What a reservation comes to. -/
inductive Reserves (size : Nat) : Except ArenaError Nat → List Record → Prop
  | placed {base : Nat} (pos : 0 < base) : Reserves size (.ok base) [.mmap size base]
  /-- The mapping was made, but at the address zero. -/
  | unusable : Reserves size (.error (.osFailure OsCall.mmap 0)) [.mmap size 0]
  | failed (errno result : Int) :
      Reserves size (.error (.osFailure OsCall.mmap errno)) [.mmap size result]

/-- What taking pages away comes to. -/
inductive Uncommits (address length : Nat) : Except ArenaError Unit → List Record → Prop
  | done : Uncommits address length (.ok ())
      [.mprotect address length .noAccess 0, .madvise address length 0]
  | unprotected (errno : Int) :
      Uncommits address length (.error (.osFailure OsCall.mprotect errno))
        [.mprotect address length .noAccess (-errno)]
  | kept (errno : Int) :
      Uncommits address length (.error (.osFailure OsCall.madvise errno))
        [.mprotect address length .noAccess 0, .madvise address length (-errno)]

/-- An act that makes one call and fails with its number if the call fails. -/
theorem answered_of_served {call : OsCall} {record : Int → Record} {done : Bool} {k : Kernel}
    {answer : Except ArenaError Unit} (hk : Kernel.Served record w.kernel done k)
    (h : (if done = true then pure () else Act.raiseErrno call : Act ArenaError σ Unit).run
      { w with kernel := k } = (answer, w')) :
    ∃ made, Answered call record answer made ∧ w.Leads w' w.self made := by
  cases hk with
  | done hcalls hclock =>
      obtain ⟨rfl, rfl⟩ := Prod.mk.inj h
      exact ⟨_, .done, rfl, hcalls, hclock⟩
  | failed hcalls hclock =>
      obtain ⟨rfl, rfl⟩ := Prod.mk.inj h
      exact ⟨_, .failed _, rfl, hcalls, hclock⟩

theorem commit_answered {answer : Except ArenaError Unit}
    (h : (commit address length).run w = (answer, w')) :
    ∃ made, Answered .mprotect (.mprotect address length .readWrite) answer made ∧
      w.Leads w' w.self made :=
  answered_of_served (Kernel.mprotect_served w.kernel address length .readWrite) h

theorem release_answered {answer : Except ArenaError Unit}
    (h : (release address length).run w = (answer, w')) :
    ∃ made, Answered .munmap (.munmap address length) answer made ∧
      w.Leads w' w.self made :=
  answered_of_served (Kernel.munmap_served w.kernel address length) h

theorem uncommit_uncommits {answer : Except ArenaError Unit}
    (h : (uncommit address length).run w = (answer, w')) :
    ∃ made, Uncommits address length answer made ∧ w.Leads w' w.self made := by
  simp only [uncommit, Act.run_bind, Act.run_kernel] at h
  have hk := Kernel.mprotect_served w.kernel address length .noAccess
  generalize w.kernel.mprotect address length .noAccess = protection at h hk
  obtain ⟨done, k⟩ := protection
  cases hk with
  | failed hcalls hclock =>
      obtain ⟨rfl, rfl⟩ := Prod.mk.inj h
      exact ⟨_, .unprotected _, rfl, hcalls, hclock⟩
  | done hcalls hclock =>
      have first : w.Leads { w with kernel := k } w.self
          [.mprotect address length .noAccess 0] := ⟨rfl, hcalls, hclock⟩
      obtain ⟨made, hmade, next⟩ := answered_of_served (w := { w with kernel := k })
        (Kernel.madvise_served k address length) h
      cases hmade with
      | done => exact ⟨_, .done, first.trans next⟩
      | failed errno => exact ⟨_, .kept errno, first.trans next⟩

theorem reserve_reserves {answer : Except ArenaError Nat}
    (h : (reserve size).run w = (answer, w')) :
    ∃ made, Reserves size answer made ∧ w.Leads w' w.self made := by
  simp only [reserve, Act.run_bind, Act.run_kernel] at h
  have hk := Kernel.mmap_mapped w.kernel size
  generalize w.kernel.mmap size = mapping at h hk
  obtain ⟨base?, k⟩ := mapping
  cases hk with
  | failed hcalls hclock =>
      obtain ⟨rfl, rfl⟩ := Prod.mk.inj h
      exact ⟨_, .failed _ _, rfl, hcalls, hclock⟩
  | @placed _ base hcalls hclock =>
      by_cases hb : base = 0
      · simp only [hb, if_true] at h
        obtain ⟨rfl, rfl⟩ := Prod.mk.inj h
        exact ⟨_, .unusable, rfl, by rw [hcalls, hb]; rfl, hclock⟩
      · simp only [hb, if_false] at h
        obtain ⟨rfl, rfl⟩ := Prod.mk.inj h
        exact ⟨_, .placed (Nat.pos_of_ne_zero hb), rfl, hcalls, hclock⟩

end VirtualMemory

end PageArena
