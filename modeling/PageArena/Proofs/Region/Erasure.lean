/-
What the operations on a region do to the bytes of memory.

Only two calls erase anything.  A fresh mapping holds zeros, and so does a range of pages
whose contents were given up.  The record of a call tells the range, so everything that an
operation may have erased can be read off the calls that it made, and `Erases` says that it
touched no other byte.

Where these ranges lie is a matter of the bookkeeping.  A region that holds its base maps
nothing any more, and pages are given back only from above the cursor, as it is when they
are.  So nothing that an operation erases lies below the cursor that it leaves.
-/
import Mathlib
import PageArena.Proofs.Region.Access

namespace PageArena

open OsCall (Record)

/-- The bytes that a call may have set to zero. -/
def OsCall.Record.erased : Record → Set Nat
  | .mmap length result => OsCall.range result.toNat length
  | .madvise address length _ => OsCall.range address length
  | .mprotect .. | .munmap .. => ∅

namespace Kernel

/-- To judge a call, and to choose a place for a mapping, is no matter of memory. -/
theorem judge_untouched {k k₁ : Kernel} {call : OsCall} {verdict : Option Int} (h : k.judge call = (verdict, k₁)) :
    k₁.calls = k.calls ∧ k₁.memory = k.memory := by
  have hk : k₁ = (k.judge call).2 := by rw [h]
  rw [hk]
  exact ⟨rfl, rfl⟩

theorem place_untouched {k k₁ : Kernel} {length : Nat} {place : Option Nat} (h : k.place length = (place, k₁)) :
    k₁.calls = k.calls ∧ k₁.memory = k.memory := by
  have hk : k₁ = (k.place length).2 := by rw [h]
  rw [hk]
  unfold Kernel.place
  split
  · exact ⟨rfl, rfl⟩
  · split
    · exact ⟨rfl, rfl⟩
    · exact ⟨rfl, rfl⟩

/-- From one kernel to a later one, no byte has changed that none of the calls made in between
erased. -/
def Erases (k k' : Kernel) : Prop :=
  ∃ made, k'.calls = k.calls ++ made ∧
    ∀ a, (∀ record ∈ made, a ∉ record.erased) → k'.memory.byteAt a = k.memory.byteAt a

namespace Erases

variable {k k₁ k' : Kernel}

theorem refl (k : Kernel) : Erases k k := ⟨[], (List.append_nil _).symm, fun _ _ => rfl⟩

theorem trans (first : Erases k k₁) (next : Erases k₁ k') : Erases k k' := by
  obtain ⟨made, hcalls, hmade⟩ := first
  obtain ⟨made', hcalls', hmade'⟩ := next
  refine ⟨made ++ made', by rw [hcalls', hcalls, List.append_assoc], ?_⟩
  intro a ha
  obtain ⟨hfirst, hnext⟩ := List.forall_mem_append.mp ha
  exact (hmade' a hnext).trans (hmade a hfirst)

/-- A call that failed has left memory alone. -/
theorem of_fail (same : k₁.calls = k.calls ∧ k₁.memory = k.memory) (errno : Int)
    (record : Int → Record) : Erases k (k₁.fail errno record) := by
  refine ⟨[record (-errno)], ?_, fun a _ => ?_⟩
  · rw [← same.1]
    rfl
  · rw [← same.2]
    rfl

/-- So has a call that has to do with access only. -/
theorem of_record (same : k₁.calls = k.calls ∧ k₁.memory = k.memory) (record : Record) :
    Erases k (k₁.record record) := by
  refine ⟨[record], ?_, fun a _ => ?_⟩
  · rw [← same.1]
    rfl
  · rw [← same.2]
    rfl

/-- A call that sets a range to zero. -/
theorem of_fill (same : k₁.calls = k.calls ∧ k₁.memory = k.memory) {record : Record}
    {start length : Nat} (hrange : record.erased = OsCall.range start length) :
    Erases k { k₁.record record with memory := k₁.memory.fill start length 0 } := by
  refine ⟨[record], ?_, fun a ha => ?_⟩
  · rw [← same.1]
    rfl
  · have houtside := ha record (List.mem_singleton_self record)
    rw [hrange] at houtside
    show (k₁.memory.fill start length 0).byteAt a = k.memory.byteAt a
    rw [Memory.fill_byteAt, if_neg (show ¬ (start ≤ a ∧ a < start + length) from houtside), same.2]

end Erases

theorem mprotect_erases (k : Kernel) (address length : Nat) (protection : OsCall.Protection) :
    Erases k (k.mprotect address length protection).2 := by
  unfold mprotect
  split
  · rename_i errno k₁ h
    exact .of_fail (judge_untouched h) errno _
  · rename_i k₁ h
    exact .of_record (judge_untouched h) _

theorem munmap_erases (k : Kernel) (address length : Nat) :
    Erases k (k.munmap address length).2 := by
  unfold munmap
  split
  · rename_i errno k₁ h
    exact .of_fail (judge_untouched h) errno _
  · rename_i k₁ h
    exact .of_record (judge_untouched h) _

theorem madvise_erases (k : Kernel) (address length : Nat) :
    Erases k (k.madvise address length).2 := by
  unfold madvise
  split
  · rename_i errno k₁ h
    exact .of_fail (judge_untouched h) errno _
  · rename_i k₁ h
    exact .of_fill (judge_untouched h) rfl

theorem mmap_erases (k : Kernel) (length : Nat) : Erases k (k.mmap length).2 := by
  unfold mmap
  split
  · rename_i errno k₁ h
    exact .of_fail (judge_untouched h) errno _
  · rename_i k₁ h
    have judged := judge_untouched h
    split
    · rename_i k₂ hp
      have placed := place_untouched hp
      exact .of_fail ⟨placed.1.trans judged.1, placed.2.trans judged.2⟩ _ _
    · rename_i base k₂ hp
      have placed := place_untouched hp
      exact .of_fill ⟨placed.1.trans judged.1, placed.2.trans judged.2⟩ rfl

end Kernel

namespace Act

variable {ε ε' σ τ α β : Type}

/-- An act that touches no byte but those that the calls it makes erase. -/
def Erases (act : Act ε σ α) : Prop := ∀ w, Kernel.Erases w.kernel (act.run w).2.kernel

namespace Erases

/-- An act that leaves the system alone. -/
theorem of_still {act : Act ε σ α} (h : ∀ w, (act.run w).2.kernel = w.kernel) : Erases act :=
  fun w => h w ▸ .refl w.kernel

theorem pure (a : α) : Erases (Pure.pure a : Act ε σ α) := of_still fun _ => rfl

theorem raise (e : ArenaError) : Erases (Act.raise e : Act ArenaError σ α) := of_still fun _ => rfl

theorem settle (result : Except ArenaError α) : Erases (Act.settle result (σ := σ)) := by
  cases result with
  | ok a => exact pure a
  | error e => exact raise e

theorem emit (event : Event) : Erases (Act.emit event : Act ε σ Unit) := of_still fun _ => rfl

theorem update (change : σ → σ) : Erases (Act.update change : Act ε σ Unit) :=
  of_still fun _ => rfl

theorem now : Erases (Act.now : Act ε σ Nat) := of_still fun _ => rfl

theorem bind {first : Act ε σ α} {next : α → Act ε σ β} (hfirst : Erases first)
    (hnext : ∀ a, Erases (next a)) : Erases (first >>= next) := by
  intro w
  have h := hfirst w
  rw [Act.run_bind]
  rcases hrun : first.run w with ⟨e | a, w₁⟩
  · rw [hrun] at h
    exact h
  · rw [hrun] at h
    exact h.trans (hnext a w₁)

/-- What is done next may depend on the object. -/
theorem self_bind {next : σ → Act ε σ β} (h : ∀ s, Erases (next s)) :
    Erases (Act.self >>= next) :=
  bind (of_still fun _ => rfl) h

theorem attempt {act : Act ε σ α} (h : Erases act) :
    Erases (Act.attempt act : Act ε' σ (Except ε α)) := h

theorem within {act : Act ε τ α} (h : Erases act) (get : σ → τ) (put : τ → σ → σ) :
    Erases (act.within get put) := fun w => h { w with self := get w.self }

/-- A call to the system, and whether it failed decides what is done next. -/
theorem branch {call : Kernel → Bool × Kernel} (h : ∀ k, Kernel.Erases k (call k).2)
    {yes no : Act ε σ α} (hyes : Erases yes) (hno : Erases no) :
    Erases (Act.kernel call >>= fun done => if done = true then yes else no) := by
  refine bind (fun w => h w.kernel) fun done => ?_
  cases done with
  | false => exact hno
  | true => exact hyes

end Erases

end Act

namespace VirtualMemory

variable {σ : Type}

theorem reserve_erases (size : Nat) : Act.Erases (reserve size (σ := σ)) := by
  refine .bind (fun w => Kernel.mmap_erases w.kernel size) fun place => ?_
  cases place with
  | none => exact .of_still fun _ => rfl
  | some base =>
      by_cases hzero : base = 0
      · simp only [if_pos hzero]
        exact .raise _
      · simp only [if_neg hzero]
        exact .pure base

theorem commit_erases (address length : Nat) : Act.Erases (commit address length (σ := σ)) :=
  .branch (Kernel.mprotect_erases · address length .readWrite) (.pure ()) (.of_still fun _ => rfl)

theorem uncommit_erases (address length : Nat) :
    Act.Erases (uncommit address length (σ := σ)) := by
  refine .branch (Kernel.mprotect_erases · address length .noAccess) ?_ (.of_still fun _ => rfl)
  exact .branch (Kernel.madvise_erases · address length) (.pure ()) (.of_still fun _ => rfl)

theorem release_erases (address length : Nat) : Act.Erases (release address length (σ := σ)) :=
  .branch (Kernel.munmap_erases · address length) (.pure ()) (.of_still fun _ => rfl)

end VirtualMemory

namespace Region

theorem obtainBase_erases : Act.Erases obtainBase := by
  refine .self_bind fun r => ?_
  cases r.phase with
  | reserved base => exact .pure base
  | closed => exact .raise _
  | unreserved =>
      refine .self_bind fun r => .bind (VirtualMemory.reserve_erases _) fun base => ?_
      refine .bind (.settle _) fun _ => .bind .now fun time => ?_
      exact .bind (.update _) fun _ => .bind (.emit _) fun _ => .pure base

theorem abandon_erases : Act.Erases abandon := by
  refine .self_bind fun r => .bind (.update _) fun _ => ?_
  cases r.phase with
  | unreserved => exact .pure ()
  | closed => exact .pure ()
  | reserved base =>
      refine .bind (.update _) fun _ => ?_
      refine .bind (VirtualMemory.release_erases base r.total).attempt fun answer => ?_
      cases answer with
      | ok u => exact .pure ()
      | error e => exact .emit _

theorem orAbandon_erases {change : Act ArenaError Region Unit} (h : Act.Erases change) :
    Act.Erases (orAbandon change) := by
  refine .bind h.attempt fun answer => ?_
  cases answer with
  | ok u => exact .pure ()
  | error e => exact .bind abandon_erases fun _ => .of_still fun _ => rfl

theorem checkpoint_erases : Act.Erases checkpoint := by
  refine .bind obtainBase_erases fun _ => .self_bind fun r => ?_
  exact .bind (.update _) fun _ => .pure _

theorem commitTo_erases (base stop : Nat) : Act.Erases (commitTo base stop) := by
  refine .self_bind fun r => .bind (.settle _) fun whole => .bind (.settle _) fun length => ?_
  refine .bind (orAbandon_erases (VirtualMemory.commit_erases _ _)) fun _ => ?_
  exact .bind (.emit _) fun _ => .update _

theorem cut_erases (base size align : Nat) : Act.Erases (cut base size align) := by
  refine .self_bind fun r => .bind (.settle _) fun here => .bind (.settle _) fun address => ?_
  refine .bind (.settle _) fun start => .bind (.settle _) fun stop => ?_
  by_cases hunfit : r.total < stop
  · simp only [if_pos hunfit]
    exact .raise _
  · simp only [if_neg hunfit]
    by_cases hzero : size = 0
    · simp only [if_pos hzero]
      exact .pure _
    · simp only [if_neg hzero]
      have advance : Act.Erases (do
          Act.update fun r : Region => { r with cursor := stop }
          return ⟨base + start, size⟩ : Act ArenaError Region Span) :=
        .bind (.update _) fun _ => .pure _
      by_cases hpast : r.committed < stop
      · simp only [if_pos hpast]
        exact .bind (commitTo_erases base stop) fun _ => advance
      · simp only [if_neg hpast]
        exact advance

theorem slice_erases (size align : Nat) : Act.Erases (slice size align) := by
  refine .bind (.settle _) fun _ => .bind obtainBase_erases fun base => ?_
  exact cut_erases base size align

theorem currentBase_erases : Act.Erases currentBase := by
  refine .self_bind fun r => ?_
  cases r.phase with
  | reserved base => exact .pure base
  | closed => exact .raise _
  | unreserved => exact .raise _

theorem trim_erases : Act.Erases trim := by
  refine .self_bind fun r => .bind (.settle _) fun threshold => .bind (.settle _) fun idle => ?_
  refine .bind .now fun time => ?_
  by_cases hkept : idle ≤ threshold ∨ time - r.lastTrim < r.tuning.cooldown.nanoseconds
  · simp only [if_pos hkept]
    exact .pure ()
  · simp only [if_neg hkept]
    refine .bind (.settle _) fun length => .bind (.settle _) fun boundary => ?_
    refine .bind currentBase_erases fun base => ?_
    refine .bind (orAbandon_erases (VirtualMemory.uncommit_erases _ _)) fun _ => ?_
    exact .bind (.emit _) fun _ => .bind .now fun _ => .update _

theorem rollback_erases (handle : Handle) : Act.Erases (rollback handle) := by
  refine .bind currentBase_erases fun _ => .self_bind fun r => ?_
  cases r.saved with
  | nil => exact .raise _
  | cons cursor older =>
      by_cases hnewest : r.depth = handle.index + 1
      · simp only [if_pos hnewest]
        refine .bind (.update _) fun _ => .bind (.emit _) fun _ => ?_
        exact .bind (.update _) fun _ => trim_erases
      · simp only [if_neg hnewest]
        exact .raise _

theorem close_erases : Act.Erases close := by
  refine .self_bind fun r => .bind (.update _) fun _ => ?_
  cases r.phase with
  | closed => exact .raise _
  | unreserved => exact .pure ()
  | reserved base =>
      refine .bind (.update _) fun _ => .bind (.emit _) fun _ => ?_
      exact VirtualMemory.release_erases base r.total

theorem discard_erases : Act.Erases discard := by
  refine .self_bind fun r => ?_
  cases r.phase with
  | unreserved => exact .pure ()
  | closed => exact .pure ()
  | reserved base =>
      refine .bind (.emit _) fun _ => .bind close_erases.attempt fun answer => ?_
      cases answer with
      | ok u => exact .pure ()
      | error e => exact .emit _

theorem act_erases (request : Request) : Act.Erases request.act := by
  cases request with
  | slice size align => exact .bind (slice_erases size align) fun _ => .pure _
  | checkpoint => exact .bind checkpoint_erases fun _ => .pure _
  | rollback handle => exact .bind (rollback_erases handle) fun _ => .pure _
  | close => exact .bind close_erases fun _ => .pure _

/-! ### Where it is that bytes are erased -/

variable {r r' : Region} {clock base : Nat} {made : List Record}

/-- The region keeps its base, and no call erased a byte below the cursor. -/
structure ErasesAbove (base : Nat) (r' : Region) (made : List Record) : Prop where
  phase : r'.phase = .reserved base
  above : ∀ record ∈ made, ∀ a ∈ record.erased, base + r'.cursor ≤ a

/-- A region that holds its base makes no call for it. -/
theorem Obtains.of_reserved {answer : Except ArenaError Nat} (hp : r.phase = .reserved base)
    (h : Obtains r clock answer r' made) : r' = r ∧ made = [] := by
  cases h with
  | held phase => exact ⟨rfl, rfl⟩
  | closed phase => exact Phase.noConfusion (hp.symm.trans phase)
  | unreserved phase reserves => exact Phase.noConfusion (hp.symm.trans phase)
  | unaddressable phase h => exact Phase.noConfusion (hp.symm.trans phase)
  | fresh phase pos h => exact Phase.noConfusion (hp.symm.trans phase)

theorem Cuts.erasesAbove {size align : Nat} {answer : Except ArenaError Span}
    (hp : r.phase = .reserved base) (h : Cuts size align base r answer r' made)
    (hopen : r'.phase ≠ .closed) : ErasesAbove base r' made := by
  cases h with
  | unrounded h => exact ⟨hp, nofun⟩
  | oversized rounded h => exact ⟨hp, nofun⟩
  | unfit rounded h => exact ⟨hp, nofun⟩
  | empty rounded fits h => exact ⟨hp, nofun⟩
  | inside rounded pos h => exact ⟨hp, nofun⟩
  | grown rounded pos past fits grows =>
      cases grows with
      | grown h =>
          refine ⟨hp, ?_⟩
          intro record hrecord
          obtain rfl := List.mem_singleton.mp hrecord
          exact nofun
  | ungrown rounded pos past fits grows =>
      cases grows with
      | unrounded h => exact ⟨hp, nofun⟩
      | lost h => exact absurd rfl hopen

theorem Slices.erasesAbove {size align : Nat} {answer : Except ArenaError Span}
    (hp : r.phase = .reserved base) (h : Slices size align r clock answer r' made)
    (hopen : r'.phase ≠ .closed) : ErasesAbove base r' made := by
  cases h with
  | misaligned h => exact ⟨hp, nofun⟩
  | unobtained aligned obtains =>
      obtain ⟨rfl, rfl⟩ := obtains.of_reserved hp
      exact ⟨hp, nofun⟩
  | obtained aligned obtains cuts =>
      obtain ⟨rfl, rfl⟩ := obtains.of_reserved hp
      obtain rfl := Phase.reserved.inj (obtains.phase_of_ok.symm.trans hp)
      exact cuts.erasesAbove hp hopen

theorem Checkpoints.erasesAbove {answer : Except ArenaError Handle}
    (hp : r.phase = .reserved base) (h : Checkpoints r clock answer r' made) :
    ErasesAbove base r' made := by
  cases h with
  | unobtained obtains =>
      obtain ⟨rfl, rfl⟩ := obtains.of_reserved hp
      exact ⟨hp, nofun⟩
  | pushed obtains =>
      obtain ⟨rfl, rfl⟩ := obtains.of_reserved hp
      exact ⟨hp, nofun⟩

/-- What is given back lies above the cursor: no more is ever given back than lies idle. -/
theorem Trims.erasesAbove {answer : Except ArenaError Unit} (ok : Sound r)
    (hp : r.phase = .reserved base) (h : Trims r clock base answer r' made)
    (hopen : r'.phase ≠ .closed) : ErasesAbove base r' made := by
  cases h with
  | unmeasured h => exact ⟨hp, nofun⟩
  | kept fits h => exact ⟨hp, nofun⟩
  | lost fits due uncommits => exact absurd rfl hopen
  | trimmed fits due =>
      refine ⟨hp, ?_⟩
      have hlow := ok.cursor_lt_of_due due
      intro record hrecord a ha
      rcases List.mem_cons.mp hrecord with rfl | hrecord
      · exact ha.elim
      · obtain rfl := List.mem_singleton.mp hrecord
        have hstart : base + (r.committed - r.batchBytes) ≤ a := ha.1
        show base + r.cursor ≤ a
        omega

theorem RollsBack.erasesAbove {handle : Handle} {answer : Except ArenaError Unit} (ok : Sound r)
    (hp : r.phase = .reserved base) (h : RollsBack handle r clock answer r' made)
    (hopen : r'.phase ≠ .closed) : ErasesAbove base r' made := by
  cases h with
  | unreserved h => exact absurd hp (h base)
  | stale phase h => exact ⟨hp, nofun⟩
  | popped phase saved newest trims =>
      obtain rfl := Phase.reserved.inj (phase.symm.trans hp)
      exact trims.erasesAbove (ok.popped saved) phase hopen

/-- **One request** that finds the region with its base, and leaves it open, erases nothing
below the cursor. -/
theorem Meets.erasesAbove {request : Request} {answer : Except ArenaError Reply} (ok : Sound r)
    (hp : r.phase = .reserved base) (h : Meets r clock request answer r' made)
    (hopen : r'.phase ≠ .closed) : ErasesAbove base r' made := by
  cases h with
  | slice h => exact h.erasesAbove hp hopen
  | checkpoint h => exact h.erasesAbove hp
  | rollback h => exact h.erasesAbove ok hp hopen
  | close h => exact absurd h.closed hopen

end Region

end PageArena
