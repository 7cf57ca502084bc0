/-
What closes a region.

A region is closed when that is asked for, and when a change of its pages fails.  There is
nothing else: on a machine where no failure is in waiting, taking memory, putting the cursor
by and bringing it back leave an open region open.

`KeepsOpen` says this of an act.  It is about the worlds before and after, so acts that
follow each other keep a region open if each does, and only the changes of pages themselves
have to be looked at.
-/
import Mathlib
import PageArena.Region.Operations

namespace PageArena

namespace Act

variable {ε ε' σ α β : Type} {region : σ → Region}

/-- An act that leaves an open region open, and no failure in waiting, if none is. -/
def KeepsOpen (region : σ → Region) (act : Act ε σ α) : Prop :=
  ∀ w : World σ, w.kernel.failures = [] → (region w.self).phase ≠ .closed →
    (act.run w).2.kernel.failures = [] ∧ (region (act.run w).2.self).phase ≠ .closed

namespace KeepsOpen

/-- An act that leaves both the system and the object alone. -/
theorem of_still {act : Act ε σ α}
    (h : ∀ w, (act.run w).2.kernel = w.kernel ∧ (act.run w).2.self = w.self) :
    KeepsOpen region act := by
  intro w calm hopen
  obtain ⟨hkernel, hself⟩ := h w
  rw [hkernel, hself]
  exact ⟨calm, hopen⟩

theorem pure (a : α) : KeepsOpen region (Pure.pure a : Act ε σ α) :=
  of_still fun _ => ⟨rfl, rfl⟩

theorem raise (e : ArenaError) : KeepsOpen region (Act.raise e : Act ArenaError σ α) :=
  of_still fun _ => ⟨rfl, rfl⟩

theorem settle (result : Except ArenaError α) : KeepsOpen region (Act.settle result) := by
  cases result with
  | ok a => exact pure a
  | error e => exact raise e

theorem emit (event : Event) : KeepsOpen region (Act.emit event : Act ε σ Unit) :=
  of_still fun _ => ⟨rfl, rfl⟩

theorem update {change : σ → σ}
    (h : ∀ s, (region s).phase ≠ .closed → (region (change s)).phase ≠ .closed) :
    KeepsOpen region (Act.update change : Act ε σ Unit) :=
  fun w calm hopen => ⟨calm, h w.self hopen⟩

theorem bind {first : Act ε σ α} {next : α → Act ε σ β} (hfirst : KeepsOpen region first)
    (hnext : ∀ a, KeepsOpen region (next a)) : KeepsOpen region (first >>= next) := by
  intro w calm hopen
  obtain ⟨calm₁, hopen₁⟩ := hfirst w calm hopen
  rw [Act.run_bind]
  rcases hrun : first.run w with ⟨e | a, w₁⟩
  · rw [hrun] at calm₁ hopen₁
    exact ⟨calm₁, hopen₁⟩
  · rw [hrun] at calm₁ hopen₁
    exact hnext a w₁ calm₁ hopen₁

/-- What is done next may depend on the object. -/
theorem self_bind {next : σ → Act ε σ β} (h : ∀ s, KeepsOpen region (next s)) :
    KeepsOpen region (Act.self >>= next) :=
  bind (of_still fun _ => ⟨rfl, rfl⟩) h

theorem attempt {act : Act ε σ α} (h : KeepsOpen region act) :
    KeepsOpen region (Act.attempt act : Act ε' σ (Except ε α)) := h

end KeepsOpen

end Act

namespace Kernel

variable {k : Kernel}

/-- Where no failure is in waiting every call passes. -/
theorem judge_of_calm (calm : k.failures = []) (call : OsCall) : k.judge call = (none, k) := by
  cases k
  dsimp only at calm
  subst calm
  rfl

theorem mprotect_of_calm (calm : k.failures = []) (address length : Nat)
    (protection : OsCall.Protection) :
    k.mprotect address length protection
      = (true, k.record (.mprotect address length protection 0)) := by
  simp only [mprotect, judge_of_calm calm]

/-- Giving up contents succeeds as well, and leaves no failure in waiting. -/
theorem madvise_of_calm (calm : k.failures = []) (address length : Nat) :
    (k.madvise address length).1 = true ∧ (k.madvise address length).2.failures = [] := by
  simp only [madvise, judge_of_calm calm]
  exact ⟨trivial, calm⟩

/-- Choosing a place has to do with no failure. -/
theorem failures_place (k : Kernel) (length : Nat) :
    (k.place length).2.failures = k.failures := by
  unfold place
  split
  · rfl
  · split
    · rfl
    · rfl

/-- A mapping leaves no failure in waiting, whether it is made or not. -/
theorem failures_mmap_of_calm (calm : k.failures = []) (length : Nat) :
    (k.mmap length).2.failures = [] := by
  simp only [mmap, judge_of_calm calm]
  have hplaced := failures_place k length
  generalize k.place length = placed at hplaced ⊢
  obtain ⟨_ | base, k'⟩ := placed
  · exact hplaced.trans calm
  · exact hplaced.trans calm

end Kernel

namespace VirtualMemory

variable {σ : Type}

/-- A change of pages that is made, and by which no failure comes to be in waiting. -/
def Passes (change : Act ArenaError σ Unit) : Prop :=
  ∀ w, w.kernel.failures = [] → (change.run w).1 = .ok () ∧
    (change.run w).2.kernel.failures = [] ∧ (change.run w).2.self = w.self

theorem commit_passes (address length : Nat) : Passes (commit address length (σ := σ)) := by
  intro w calm
  simp only [commit, Act.run_bind, Act.run_kernel, Kernel.mprotect_of_calm calm, if_true,
    Act.run_pure]
  exact ⟨trivial, calm, trivial⟩

theorem uncommit_passes (address length : Nat) : Passes (uncommit address length (σ := σ)) := by
  intro w calm
  have calm₁ : (w.kernel.record (.mprotect address length .noAccess 0)).failures = [] := calm
  obtain ⟨hpassed, calm₂⟩ := Kernel.madvise_of_calm calm₁ address length
  simp only [uncommit, Act.run_bind, Act.run_kernel, Kernel.mprotect_of_calm calm, if_true,
    hpassed, Act.run_pure]
  exact ⟨trivial, calm₂, trivial⟩

theorem reserve_keepsOpen (size : Nat) (region : σ → Region) :
    Act.KeepsOpen region (reserve size) := by
  refine .bind ?_ ?_
  · intro w calm hopen
    exact ⟨Kernel.failures_mmap_of_calm calm size, hopen⟩
  · intro place
    cases place with
    | none => exact .of_still fun _ => ⟨rfl, rfl⟩
    | some base =>
        by_cases hzero : base = 0
        · simp only [if_pos hzero]
          exact .raise _
        · simp only [if_neg hzero]
          exact .pure _

end VirtualMemory

namespace Region

/-- A change of pages that is made closes nothing. -/
theorem orAbandon_keepsOpen {change : Act ArenaError Region Unit}
    (passes : VirtualMemory.Passes change) : Act.KeepsOpen id (orAbandon change) := by
  intro w calm hopen
  obtain ⟨hok, calm', hself⟩ := passes w calm
  unfold orAbandon
  rw [Act.run_bind, Act.run_attempt, hok]
  refine ⟨calm', ?_⟩
  show (change.run w).2.self.phase ≠ .closed
  rw [hself]
  exact hopen

theorem obtainBase_keepsOpen : Act.KeepsOpen id obtainBase := by
  refine .self_bind fun r => ?_
  cases r.phase with
  | reserved base => exact .pure base
  | closed => exact .raise _
  | unreserved =>
      refine .self_bind fun r => .bind (VirtualMemory.reserve_keepsOpen _ _) fun base => ?_
      refine .bind (.settle _) fun _ => .bind (.of_still fun _ => ⟨rfl, rfl⟩) fun time => ?_
      refine .bind (.update ?_) fun _ => .bind (.emit _) fun _ => .pure base
      intro s _ hclosed
      cases hclosed

theorem checkpoint_keepsOpen : Act.KeepsOpen id checkpoint := by
  refine .bind obtainBase_keepsOpen fun _ => .self_bind fun r => ?_
  exact .bind (.update fun _ => id) fun _ => .pure _

theorem commitTo_keepsOpen (base stop : Nat) : Act.KeepsOpen id (commitTo base stop) := by
  refine .self_bind fun r => .bind (.settle _) fun whole => .bind (.settle _) fun length => ?_
  refine .bind (orAbandon_keepsOpen (VirtualMemory.commit_passes _ _)) fun _ => ?_
  exact .bind (.emit _) fun _ => .update fun _ => id

theorem cut_keepsOpen (base size align : Nat) : Act.KeepsOpen id (cut base size align) := by
  refine .self_bind fun r => .bind (.settle _) fun here => .bind (.settle _) fun address => ?_
  refine .bind (.settle _) fun start => .bind (.settle _) fun stop => ?_
  by_cases hunfit : r.total < stop
  · simp only [if_pos hunfit]
    exact .raise _
  · simp only [if_neg hunfit]
    by_cases hzero : size = 0
    · simp only [if_pos hzero]
      exact .pure _
    · simp only [if_neg hzero]
      have advance : Act.KeepsOpen id (do
          Act.update fun r : Region => { r with cursor := stop }
          return ⟨base + start, size⟩ : Act ArenaError Region Span) :=
        .bind (.update fun _ => id) fun _ => .pure _
      by_cases hpast : r.committed < stop
      · simp only [if_pos hpast]
        exact .bind (commitTo_keepsOpen base stop) fun _ => advance
      · simp only [if_neg hpast]
        exact advance

theorem slice_keepsOpen (size align : Nat) : Act.KeepsOpen id (slice size align) := by
  refine .bind (.settle _) fun _ => .bind obtainBase_keepsOpen fun base => ?_
  exact cut_keepsOpen base size align

theorem currentBase_keepsOpen : Act.KeepsOpen id currentBase := by
  refine .self_bind fun r => ?_
  cases r.phase with
  | reserved base => exact .pure base
  | closed => exact .raise _
  | unreserved => exact .raise _

theorem trim_keepsOpen : Act.KeepsOpen id trim := by
  refine .self_bind fun r => .bind (.settle _) fun threshold => .bind (.settle _) fun idle => ?_
  refine .bind (.of_still fun _ => ⟨rfl, rfl⟩) fun time => ?_
  by_cases hkept : idle ≤ threshold ∨ time - r.lastTrim < r.tuning.cooldown.nanoseconds
  · simp only [if_pos hkept]
    exact .pure ()
  · simp only [if_neg hkept]
    refine .bind (.settle _) fun length => .bind (.settle _) fun boundary => ?_
    refine .bind currentBase_keepsOpen fun base => ?_
    refine .bind (orAbandon_keepsOpen (VirtualMemory.uncommit_passes _ _)) fun _ => ?_
    refine .bind (.emit _) fun _ => .bind (.of_still fun _ => ⟨rfl, rfl⟩) fun _ => ?_
    exact .update fun _ => id

theorem rollback_keepsOpen (handle : Handle) : Act.KeepsOpen id (rollback handle) := by
  refine .bind currentBase_keepsOpen fun _ => .self_bind fun r => ?_
  cases r.saved with
  | nil => exact .raise _
  | cons cursor older =>
      by_cases hnewest : r.depth = handle.index + 1
      · simp only [if_pos hnewest]
        refine .bind (.update fun _ => id) fun _ => .bind (.emit _) fun _ => ?_
        exact .bind (.update fun _ => id) fun _ => trim_keepsOpen
      · simp only [if_neg hnewest]
        exact .raise _

end Region

end PageArena
