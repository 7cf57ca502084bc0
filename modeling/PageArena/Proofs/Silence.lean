/-
Acts that make no call for address space.

Most of what the library does makes no such call: asking the host, taking raw memory and
giving it back, keeping a batch.  `Along` says that an act leads from every world to one that
is related to it, and a `Frame` is a relation that steps add up to, so that an act stays
within a frame if each of its steps does.  Two frames are used here.  `Still` worlds have the
same object and the same calls, and `Silent` ones the same calls.

What is asked of the host and of the raw memory stays within more than these.  A `Tone` is a
relation that such acts cannot leave, because it is indifferent to whatever they touch; each of
them is gone through once, for all tones.
-/
import Mathlib
import PageArena.Allocator.BatchHeap
import PageArena.Host.Inquiry

namespace PageArena

namespace Act

variable {ε ε' σ α β : Type} {R : World σ → World σ → Prop}

/-- An act leads from every world to one that is related to it. -/
def Along (R : World σ → World σ → Prop) (act : Act ε σ α) : Prop :=
  ∀ w, R w (act.run w).2

/-- Neither the object nor the calls have changed. -/
def Still (w w' : World σ) : Prop :=
  w'.kernel.calls = w.kernel.calls ∧ w'.self = w.self

/-- No call was made. -/
def Silent (w w' : World σ) : Prop := w'.kernel.calls = w.kernel.calls

/-- A relation of worlds that steps add up to. -/
structure Frame (R : World σ → World σ → Prop) : Prop where
  of_still : ∀ {w w'}, Still w w' → R w w'
  trans : ∀ {w w₁ w'}, R w w₁ → R w₁ w' → R w w'

theorem frame_still : Frame (Still (σ := σ)) where
  of_still h := h
  trans h h' := ⟨h'.1.trans h.1, h'.2.trans h.2⟩

theorem frame_silent : Frame (Silent (σ := σ)) where
  of_still h := h.1
  trans h h' := h'.trans h

theorem Along.bind_of_trans (trans : ∀ w w₁ w', R w w₁ → R w₁ w' → R w w')
    {first : Act ε σ α} {next : α → Act ε σ β} (hfirst : Along R first)
    (hnext : ∀ a, Along R (next a)) : Along R (first >>= next) := by
  intro w
  have h := hfirst w
  rw [run_bind]
  rcases hrun : first.run w with ⟨e | a, w₁⟩
  · rw [hrun] at h
    exact h
  · rw [hrun] at h
    exact trans w w₁ _ h (hnext a w₁)

theorem Along.bind (frame : Frame R) {first : Act ε σ α} {next : α → Act ε σ β}
    (hfirst : Along R first) (hnext : ∀ a, Along R (next a)) : Along R (first >>= next) :=
  .bind_of_trans (R := R) (fun _ _ _ => frame.trans) hfirst hnext

/-- An act that leaves everything alone stays within every frame. -/
theorem Along.of_still (frame : Frame R) {act : Act ε σ α} (h : Along Still act) :
    Along R act :=
  fun w => frame.of_still (h w)

theorem still_pure (a : α) : Along Still (pure a : Act ε σ α) := fun _ => ⟨rfl, rfl⟩

theorem still_fail (e : ε) : Along Still (fail e : Act ε σ α) := fun _ => ⟨rfl, rfl⟩

theorem still_raise (e : ArenaError) : Along Still (raise e : Act ArenaError σ α) :=
  fun _ => ⟨rfl, rfl⟩

theorem still_settle (result : Except ArenaError α) : Along Still (settle result (σ := σ)) := by
  cases result with
  | ok a => exact still_pure a
  | error e => exact still_raise e

theorem still_emit (event : Event) : Along Still (emit event : Act ε σ Unit) :=
  fun _ => ⟨rfl, rfl⟩

theorem still_world : Along Still (world : Act ε σ _) := fun _ => ⟨rfl, rfl⟩

theorem still_self : Along Still (self : Act ε σ σ) := fun _ => ⟨rfl, rfl⟩

theorem still_heap (call : RawHeap → α × RawHeap) : Along Still (heap call : Act ε σ α) :=
  fun _ => ⟨rfl, rfl⟩

theorem still_observer (call : Observer → α × Observer) :
    Along Still (observer call : Act ε σ α) := fun _ => ⟨rfl, rfl⟩

theorem still_learn (change : HostRecord → HostRecord) :
    Along Still (learn change : Act ε σ Unit) := fun _ => ⟨rfl, rfl⟩

/-- What is asked of the system without a call for address space. -/
theorem still_kernel {call : Kernel → α × Kernel} (h : ∀ k, (call k).2.calls = k.calls) :
    Along Still (kernel call : Act ε σ α) := fun w => ⟨h w.kernel, rfl⟩

theorem silent_update (change : σ → σ) : Along Silent (update change : Act ε σ Unit) :=
  fun _ => rfl

/-- A relation of worlds that is indifferent to all but the object, the calls, the reports and
what is known of the backend, and to every report that is no error. -/
structure Tone (R : World σ → World σ → Prop) : Prop where
  plain : ∀ {w w'}, w'.kernel.calls = w.kernel.calls → w'.self = w.self → w'.log = w.log →
    w'.host.backend = w.host.backend → R w w'
  report : ∀ w event, event.level ≠ .error → R w { w with log := w.log ++ [event] }
  trans : ∀ {w w₁ w'}, R w w₁ → R w₁ w' → R w w'

theorem tone_still : Tone (Still (σ := σ)) where
  plain calls self _ _ := ⟨calls, self⟩
  report _ _ _ := ⟨rfl, rfl⟩
  trans := frame_still.trans

namespace Tone

variable (tone : Tone R)

include tone

theorem pure (a : α) : Along R (Pure.pure a : Act ε σ α) := fun _ => tone.plain rfl rfl rfl rfl

theorem fail (e : ε) : Along R (Act.fail e : Act ε σ α) := fun _ => tone.plain rfl rfl rfl rfl

theorem world : Along R (Act.world : Act ε σ _) := fun _ => tone.plain rfl rfl rfl rfl

theorem heap (call : RawHeap → α × RawHeap) : Along R (Act.heap call : Act ε σ α) :=
  fun _ => tone.plain rfl rfl rfl rfl

theorem observer (call : Observer → α × Observer) : Along R (Act.observer call : Act ε σ α) :=
  fun _ => tone.plain rfl rfl rfl rfl

theorem emit {event : Event} (h : event.level ≠ .error) :
    Along R (Act.emit event : Act ε σ Unit) := fun w => tone.report w event h

theorem bind {first : Act ε σ α} {next : α → Act ε σ β} (hfirst : Along R first)
    (hnext : ∀ a, Along R (next a)) : Along R (first >>= next) :=
  .bind_of_trans (R := R) (fun _ _ _ => tone.trans) hfirst hnext

end Tone

end Act

open Act

namespace Host

variable {σ : Type} {R : World σ → World σ → Prop}

theorem along_measure (tone : Tone R) : Along R measure := by
  refine tone.bind (fun _ => tone.plain rfl rfl rfl rfl) fun reported => ?_
  refine iteInduction (motive := Along R) (fun _ => ?_) fun _ => ?_
  · exact tone.bind tone.world fun w => tone.fail _
  · cases Geometry.ofPageSize reported with
    | ok geometry => exact tone.pure geometry
    | error e => exact tone.fail e

theorem along_learnGeometry (tone : Tone R) : Along R learnGeometry := by
  refine tone.bind (along_measure tone) fun answer => ?_
  refine tone.bind (fun _ => tone.plain rfl rfl rfl rfl) fun _ => ?_
  cases answer with
  | ok geometry => exact tone.pure geometry
  | error e => exact tone.bind (tone.emit nofun) fun _ => tone.fail e

theorem along_geometry (tone : Tone R) : Along R geometry := by
  refine tone.bind tone.world fun w => ?_
  rcases w.host.geometry with _ | e | geometry
  · exact along_learnGeometry tone
  · exact tone.fail e
  · exact tone.pure geometry

theorem along_pageSize? (tone : Tone R) : Along R pageSize? :=
  tone.bind (along_geometry tone) fun _ => tone.pure _

theorem along_granularity? (tone : Tone R) : Along R granularity? :=
  tone.bind (along_geometry tone) fun _ => tone.pure _

theorem along_pageSize (tone : Tone R) : Along R pageSize := by
  refine tone.bind (along_pageSize? tone) fun answer => ?_
  cases answer with
  | ok size => exact tone.pure size
  | error e => exact tone.pure _

theorem along_granularity (tone : Tone R) : Along R granularity := by
  refine tone.bind (along_granularity? tone) fun answer => ?_
  cases answer with
  | ok size => exact tone.pure size
  | error e => exact tone.pure _

theorem along_posixBackend (tone : Tone R) : Along R posixBackend :=
  tone.bind (along_pageSize tone) fun _ => tone.bind (along_granularity tone) fun _ =>
    tone.pure _

theorem along_chooseBackend (tone : Tone R) : Along R chooseBackend := by
  unfold chooseBackend
  cases OsFamily.running with
  | error e => exact tone.fail _
  | ok os =>
      refine tone.bind (along_pageSize? tone) fun _ => ?_
      refine tone.bind (along_granularity? tone) fun _ => ?_
      refine iteInduction (motive := Along R) (fun _ => ?_) fun _ => tone.fail _
      refine tone.bind (along_posixBackend tone) fun backend => ?_
      exact tone.bind (tone.emit nofun) fun _ => tone.pure backend

theorem still_current : Along Still (current (σ := σ)) := by
  refine .bind frame_still still_world fun w => ?_
  rcases w.host.backend with _ | e | backend
  · refine .bind frame_still (along_chooseBackend tone_still) fun answer => ?_
    refine .bind frame_still (still_learn _) fun _ => ?_
    cases answer with
    | ok backend => exact still_pure backend
    | error e => exact still_fail e
  · exact still_fail e
  · exact still_pure backend

theorem still_init : Along Still (init (σ := σ)) :=
  .bind frame_still still_current fun backend => .bind frame_still (still_emit _) fun _ =>
    still_pure backend

end Host

namespace RawSource

variable {ε σ : Type} {R : World σ → World σ → Prop}

theorem along_granted (tone : Tone R) (size align : Nat) (start : Option Nat) :
    Along R (granted size align start) := by
  cases start with
  | some address => exact tone.pure address
  | none => exact tone.fail _

theorem FromHeap.along_allocate (tone : Tone R) (size : Nat) :
    Along R (FromHeap.allocate size) :=
  tone.bind (tone.heap _) fun _ => along_granted tone _ _ _

/-- A bad alignment is reported as an error, and this is the one report here that is. -/
def Bears (R : World σ → World σ → Prop) (align : Nat) : Prop :=
  Word.isPowerOfTwo align = false →
    ∀ w : World σ, R w { w with log := w.log ++ [.alignmentRejected align] }

theorem FromHeap.along_allocateAligned (tone : Tone R) {align : Nat} (bears : Bears R align)
    (size : Nat) : Along R (FromHeap.allocateAligned size align) := by
  unfold FromHeap.allocateAligned
  cases haligned : Word.isPowerOfTwo align with
  | true => exact tone.bind (tone.heap _) fun _ => along_granted tone _ _ _
  | false => exact tone.bind (bears haligned) fun _ => tone.fail _

theorem FromObserver.along_watch (tone : Tone R) (align : Nat)
    (call : Except HostError Nat → Observer.Call) {request : Act HostError σ Nat}
    (h : Along R request) : Along R (FromObserver.watch align call request) := by
  have granted : ∀ address, Along R (do
      let id ← Act.observer (Observer.enrol · address)
      Act.observer fun o => ((), o.record (call (.ok id)))
      return address : Act HostError σ Nat) := fun address =>
    tone.bind (tone.observer _) fun _ => tone.bind (tone.observer _) fun _ => tone.pure address
  have denied : ∀ error, Along R (do
      Act.observer fun o => ((), o.record (call (.error error)))
      Act.fail error : Act HostError σ Nat) := fun error =>
    tone.bind (tone.observer _) fun _ => tone.fail error
  refine tone.bind (tone.observer _) fun verdict => ?_
  cases verdict with
  | some e => exact tone.bind (tone.pure _) (Except.rec denied granted)
  | none =>
      have attempted : Along R (attempt request : Act HostError σ (Except HostError Nat)) := h
      exact tone.bind attempted (Except.rec denied granted)

theorem along_allocate (tone : Tone R) {align : Nat} (bears : Bears R align)
    (source : RawSource) (size : Nat) : Along R (source.allocate size align) := by
  have ends : ∀ address, Along R
      (Pure.pure ⟨address, Primitive.forAlignment align⟩ : Act HostError σ Allocation) :=
    fun address => tone.pure _
  unfold allocate
  cases source with
  | heap =>
      cases Primitive.forAlignment align with
      | plain => exact tone.bind (FromHeap.along_allocate tone size) ends
      | aligned => exact tone.bind (FromHeap.along_allocateAligned tone bears size) ends
  | observer =>
      cases Primitive.forAlignment align with
      | plain =>
          have watched := FromObserver.along_watch tone Primitive.naturalAlign (.allocate size)
            (FromHeap.along_allocate tone size)
          exact tone.bind watched ends
      | aligned =>
          have watched := FromObserver.along_watch tone align (.allocateAligned size align)
            (FromHeap.along_allocateAligned tone bears size)
          exact tone.bind watched ends

theorem along_release (tone : Tone R) (source : RawSource) (a : Allocation) :
    Along R (source.release a : Act ε σ Unit) := by
  cases source with
  | heap => exact fun _ => tone.plain rfl rfl rfl rfl
  | observer => exact tone.bind (tone.observer _) fun _ _ => tone.plain rfl rfl rfl rfl

theorem along_releaseAll (tone : Tone R) (source : RawSource) (entries : List Allocation) :
    Along R (source.releaseAll entries : Act ε σ Unit) := by
  induction entries with
  | nil => exact tone.pure ()
  | cons a rest ih => exact tone.bind (along_release tone source a) fun _ => ih

theorem along_releaseBatch (tone : Tone R) (source : RawSource) (entries : List Allocation) :
    Along R (source.releaseBatch entries : Act ε σ Unit) := by
  cases source with
  | heap => exact along_releaseAll tone .heap entries
  | observer =>
      exact tone.bind (tone.observer _) fun _ => along_releaseAll tone .observer entries

end RawSource

namespace BatchHeap

theorem silent_allocate (size align : Nat) : Along Silent (allocate size align) := by
  refine .bind frame_silent (.of_still frame_silent (still_settle _)) fun _ => ?_
  refine .bind frame_silent (.of_still frame_silent still_self) fun heap => ?_
  by_cases hclosed : heap.closed = true
  · simp only [if_pos hclosed]
    exact .of_still frame_silent (still_raise _)
  · simp only [if_neg hclosed]
    have allocates : Along Still (heap.source.allocate size align (σ := BatchHeap)) :=
      RawSource.along_allocate tone_still (fun _ _ => ⟨rfl, rfl⟩) heap.source size
    refine .bind frame_silent (.of_still frame_silent allocates) fun answer => ?_
    split
    · refine .bind frame_silent (.of_still frame_silent (still_emit _)) fun _ => ?_
      refine .bind frame_silent (silent_update _) fun _ => ?_
      exact .of_still frame_silent (still_pure _)
    · exact .of_still frame_silent (still_raise _)
    · exact .of_still frame_silent (still_fail _)

theorem silent_allocateZeroed (size align : Nat) : Along Silent (allocateZeroed size align) := by
  refine .bind frame_silent (silent_allocate size align) fun span => ?_
  refine .bind frame_silent (.of_still frame_silent (still_heap _)) fun _ => ?_
  exact .of_still frame_silent (still_pure span)

theorem silent_close : Along Silent close := by
  refine .bind frame_silent (.of_still frame_silent still_self) fun heap => ?_
  by_cases hclosed : heap.closed = true
  · simp only [if_pos hclosed]
    exact .of_still frame_silent (still_raise _)
  · simp only [if_neg hclosed]
    refine .bind frame_silent (silent_update _) fun _ => .of_still frame_silent ?_
    by_cases hempty : heap.entries = []
    · simp only [if_pos hempty]
      exact still_pure ()
    · simp only [if_neg hempty]
      exact RawSource.along_releaseBatch tone_still heap.source heap.entries

theorem silent_discard : Along Silent discard := by
  refine .bind frame_silent (.of_still frame_silent still_self) fun heap => ?_
  by_cases hclosed : heap.closed = true
  · simp only [if_pos hclosed]
    exact .of_still frame_silent (still_pure ())
  · simp only [if_neg hclosed]
    have ends : Along Silent (do
        let _ ← attempt close
        return () : Act Empty BatchHeap Unit) :=
      .bind frame_silent silent_close fun _ => .of_still frame_silent (still_pure ())
    by_cases hempty : heap.entries ≠ []
    · simp only [if_pos hempty]
      exact .bind frame_silent (.of_still frame_silent (still_emit _)) fun _ => ends
    · simp only [if_neg hempty]
      exact ends

end BatchHeap

end PageArena
