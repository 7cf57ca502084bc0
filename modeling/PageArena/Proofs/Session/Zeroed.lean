/-
Allocations that are set to zero.

To allocate zeros from a pool is to allocate, and then to set the span to zero.  So it is
answered as a plain allocation is, it leaves everything as that leaves it, and where that fails
it is the same: `Pool.allocateZeroed_eq`.  Only what memory holds tells the two apart.

What memory held before does not matter, so nothing has to be known of it.  It may be new, or
be left from pages that were taken away, or from spans that a rollback freed.  What has to be
known is that nobody else touches it.  Bytes that are taken from a region with a base change at
most the access to pages, and that is no matter of bytes (`Region.Abides`).  A first use makes a
mapping too, and the mapping is all that it fills (`Region.Maps`).  There is no third way:
`Pool.allocate_settles`.
-/
import Mathlib
import PageArena.Proofs.Region.Erasure
import PageArena.Proofs.Region.FirstUse
import PageArena.Proofs.Region.Outline
import PageArena.Proofs.Session.Release

namespace PageArena

open Act (Along)

/-! ### The system -/

namespace Kernel

variable {k : Kernel} {length base x : Nat}

theorem mprotect_memory (k : Kernel) (address length : Nat) (protection : OsCall.Protection) :
    (k.mprotect address length protection).2.memory = k.memory := by
  unfold mprotect
  split
  · rename_i errno k₁ h
    exact (judge_untouched h).2
  · rename_i k₁ h
    exact (judge_untouched h).2

theorem munmap_memory (k : Kernel) (address length : Nat) :
    (k.munmap address length).2.memory = k.memory := by
  unfold munmap
  split
  · rename_i errno k₁ h
    exact (judge_untouched h).2
  · rename_i k₁ h
    exact (judge_untouched h).2

/-- A call for a mapping fills a range with zeros or none.  The one that it fills is the mapping,
unless that was placed at the very address that stands for a failure. -/
theorem mmap_cases (k : Kernel) (length : Nat) :
    ((k.mmap length).1 = none ∧ (k.mmap length).2.memory = k.memory) ∨
      ∃ base, (k.mmap length).1 = (if base = noMapping then none else some base) ∧
        (k.mmap length).2.memory = k.memory.fill base length 0 := by
  unfold mmap
  split
  · rename_i errno k₁ h
    exact Or.inl ⟨rfl, (judge_untouched h).2⟩
  · rename_i k₁ h
    have judged := (judge_untouched h).2
    split
    · rename_i k₂ hplace
      exact Or.inl ⟨rfl, (place_untouched hplace).2.trans judged⟩
    · rename_i base k₂ hplace
      refine Or.inr ⟨base, rfl, ?_⟩
      show k₂.memory.fill base length 0 = _
      rw [(place_untouched hplace).2, judged]

theorem mmap_memory (h : (k.mmap length).1 = some base) :
    (k.mmap length).2.memory = k.memory.fill base length 0 := by
  obtain ⟨hnone, -⟩ | ⟨place, hplace, hfill⟩ := mmap_cases k length
  · rw [hnone] at h
    cases h
  · rw [hplace] at h
    split at h
    · cases h
    · obtain rfl := Option.some.inj h
      exact hfill

/-- A byte that no mapping covers is as it was, if its address is below the one that stands for a
failure. -/
theorem mmap_byteAt (low : x < noMapping)
    (apart : ∀ base, (k.mmap length).1 = some base → x ∉ OsCall.range base length) :
    (k.mmap length).2.memory.byteAt x = k.memory.byteAt x := by
  obtain ⟨-, hsame⟩ | ⟨base, hbase, hfill⟩ := mmap_cases k length
  · rw [hsame]
  · rw [hfill, Memory.fill_byteAt]
    refine if_neg fun hx => ?_
    split at hbase
    · omega
    · exact apart base hbase hx

end Kernel

/-! ### The region -/

namespace Region

variable {w w₁ w' : World Region} {ε α β : Type} {base x : Nat}

/-- No byte has changed, of the heap or of the system's memory, and a region that is reserved now
was reserved before. -/
structure Abides (w w' : World Region) : Prop where
  heap : w'.heap = w.heap
  memory : w'.kernel.memory = w.kernel.memory
  phase : ∀ base, w'.self.phase = .reserved base → w.self.phase = .reserved base

/-- A mapping was made for the first use of a region, and nothing else has changed a byte.  If the
region is reserved now, the mapping is its reservation. -/
structure Maps (w w' : World Region) : Prop where
  unused : w.self.phase = .unreserved
  heap : w'.heap = w.heap
  memory : w'.kernel.memory = (w.kernel.mmap w.self.total).2.memory
  mapping : ∀ base, w'.self.phase = .reserved base → w.self.mapping w.kernel = some base

/-- What taking memory from a region may do to memory. -/
def Settles (w w' : World Region) : Prop := Abides w w' ∨ Maps w w'

theorem Abides.refl (w : World Region) : Abides w w := ⟨rfl, rfl, fun _ => id⟩

theorem Abides.trans (first : Abides w w₁) (next : Abides w₁ w') : Abides w w' where
  heap := next.heap.trans first.heap
  memory := next.memory.trans first.memory
  phase base h := first.phase base (next.phase base h)

theorem Settles.abides (first : Settles w w₁) (next : Abides w₁ w') : Settles w w' := by
  rcases first with abides | maps
  · exact Or.inl (abides.trans next)
  · exact Or.inr
      { unused := maps.unused
        heap := next.heap.trans maps.heap
        memory := next.memory.trans maps.memory
        mapping := fun base h => maps.mapping base (next.phase base h) }

theorem Settles.abides_of_reserved (h : Settles w w') (hp : w.self.phase = .reserved base) :
    Abides w w' := by
  rcases h with abides | maps
  · exact abides
  · cases hp.symm.trans maps.unused

theorem Settles.heap (h : Settles w w') : w'.heap = w.heap := by
  rcases h with abides | maps
  · exact abides.heap
  · exact maps.heap

/-- Whatever the answer is, a byte is as it was unless a mapping was made over it. -/
theorem Settles.byteAt (h : Settles w w') (low : x < Kernel.noMapping)
    (apart : w.self.phase = .unreserved → ∀ place, w.self.mapping w.kernel = some place →
      x ∉ OsCall.range place w.self.total) :
    w'.kernel.memory.byteAt x = w.kernel.memory.byteAt x := by
  rcases h with abides | maps
  · rw [abides.memory]
  · rw [maps.memory]
    exact Kernel.mmap_byteAt low (apart maps.unused)

/-- Of a region that is reserved afterwards, the mapping can only be the reservation. -/
theorem Settles.byteAt_of_reserved (h : Settles w w') (hp : w'.self.phase = .reserved base)
    (apart : w.self.phase = .unreserved → x ∉ OsCall.range base w.self.total) :
    w'.kernel.memory.byteAt x = w.kernel.memory.byteAt x := by
  rcases h with abides | maps
  · rw [abides.memory]
  · rw [maps.memory, Kernel.mmap_memory (maps.mapping base hp), Memory.fill_byteAt]
    exact if_neg (apart maps.unused)

/-! #### Acts that change no byte -/

theorem abides_pure (a : α) : Along Abides (pure a : Act ε Region α) := fun w => .refl w

theorem abides_raise (e : ArenaError) : Along Abides (Act.raise e : Act ArenaError Region α) :=
  fun _ => ⟨rfl, rfl, fun _ => id⟩

theorem abides_settle (result : Except ArenaError α) : Along Abides (Act.settle result) := by
  cases result with
  | ok a => exact abides_pure a
  | error e => exact abides_raise e

theorem abides_emit (event : Event) : Along Abides (Act.emit event : Act ε Region Unit) :=
  fun _ => ⟨rfl, rfl, fun _ => id⟩

theorem abides_update {change : Region → Region}
    (h : ∀ r base, (change r).phase = .reserved base → r.phase = .reserved base) :
    Along Abides (Act.update change : Act ε Region Unit) := fun w => ⟨rfl, rfl, h w.self⟩

theorem abides_bind {first : Act ε Region α} {next : α → Act ε Region β}
    (hfirst : Along Abides first) (hnext : ∀ a, Along Abides (next a)) :
    Along Abides (first >>= next) :=
  .bind_of_trans (R := Abides) (fun _ _ _ => .trans) hfirst hnext

/-- What is done next may depend on the region. -/
theorem abides_self_bind {next : Region → Act ε Region α} (h : ∀ r, Along Abides (next r)) :
    Along Abides (Act.self >>= next) := abides_bind (fun w => .refl w) h

/-- A call to the system that is no matter of bytes. -/
theorem abides_call {call : Kernel → Bool × Kernel} {name : OsCall}
    (h : ∀ k, (call k).2.memory = k.memory) :
    Along Abides (do
      if ← Act.kernel call then return ()
      else Act.raiseErrno name : Act ArenaError Region Unit) := by
  refine abides_bind (fun w => ⟨rfl, h w.kernel, fun _ => id⟩) fun done => ?_
  cases done with
  | false => exact fun _ => ⟨rfl, rfl, fun _ => id⟩
  | true => exact abides_pure ()

theorem abides_abandon : Along Abides abandon := by
  refine abides_self_bind fun r => ?_
  refine abides_bind (abides_update fun _ _ => nofun) fun _ => ?_
  cases r.phase with
  | unreserved => exact abides_pure ()
  | closed => exact abides_pure ()
  | reserved base =>
      refine abides_bind (abides_update fun _ _ => id) fun _ => ?_
      have release : Along Abides (VirtualMemory.release base r.total) :=
        abides_call (Kernel.munmap_memory · base r.total)
      refine abides_bind (show Along Abides (Act.attempt _) from release) fun answer => ?_
      cases answer with
      | ok u => exact abides_pure ()
      | error e => exact abides_emit _

theorem abides_orAbandon {change : Act ArenaError Region Unit} (h : Along Abides change) :
    Along Abides (orAbandon change) := by
  refine abides_bind (show Along Abides (Act.attempt change) from h) fun answer => ?_
  cases answer with
  | ok u => exact abides_pure ()
  | error e => exact abides_bind abides_abandon fun _ w => .refl w

theorem abides_commitTo (base stop : Nat) : Along Abides (commitTo base stop) := by
  refine abides_self_bind fun r => abides_bind (abides_settle _) fun whole => ?_
  refine abides_bind (abides_settle _) fun length => ?_
  have commit : Along Abides (VirtualMemory.commit (base + r.committed) length) :=
    abides_call (Kernel.mprotect_memory · _ _ .readWrite)
  refine abides_bind (abides_orAbandon commit) fun _ => ?_
  exact abides_bind (abides_emit _) fun _ => abides_update fun _ _ => id

/-- **Bytes are taken without being touched** from a region that has its base. -/
theorem abides_cut (base size align : Nat) : Along Abides (cut base size align) := by
  refine abides_self_bind fun r => abides_bind (abides_settle _) fun here => ?_
  refine abides_bind (abides_settle _) fun address => abides_bind (abides_settle _) fun start => ?_
  refine abides_bind (abides_settle _) fun stop => ?_
  refine iteInduction (motive := Along Abides) (fun _ => abides_raise _) fun _ => ?_
  refine iteInduction (motive := Along Abides) (fun _ => abides_pure _) fun _ => ?_
  have advance : Along Abides (do
      Act.update fun r : Region => { r with cursor := stop }
      return ⟨base + start, size⟩ : Act ArenaError Region Span) :=
    abides_bind (abides_update fun _ _ => id) fun _ => abides_pure _
  by_cases hpast : r.committed < stop
  · simp only [if_pos hpast]
    exact abides_bind (abides_commitTo base stop) fun _ => advance
  · simp only [if_neg hpast]
    exact advance

/-! #### Acts that may be the first use -/

theorem settles_bind {first : Act ε Region α} {next : α → Act ε Region β}
    (hfirst : Along Settles first) (hnext : ∀ a, Along Abides (next a)) :
    Along Settles (first >>= next) := by
  intro w
  have h := hfirst w
  rw [Act.run_bind]
  rcases hrun : first.run w with ⟨e | a, w₁⟩
  · rw [hrun] at h
    exact h
  · rw [hrun] at h
    exact h.abides (hnext a w₁)

/-- What is done with the heap and with memory when address space is reserved. -/
theorem reserve_memory (size : Nat) (w : World Region) :
    ((VirtualMemory.reserve size).run w).2.heap = w.heap ∧
      ((VirtualMemory.reserve size).run w).2.kernel.memory = (w.kernel.mmap size).2.memory := by
  unfold VirtualMemory.reserve
  rw [Act.run_bind, Act.run_kernel]
  rcases w.kernel.mmap size with ⟨_ | base, k⟩
  · exact ⟨rfl, rfl⟩
  · by_cases hzero : base = 0
    · simp only [if_pos hzero]
      exact ⟨rfl, rfl⟩
    · simp only [if_neg hzero]
      exact ⟨rfl, rfl⟩

/-- A region that is reserved after its first use was given the mapping. -/
theorem mapping_of_obtained (hp : w.self.phase = .unreserved)
    (h : (obtainBase.run w).2.self.phase = .reserved base) :
    w.self.mapping w.kernel = some base := by
  rcases hrun : obtainBase.run w with ⟨answer, w'⟩
  obtain ⟨r', made, obtains, leads⟩ := obtainBase_obtains hrun
  rw [hrun] at h
  replace h : r'.phase = .reserved base := leads.self ▸ h
  cases answer with
  | error e =>
      obtain rfl := obtains.eq_of_error
      cases hp.symm.trans h
  | ok place =>
      obtain rfl := Phase.reserved.inj (obtains.phase_of_ok.symm.trans h)
      exact ((obtainBase_ok_iff hp).mp (by rw [hrun])).1

theorem obtainBase_settles : Along Settles obtainBase := by
  intro w
  cases hp : w.self.phase with
  | reserved base =>
      have hrun : obtainBase.run w = (.ok base, w) := by
        simp only [obtainBase, Act.run_bind, Act.run_self, hp, Act.run_pure]
      rw [hrun]
      exact Or.inl (.refl w)
  | closed =>
      have hrun : obtainBase.run w
          = (Act.raise (.invalidState StateFault.regionClosed) : Act _ _ Nat).run w := by
        simp only [obtainBase, Act.run_bind, Act.run_self, hp]
      rw [hrun]
      exact Or.inl (abides_raise _ w)
  | unreserved =>
      have hbytes : (obtainBase.run w).2.heap = w.heap ∧
          (obtainBase.run w).2.kernel.memory = (w.kernel.mmap w.self.total).2.memory := by
        have hrun : obtainBase.run w = reserve.run w := by
          simp only [obtainBase, Act.run_bind, Act.run_self, hp]
        rw [hrun]
        unfold reserve
        rw [Act.run_self_bind]
        have reserved := reserve_memory w.self.total w
        rcases hr : (VirtualMemory.reserve w.self.total).run w with ⟨e | base, w₁⟩
        · rw [Act.run_bind_error hr]
          rw [hr] at reserved
          exact reserved
        · rw [Act.run_bind_ok hr]
          rw [hr] at reserved
          cases Checked.add base w.self.total with
          | error e => exact reserved
          | ok stop => exact reserved
      exact Or.inr ⟨hp, hbytes.1, hbytes.2, fun base h => mapping_of_obtained hp h⟩

theorem checkpoint_settles : Along Settles checkpoint := by
  refine settles_bind obtainBase_settles fun _ => abides_self_bind fun r => ?_
  exact abides_bind (abides_update fun _ _ => id) fun _ => abides_pure _

theorem slice_settles (size align : Nat) : Along Settles (slice size align) := by
  unfold slice
  cases Checked.alignment align with
  | error e => exact fun w => Or.inl (abides_raise (α := Span) e w)
  | ok u =>
      rw [Act.settle_ok]
      have taken := settles_bind obtainBase_settles fun base => abides_cut base size align
      exact fun w => taken w

end Region

/-! ### The pool -/

namespace Pool

variable {w w' : World Tenancy} {size align : Nat} {span : Span}

/-- The world of a pool, without the pool. -/
def ground (w : World Tenancy) : World Region := { w with self := w.self.region }

theorem onRegion_settles {α : Type} {act : Act ArenaError Region α}
    (h : Along Region.Settles act) (w : World Tenancy) :
    Region.Settles (ground w) (ground ((onRegion act).run w).2) := h (ground w)

/-- **An allocation changes no byte**, but for the mapping that a first use makes. -/
theorem allocate_settles (size align : Nat) (w : World Tenancy) :
    Region.Settles (ground w) (ground ((allocate size align).run w).2) := by
  have slices := onRegion_settles (Region.slice_settles size align)
  unfold allocate
  rw [Act.run_self_bind]
  cases hp : w.self.pool with
  | closed => exact Or.inl ⟨rfl, rfl, fun _ => id⟩
  | active handle => exact slices w
  | fresh =>
      have first := onRegion_settles Region.checkpoint_settles w
      rcases hc : (onRegion Region.checkpoint).run w with ⟨e | handle, w₁⟩
      · rw [hc] at first
        simp only [Act.run_bind_error hc]
        exact first
      · rw [hc] at first
        simp only [Act.run_bind_ok hc, become, Act.run_bind, Act.run_update]
        -- A checkpoint was put by, so the region is reserved now, and the slice maps nothing.
        obtain ⟨r, made, checkpoints, leads⟩ :=
          way_of_onRegion Region.checkpoint_checkpoints hc
        obtain ⟨base, hbase⟩ : ∃ base, (ground w₁).self.phase = .reserved base := by
          show ∃ base, w₁.self.region.phase = .reserved base
          rw [leads.self]
          cases checkpoints with
          | pushed obtains => exact ⟨_, obtains.phase_of_ok⟩
        have next := slices { w₁ with self := { w₁.self with pool := .active handle } }
        exact first.abides (next.abides_of_reserved hbase)

/-- The result of an allocation, with the span set to zero if there is one. -/
def blank : Except ArenaError Span × World Tenancy → Except ArenaError Span × World Tenancy
  | (.ok span, w) =>
    let memory := w.kernel.memory.fill span.start span.length 0
    (.ok span, { w with kernel := { w.kernel with memory := memory } })
  | (.error e, w) => (.error e, w)

theorem allocateZeroed_eq (size align : Nat) (w : World Tenancy) :
    (allocateZeroed size align).run w = blank ((allocate size align).run w) := by
  unfold allocateZeroed
  rw [Act.run_bind]
  rcases (allocate size align).run w with ⟨e | span, w'⟩
  · rfl
  · rfl

/-- A span is sliced from the region as it was found, or as the checkpoint of the pool left it. -/
theorem Allocates.sliced {t t' : Tenancy} {clock : Nat} {made : List OsCall.Record}
    (ok : Region.Sound t.region) (h : Allocates size align t clock (.ok span) t' made) :
    ∃ r made', Region.Sound r ∧ r.cursor = t.region.cursor ∧
      (∀ held, t.region.phase = .reserved held → r.phase = .reserved held) ∧
      Region.Slices size align r clock (.ok span) t'.region made' := by
  cases h with
  | active h slices => exact ⟨t.region, _, ok, rfl, fun _ => id, slices⟩
  | @started handle r _ _ _ _ h checkpoints slices =>
      have ok₁ : Region.Sound r := checkpoints.continues.sound ok
      cases checkpoints with
      | pushed obtains =>
          obtain ⟨-, hcursor, hphase⟩ := obtains.of_sound ok
          exact ⟨_, _, ok₁, by exact hcursor, by exact hphase, slices⟩

/-- **A span that is given** lies above what was in use, and below the commit boundary. -/
theorem within_of_allocated (ok : Region.Sound w.self.region)
    (h : (allocate size align).run w = (.ok span, w')) :
    ∃ base, w'.self.region.phase = .reserved base ∧
      (∀ held, w.self.region.phase = .reserved held → held = base) ∧ span.length = size ∧
      ∀ x ∈ OsCall.range span.start size,
        base + w.self.region.cursor ≤ x ∧ x < base + w'.self.region.committed := by
  obtain ⟨t, made, allocates, leads⟩ := allocate_allocates ok h
  have sound := allocates.continues.sound ok
  rw [leads.self]
  obtain ⟨r, made', ok₁, hcursor, hphase, slices⟩ := allocates.sliced ok
  obtain ⟨base, hbase, hstart, hlength, hstop⟩ := slices.of_ok ok₁
  have hopen : t.region.phase ≠ .closed := by
    rw [hbase]
    exact nofun
  obtain ⟨-, -, hkept⟩ := slices.of_not_closed ok₁ hopen
  refine ⟨base, hbase, ?_, hlength, ?_⟩
  · intro held hheld
    exact Region.Phase.reserved.inj ((hkept held (hphase held hheld)).symm.trans hbase)
  · rintro x ⟨hlow, hhigh⟩
    have hend := hstop (by omega)
    have hcommitted := sound.cursor_le
    omega

/-- What memory holds after `size` bytes at `start` were taken from a region, which was left with
a base, and set to zero.  Beside it is the memory that was found, and the one that is left by
taking the bytes alone. -/
structure Blanks (found taken : Memory) (region after : Region) (base start size : Nat)
    (memory : Memory) : Prop where
  reserved : after.phase = .reserved base
  /-- A region that had a base has kept it. -/
  kept : ∀ held, region.phase = .reserved held → held = base
  /-- The span lies above all that was in use, and below the commit boundary. -/
  within : ∀ x ∈ OsCall.range start size,
    base + region.cursor ≤ x ∧ x < base + after.committed
  zero : ∀ x ∈ OsCall.range start size, memory.byteAt x = 0
  /-- All that zeroing has changed is the span. -/
  rest : ∀ x ∉ OsCall.range start size, memory.byteAt x = taken.byteAt x
  /-- And no other byte has changed at all, unless the reservation was made just now. -/
  same : ∀ x ∉ OsCall.range start size,
    (region.phase = .unreserved → x ∉ OsCall.range base region.total) →
      memory.byteAt x = found.byteAt x

theorem blanks_of_allocated (ok : Region.Sound w.self.region)
    (h : (allocate size align).run w = (.ok span, w')) :
    span.length = size ∧ ∃ base, Blanks w.kernel.memory w'.kernel.memory w.self.region
      w'.self.region base span.start size
      (w'.kernel.memory.fill span.start span.length 0) := by
  have settles := allocate_settles size align w
  rw [h] at settles
  obtain ⟨base, hbase, hkept, rfl, hwithin⟩ := within_of_allocated ok h
  have rest : ∀ x ∉ OsCall.range span.start span.length,
      (w'.kernel.memory.fill span.start span.length 0).byteAt x = w'.kernel.memory.byteAt x :=
    fun x hx => if_neg hx
  refine ⟨rfl, base, hbase, hkept, hwithin, fun x hx => if_pos hx, rest, ?_⟩
  intro x hx apart
  exact (rest x hx).trans (settles.byteAt_of_reserved hbase apart)

end Pool

/-! ### The session -/

namespace Session

variable {w : World Session} {s : Session} {a size align : Nat} {pool : Pool} {id : RegionId}
variable {region : Region} {either : Bool}

/-- What a step makes of an allocation from a pool: the pool and its region are put back as they
were left, and a span becomes a lease. -/
def conclude (s : Session) (a : Nat) (id : RegionId)
    (ran : Except ArenaError Span × World Tenancy) : Except Failure Value × World Session :=
  let s' := (s.setRegion id ran.2.self.region).setStrategy a (.pool ran.2.self.pool id)
  match ran.1 with
  | .ok span =>
    let leases := s'.leases.push (some ⟨span, .pool a id⟩)
    (.ok (.lease s'.leases.next span.length (some span.start)),
      { ran.2 with self := { s' with leases := leases } })
  | .error e => (.error (.error e), { ran.2 with self := s' })

/-- A step that allocates from a pool does what the pool does. -/
theorem allocate_of_pool (held : w.self.allocators.find? a = some ⟨.pool pool id, either⟩)
    (found : w.self.region? id = some region) {manner : Manner} (h : manner ≠ .layout) :
    (allocate a size align manner).run w = conclude w.self a id
      ((if manner = .zeroed then Pool.allocateZeroed size align
        else Pool.allocate size align).run { w with self := ⟨pool, region⟩ }) := by
  unfold allocate
  rw [Act.run_self_bind, held]
  simp only [need, Act.run_pure_bind, if_neg h, Act.run_self_bind, found, call]
  generalize hact : (if manner = .zeroed then Pool.allocateZeroed size align
    else Pool.allocate size align) = act
  rw [Act.run_bind, Act.run_mapError, onPool, Act.run_within]
  rcases act.run { w with self := ⟨pool, region⟩ } with ⟨e | span, t⟩
  · rfl
  · rfl

theorem conclude_kernel (ran : Except ArenaError Span × World Tenancy) :
    (conclude s a id ran).2.kernel = ran.2.kernel := by
  rcases ran with ⟨e | span, w⟩
  · rfl
  · rfl

/-- **A zeroed allocation is a plain one, and its span is zero.**  A session may have any history,
and memory may hold anything.  A pool that is asked for zeros, by whatever type it is known,
answers as if it were asked for bytes, and leaves the session and the machine so too, but for what
memory holds.  Where it succeeds, the span lies in accessible pages above all that was in use, its
bytes are zero, and no other byte has changed but of a reservation that was made for this.  Where
it fails, memory is as a plain allocation leaves it, and no byte of a reserved region has changed,
if the system makes no mapping over the region. -/
theorem zeroed_allocation (past : List Turn) (machine : Machine) (a size align : Nat)
    {pool : Pool} {id : RegionId} {either : Bool}
    (held : (play {} past).allocators.find? a = some ⟨.pool pool id, either⟩) :
    let s := play {} past
    let w : World Session := { machine with self := s }
    let plain := (allocate a size align .plain).run w
    let zeroed := (allocate a size align .zeroed).run w
    let memory := zeroed.2.kernel.memory
    zeroed.1 = plain.1 ∧ zeroed.2.heap = machine.heap ∧
      zeroed.2 = { plain.2 with kernel := { plain.2.kernel with memory := memory } } ∧
      ∃ region, s.region? id = some region ∧
        (∀ value, plain.1 = .ok value → ∃ number start base after,
          value = .lease number size (some start) ∧ zeroed.2.self.region? id = some after ∧
          Pool.Blanks machine.kernel.memory plain.2.kernel.memory region after base start size
            memory) ∧
        ∀ e, plain.1 = .error e → zeroed.2 = plain.2 ∧
          ∀ other r base, s.region? other = some r → r.phase = .reserved base →
            (region.phase = .unreserved → ∀ place, region.mapping machine.kernel = some place →
              Disjoint (OsCall.range place region.total) (OsCall.range base r.total)) →
            ∀ x ∈ OsCall.range base r.total,
              memory.byteAt x = machine.kernel.memory.byteAt x := by
  intro s w plain zeroed memory
  have ok : Orderly none s := play_orderly orderly_start past
  obtain ⟨-, region, found⟩ := found_of_pool (w := w) ok held rfl
  let t : World Tenancy := { machine with self := ⟨pool, region⟩ }
  have hplain : plain = conclude s a id ((Pool.allocate size align).run t) :=
    allocate_of_pool (w := w) held found nofun
  have hzeroed : zeroed = conclude s a id (Pool.blank ((Pool.allocate size align).run t)) := by
    rw [← Pool.allocateZeroed_eq]
    exact allocate_of_pool (w := w) held found nofun
  have hmemory : memory = (Pool.blank ((Pool.allocate size align).run t)).2.kernel.memory := by
    show zeroed.2.kernel.memory = _
    rw [hzeroed, conclude_kernel]
  have htaken : plain.2.kernel.memory = ((Pool.allocate size align).run t).2.kernel.memory := by
    rw [hplain, conclude_kernel]
  have settles := Pool.allocate_settles size align t
  rw [hmemory, htaken, hplain, hzeroed]
  rcases hrun : (Pool.allocate size align).run t with ⟨e | span, t'⟩
  · rw [hrun] at settles
    refine ⟨rfl, settles.heap, rfl, region, found, nofun, fun e _ => ⟨rfl, ?_⟩⟩
    intro other r base hother hbase apart x hx
    have hend := (ok.sound other r hother).addressable base hbase
    have low : x < Kernel.noMapping := by
      have hhigh : x < base + r.total := hx.2
      unfold Kernel.noMapping
      omega
    refine settles.byteAt low fun unused place hplace hcovered => ?_
    exact Set.disjoint_left.mp (apart unused place hplace) hcovered hx
  · rw [hrun] at settles
    have sound : Region.Sound region := ok.sound id region found
    obtain ⟨hlength, base, blanks⟩ := Pool.blanks_of_allocated (w := t) sound hrun
    refine ⟨rfl, settles.heap, rfl, region, found, fun value hvalue => ?_, nofun⟩
    have hvalue := (Except.ok.inj hvalue).symm
    rw [hlength] at hvalue
    refine ⟨_, span.start, base, t'.self.region, hvalue, ?_, blanks⟩
    show ((s.setRegion id t'.self.region).setStrategy a _).region? id = _
    rw [region?_setStrategy]
    exact region?_setRegion_self found _

/-- A span that was written all over is freed by a rollback, and the next pool of the region is
given some of its bytes again, as zeros.  The byte next to them stays as it was left.  A request
that does not fit changes none of them. -/
theorem zeroed_allocation_of_freed_span :
    let turn (step : Step) : Turn := ⟨{}, .step step⟩
    let past := [turn (.region 8000 .standard), turn (.pool 0),
      turn (.allocate 0 5000 16 .plain), turn (.write 0 0 5000 0xff), turn (.closeAllocator 0),
      turn (.pool 0), turn (.intoEither 1)]
    let written : Memory := Memory.zero.fill 0x100000000000 5000 0xff
    let machine : Machine := { kernel := { memory := written } }
    let given := (allocate 1 100 16 .zeroed).run { machine with self := play {} past }
    let refused := (allocate 1 9000 16 .zeroed).run { machine with self := play {} past }
    (play {} past).allocators.find? 1 = some ⟨.pool .fresh 0, true⟩ ∧
      given.1 = .ok (.lease 1 100 (some 0x100000000000)) ∧
      (∀ i < 100, given.2.kernel.memory.byteAt (0x100000000000 + i) = 0) ∧
      given.2.kernel.memory.byteAt (0x100000000000 + 100) = 0xff ∧
      refused.1 = .error (.error (.outOfBounds 9000 8192)) ∧
      refused.2.kernel.memory.byteAt 0x100000000000 = 0xff := by
  intro turn past written machine given refused
  have held : (play {} past).allocators.find? 1 = some ⟨.pool .fresh 0, true⟩ := by decide
  have reserved : ((play {} past).region? 0).map Region.phase
      = some (.reserved 0x100000000000) := by decide
  obtain ⟨region, found, hphase⟩ := Option.map_eq_some_iff.mp reserved
  have first := zeroed_allocation past machine 1 100 16 held
  have second := zeroed_allocation past machine 1 9000 16 held
  -- The two runs keep their names, or each of the steps below would go through them again.
  have hgiven : (allocate 1 100 16 .zeroed).run { machine with self := play {} past }
      = given := rfl
  have hrefused : (allocate 1 9000 16 .zeroed).run { machine with self := play {} past }
      = refused := rfl
  clear_value given refused
  simp only [hgiven, hrefused] at first second
  obtain ⟨hgiven, -, -, region₁, found₁, fills, -⟩ := first
  obtain ⟨hrefused, -, -, region₂, found₂, -, spares⟩ := second
  obtain rfl := Option.some.inj (found.symm.trans found₁)
  obtain rfl := Option.some.inj (found.symm.trans found₂)
  have plain : ((allocate 1 100 16 .plain).run { machine with self := play {} past }).1
      = .ok (.lease 1 100 (some 0x100000000000)) := by decide
  have unfit : ((allocate 1 9000 16 .plain).run { machine with self := play {} past }).1
      = .error (.error (.outOfBounds 9000 8192)) := by decide
  have used : region.phase ≠ .unreserved := by
    rw [hphase]
    exact nofun
  obtain ⟨number, start, base, after, hvalue, -, blanks⟩ := fills _ plain
  cases hvalue
  obtain ⟨-, hspared⟩ := spares _ unfit
  refine ⟨held, hgiven.trans plain, ?_, ?_, hrefused.trans unfit, ?_⟩
  · intro i hi
    refine blanks.zero _ ⟨?_, ?_⟩
    · omega
    · omega
  · refine (blanks.same _ ?_ fun h => absurd h used).trans (by decide)
    rintro ⟨-, hhigh⟩
    omega
  · have total : region.total = 8192 := by
      have htotal : ((play {} past).region? 0).map Region.total = some 8192 := by decide
      rw [found] at htotal
      exact Option.some.inj htotal
    have spared := hspared 0 region _ found hphase (fun h => absurd h used) 0x100000000000
    refine (spared ⟨?_, ?_⟩).trans (by decide)
    · omega
    · omega

end Session

end PageArena
