/-
Whoever asks the heap for memory holds exactly the blocks that are in use.

The heap is taken as the C library specifies it.  Any request may be refused, but a block that
is granted lies at a multiple of its alignment, is not at zero and meets no block in use
(`RawHeap.Honest`).  A caller takes memory and gives it back as it likes, as long as it keeps
to the contract: what it gives back or has resized it holds, by the kind it got it by, and a
batch names nothing twice.

The caller's side is written down as a list of holdings.  `Call.holdings` says what the caller
holds after a call from the answer alone, and never looks at the heap: what it gave away is
gone, and what it was granted is there.  The balance is that the blocks in use are those of
the holdings (`Desk.Balanced`), and every call keeps it.

The blocks alone would not show that one is freed twice, but the heap writes down all that is
asked of it.  `Call.demands` says what a call asks, from the call and its answer; that this is
what the record gets, and that nothing else happens to the heap, holds of every heap and of
callers that keep to nothing (`act_serves`).  On a balanced desk each of these demands names a
block that is in use when its turn comes.  So the record of a whole run does (`AllName`): a
block that was freed is not freed again before it is granted again.
-/
import Mathlib
import PageArena.Proofs.Allocator.BatchHeap

namespace PageArena

namespace RawHeap

/-- No byte belongs to both blocks. -/
def Block.Apart (b c : Block) : Prop := b.stop ≤ c.start ∨ c.stop ≤ b.start

/-- Blocks are placed as C promises it: at a multiple of the alignment, not at zero, and
apart from every block in use.  Nothing is promised of which requests are granted. -/
def Honest (place : Nat → List Block → Nat → Nat → Option Nat) : Prop :=
  ∀ request blocks size align start, 0 < size → Word.isPowerOfTwo align = true →
    place request blocks size align = some start →
      0 < start ∧ align ∣ start ∧ ∀ b ∈ blocks, Block.Apart ⟨start, size⟩ b

/-- Placing blocks behind all others is honest. -/
theorem behindAll_honest : Honest behindAll := by
  intro request blocks size align start pos aligned h
  unfold behindAll at h
  split at h
  · cases h
  · obtain rfl := Option.some.inj h
    obtain ⟨hbottom, htop⟩ := le_foldl_stop blocks bottom
    have hle : top blocks ≤ Word.ceil (top blocks) align :=
      Word.le_ceil _ (Word.pos_of_isPowerOfTwo aligned)
    refine ⟨?_, Word.dvd_ceil _ _, fun b hb => Or.inr (Nat.le_trans (htop b hb) hle)⟩
    exact Nat.lt_of_lt_of_le (by decide) (Nat.le_trans hbottom hle)

namespace Demand

/-- The heap after a demand. -/
def serve (h : RawHeap) : Demand → RawHeap
  | .obtain size align => (h.obtain? size align).2
  | .reallocate start size align => (h.reallocate? start size align).2
  | .free start => h.free start

/-- A demand names no block, or one that is in use. -/
def Names (h : RawHeap) : Demand → Prop
  | .obtain _ _ => True
  | .reallocate start _ _ => start ∈ h.blocks.map Block.start
  | .free start => start ∈ h.blocks.map Block.start

/-- Each of the demands names a block that is in use when its turn comes. -/
def AllName : RawHeap → List Demand → Prop
  | _, [] => True
  | h, demand :: later => demand.Names h ∧ AllName (demand.serve h) later

variable {h : RawHeap}

theorem allName_append {demands later : List Demand} (first : AllName h demands)
    (next : AllName (demands.foldl Demand.serve h) later) : AllName h (demands ++ later) := by
  induction demands generalizing h with
  | nil => exact next
  | cons demand rest ih => exact ⟨first.1, ih first.2 next⟩

/-- The heap writes down what is asked of it. -/
theorem serve_demands (h : RawHeap) (demand : Demand) :
    (demand.serve h).demands = h.demands ++ [demand] := by
  cases demand with
  | obtain size align =>
      simp only [Demand.serve, obtain?]
      split <;> rfl
  | reallocate start size align =>
      simp only [Demand.serve, reallocate?]
      split <;> rfl
  | free start => rfl

theorem serveAll_demands (h : RawHeap) (demands : List Demand) :
    (demands.foldl Demand.serve h).demands = h.demands ++ demands := by
  induction demands generalizing h with
  | nil => exact (List.append_nil _).symm
  | cons demand later ih =>
      rw [List.foldl_cons, ih, serve_demands, List.append_assoc]
      rfl

end Demand

/-- Heaps that are alike in all but their bytes and records. -/
structure Alike (h h' : RawHeap) : Prop where
  place : h'.place = h.place
  requests : h'.requests = h.requests
  blocks : h'.blocks = h.blocks

variable {h h' : RawHeap}

/-- What becomes of blocks does not depend on bytes or records. -/
theorem Alike.serve (same : Alike h h') (demand : Demand) :
    Alike (demand.serve h) (demand.serve h') := by
  obtain ⟨place, requests, blocks, memory, demands⟩ := h
  obtain ⟨place', requests', blocks', memory', demands'⟩ := h'
  obtain ⟨rfl, rfl, rfl⟩ := same
  cases demand with
  | obtain size align =>
      simp only [Demand.serve, obtain?, note]
      split <;> exact ⟨rfl, rfl, rfl⟩
  | reallocate start size align =>
      simp only [Demand.serve, reallocate?, besides, note]
      split <;> exact ⟨rfl, rfl, rfl⟩
  | free start => exact ⟨rfl, rfl, rfl⟩

theorem Alike.serveAll (same : Alike h h') (demands : List Demand) :
    Alike (demands.foldl Demand.serve h) (demands.foldl Demand.serve h') := by
  induction demands generalizing h h' with
  | nil => exact same
  | cons demand later ih => exact ih (same.serve demand)

theorem Alike.allName (same : Alike h h') {demands : List Demand}
    (names : Demand.AllName h demands) : Demand.AllName h' demands := by
  induction demands generalizing h h' with
  | nil => trivial
  | cons demand later ih =>
      obtain ⟨first, rest⟩ := names
      refine ⟨?_, ih (same.serve demand) rest⟩
      cases demand with
      | obtain size align => trivial
      | reallocate start size align | free start =>
          show start ∈ h'.blocks.map Block.start
          rw [same.blocks]
          exact first

end RawHeap

namespace Custody

open RawHeap (Block Demand)

/-- What a caller has been granted, as it asked for it. -/
structure Holding where
  address : Nat
  kind : Primitive
  size : Nat
  align : Nat
  deriving DecidableEq, Repr

/-- The block of a holding.  For no bytes there is a block of one. -/
def Holding.block (x : Holding) : Block := ⟨x.address, max x.size 1⟩

/-- The holding as it is given back. -/
def Holding.allocation (x : Holding) : Allocation := ⟨x.address, x.kind⟩

/-- The calls of the raw memory surface by which memory changes hands. -/
inductive Call where
  | allocate (size : Nat)
  | allocateAligned (size align : Nat)
  | resize (address size : Nat)
  | release (a : Allocation)
  | releaseBatch (entries : List Allocation)
  deriving DecidableEq, Repr

namespace Call

/-- The operation of a call.  It answers an address if it grants one. -/
def act : Call → Act HostError Unit (Option Nat)
  | .allocate size => do return some (← RawSource.FromHeap.allocate size)
  | .allocateAligned size align => do
    return some (← RawSource.FromHeap.allocateAligned size align)
  | .resize address size => do return some (← RawSource.FromHeap.resize address size)
  | .release a => do
    RawSource.heap.release a
    return none
  | .releaseBatch entries => do
    RawSource.heap.releaseBatch entries
    return none

/-- The addresses that are handed over to a call. -/
def given : Call → List Nat
  | .allocate _ => []
  | .allocateAligned _ _ => []
  | .resize address _ => [address]
  | .release a => [a.address]
  | .releaseBatch entries => entries.map Allocation.address

/-- What an answer grants. -/
def granted : Call → Except HostError (Option Nat) → List Holding
  | .allocate size, .ok (some address) => [⟨address, .plain, size, Primitive.naturalAlign⟩]
  | .allocateAligned size align, .ok (some address) => [⟨address, .aligned, size, align⟩]
  | .resize _ size, .ok (some address) => [⟨address, .plain, size, Primitive.naturalAlign⟩]
  | _, _ => []

/-- The contract of a call: what is handed over is held, of the kind that made it, and is
handed over once. -/
def Respects (held : List Holding) : Call → Prop
  | .allocate _ => True
  | .allocateAligned _ _ => True
  | .resize address _ => ∃ x ∈ held, x.allocation = ⟨address, .plain⟩
  | .release a => ∃ x ∈ held, x.allocation = a
  | .releaseBatch entries => entries.Nodup ∧ ∀ a ∈ entries, ∃ x ∈ held, x.allocation = a

/-- What a call can answer. -/
def CanAnswer : Call → Except HostError (Option Nat) → Prop
  | .allocate size, answer =>
    (∃ address, answer = .ok (some address)) ∨
      answer = .error (.allocationFailed size Primitive.naturalAlign)
  | .allocateAligned size align, answer =>
    if Word.isPowerOfTwo align then
      (∃ address, answer = .ok (some address)) ∨ answer = .error (.allocationFailed size align)
    else answer = .error (.invalidAlignment align)
  | .resize _ size, answer =>
    (∃ address, answer = .ok (some address)) ∨
      answer = .error (.allocationFailed size Primitive.naturalAlign)
  | .release _, answer => answer = .ok none
  | .releaseBatch _, answer => answer = .ok none

/-- What a call asks of C, in its order.  A resize that is refused frees what it was to
resize. -/
def demands : Call → Except HostError (Option Nat) → List Demand
  | .allocate size, _ => [.obtain (max size 1) Primitive.naturalAlign]
  | .allocateAligned size align, _ =>
    if Word.isPowerOfTwo align then [.obtain (max size 1) (max align RawSource.leastAlign)] else []
  | .resize address size, .ok _ =>
    [.reallocate address (max size 1) Primitive.naturalAlign]
  | .resize address size, .error _ =>
    [.reallocate address (max size 1) Primitive.naturalAlign, .free address]
  | .release a, _ => [.free a.address]
  | .releaseBatch entries, _ => entries.map fun a => .free a.address

end Call

/-- The holdings that are left when some are handed over. -/
def without (held : List Holding) (addresses : List Nat) : List Holding :=
  held.filter (·.address ∉ addresses)

/-- What the caller holds after a call. -/
def Call.holdings (held : List Holding) (call : Call) (answer : Except HostError (Option Nat)) :
    List Holding :=
  call.granted answer ++ without held call.given

/-- What a call does to bytes.  Only a resize that is granted moves any: as many as both blocks
have, and none of another holding. -/
def Call.Moves (held : List Holding) (before after : Memory) :
    Call → Except HostError (Option Nat) → Prop
  | .resize address size, .ok (some target) =>
    (∀ x ∈ held, x.address = address → ∀ i < min x.size size,
      after.byteAt (target + i) = before.byteAt (address + i)) ∧
    ∀ x ∈ without held [address], ∀ i < x.size,
      after.byteAt (x.address + i) = before.byteAt (x.address + i)
  | _, _ => after = before

/-- The heap, and what its caller holds. -/
structure Desk where
  heap : RawHeap
  held : List Holding

/-- One call, and the machine that it meets.  Of the heap only the bytes may have changed. -/
structure Deed where
  machine : Machine
  call : Call

namespace Desk

/-- The world in which a call is made. -/
def world (s : Desk) (d : Deed) : World Unit :=
  { d.machine with heap := { s.heap with memory := d.machine.heap.memory }, self := () }

/-- What becomes of a call: the answer, and the world that is left. -/
def meet (s : Desk) (d : Deed) : Except HostError (Option Nat) × World Unit :=
  d.call.act.run (s.world d)

/-- The desk after a call. -/
def after (s : Desk) (d : Deed) : Desk :=
  ⟨(s.meet d).2.heap, d.call.holdings s.held (s.meet d).1⟩

/-- The desk after a run of calls. -/
def run (s : Desk) (ds : List Deed) : Desk := ds.foldl after s

/-- Each of the calls keeps to the contract when its turn comes. -/
def Respects (s : Desk) : List Deed → Prop
  | [] => True
  | d :: later => d.call.Respects s.held ∧ (s.after d).Respects later

/-- The blocks in use are those of the holdings.  They lie apart, and each has the size and the
alignment that was asked for. -/
structure Balanced (s : Desk) : Prop where
  blocks : s.heap.blocks = s.held.map Holding.block
  apart : s.heap.blocks.Pairwise Block.Apart
  granted : ∀ x ∈ s.held, 0 < x.address ∧ x.align ∣ x.address ∧ x.size ≤ x.block.size

/-- A call is answered as it can be, moves what it may, and asks of C what it must and nothing
more; and each time that it names a block to C, that block is in use. -/
structure Handles (s : Desk) (d : Deed) : Prop where
  answers : d.call.CanAnswer (s.meet d).1
  moves : d.call.Moves s.held d.machine.heap.memory (s.after d).heap.memory (s.meet d).1
  asks : (s.after d).heap.demands = s.heap.demands ++ d.call.demands (s.meet d).1
  names : Demand.AllName (s.world d).heap (d.call.demands (s.meet d).1)

end Desk

/-! ### What a call asks of C -/

variable {w : World Unit}

/-- A request of the heap. -/
theorem granted_run (size align requested unit : Nat) :
    (do RawSource.granted size align (← Act.heap (RawHeap.obtain? · requested unit))
      : Act HostError Unit Nat).run w
      = ((match (w.heap.obtain? requested unit).1 with
          | some address => .ok address
          | none => .error (.allocationFailed size align)),
        { w with heap := (w.heap.obtain? requested unit).2 }) := by
  rw [Act.run_bind, Act.run_heap]
  simp only [RawSource.granted]
  cases (w.heap.obtain? requested unit).1 with
  | none => rfl
  | some address => rfl

theorem resize_run {address size : Nat} :
    (RawSource.FromHeap.resize address size : Act HostError Unit Nat).run w
      = match (w.heap.reallocate? address (max size 1) Primitive.naturalAlign).1 with
        | some target => (.ok target,
          { w with
            heap := (w.heap.reallocate? address (max size 1) Primitive.naturalAlign).2 })
        | none => (.error (.allocationFailed size Primitive.naturalAlign),
          { w with
            heap := (w.heap.reallocate? address (max size 1) Primitive.naturalAlign).2.free
              address }) := by
  unfold RawSource.FromHeap.resize
  rw [Act.run_bind, Act.run_heap]
  cases (w.heap.reallocate? address (max size 1) Primitive.naturalAlign).1 with
  | some target => rfl
  | none => rfl

theorem releaseAll_run (entries : List Allocation) (w : World Unit) :
    (RawSource.heap.releaseAll entries : Act HostError Unit Unit).run w
      = (.ok (), { w with
          heap := (entries.map fun a => Demand.free a.address).foldl Demand.serve w.heap }) := by
  induction entries generalizing w with
  | nil => rfl
  | cons a rest ih =>
      have hfirst : (RawSource.heap.release a : Act HostError Unit Unit).run w
          = (.ok (), { w with heap := w.heap.free a.address }) := rfl
      unfold RawSource.releaseAll
      rw [Act.run_bind_ok hfirst, ih]
      rfl

/-- **Whatever the heap is**, a call makes its demands of it and nothing else happens to it. -/
theorem act_serves (call : Call) (w : World Unit) :
    (call.act.run w).2.heap
      = (call.demands (call.act.run w).1).foldl Demand.serve w.heap := by
  cases call with
  | allocate size =>
      have hrun := granted_run (w := w) size Primitive.naturalAlign (max size 1)
        Primitive.naturalAlign
      simp only [Call.act, RawSource.FromHeap.allocate, Region.run_bind_pure, hrun]
      rfl
  | allocateAligned size align =>
      simp only [Call.act, RawSource.FromHeap.allocateAligned, Call.demands]
      split
      · simp only [Region.run_bind_pure, granted_run]
        rfl
      · rfl
  | resize address size =>
      simp only [Call.act, Region.run_bind_pure, resize_run]
      cases hmoved : (w.heap.reallocate? address (max size 1) Primitive.naturalAlign).1 with
      | some target => rfl
      | none => rfl
  | release a => rfl
  | releaseBatch entries =>
      simp only [Call.act, RawSource.releaseBatch, Act.run_bind, releaseAll_run, Act.run_pure,
        Call.demands]

theorem after_asks (s : Desk) (d : Deed) :
    (s.after d).heap.demands = s.heap.demands ++ d.call.demands (s.meet d).1 := by
  show (d.call.act.run (s.world d)).2.heap.demands = _
  rw [act_serves, Demand.serveAll_demands]
  rfl

/-! ### Blocks and holdings -/

variable {held : List Holding} {s : Desk} {x y : Holding} {address : Nat}

theorem mem_without {addresses : List Nat} :
    x ∈ without held addresses ↔ x ∈ held ∧ x.address ∉ addresses := by
  simp [without]

theorem without_nil (held : List Holding) : without held [] = held := by
  simp [without]

theorem without_without (held : List Holding) (first : Nat) (rest : List Nat) :
    without (without held [first]) rest = without held (first :: rest) := by
  simp only [without, List.filter_filter, List.mem_cons, List.not_mem_nil, or_false,
    not_or]
  congr 1
  funext x
  by_cases hfirst : x.address = first
  · simp [hfirst]
  · simp [hfirst]

/-- Where every address occurs once, what begins at one is all that is erased with it. -/
theorem eraseP_eq_without (once : (held.map Holding.address).Nodup) (address : Nat) :
    held.eraseP (·.address == address) = without held [address] := by
  induction held with
  | nil => rfl
  | cons x rest ih =>
      obtain ⟨hfirst, hrest⟩ := List.nodup_cons.mp once
      by_cases hx : x.address = address
      · have hkept : ∀ y ∈ rest, y.address ∉ [address] := by
          intro y hy hmem
          have hsame : y.address = x.address := (List.mem_singleton.mp hmem).trans hx.symm
          exact hfirst (hsame ▸ List.mem_map_of_mem hy)
        rw [List.eraseP_cons_of_pos (by simp [hx]), without,
          List.filter_cons_of_neg (by simp [hx]), List.filter_eq_self.mpr (by simpa using hkept)]
      · rw [List.eraseP_cons_of_neg (by simp [hx]), without,
          List.filter_cons_of_pos (by simp [hx]), ih hrest]
        rfl

namespace Desk.Balanced

theorem addresses_nodup (ok : s.Balanced) : (s.held.map Holding.address).Nodup := by
  have apart := ok.apart
  rw [ok.blocks, List.pairwise_map] at apart
  refine List.pairwise_map.mpr (apart.imp ?_)
  intro x y hapart hsame
  unfold Block.Apart Block.stop Holding.block at hapart
  simp only at hapart
  omega

/-- Two holdings at one address are one. -/
theorem eq_of_address (ok : s.Balanced) (hx : x ∈ s.held) (hy : y ∈ s.held)
    (h : x.address = y.address) : x = y :=
  List.inj_on_of_nodup_map ok.addresses_nodup hx hy h

theorem mem_starts (ok : s.Balanced) (hx : x ∈ s.held) :
    x.address ∈ s.heap.blocks.map Block.start := by
  rw [ok.blocks, List.map_map]
  exact List.mem_map_of_mem (f := Block.start ∘ Holding.block) hx

/-- A block that is freed leaves the heap as its holding leaves the caller. -/
theorem freed (ok : s.Balanced) (address : Nat) :
    Desk.Balanced ⟨s.heap.free address, without s.held [address]⟩ where
  blocks := by
    show s.heap.blocks.eraseP (·.start == address) = _
    rw [ok.blocks, List.eraseP_map]
    exact congrArg (List.map Holding.block) (eraseP_eq_without ok.addresses_nodup address)
  apart := ok.apart.sublist List.eraseP_sublist
  granted x hx := ok.granted x (mem_without.mp hx).1

theorem freedAll (ok : s.Balanced) (addresses : List Nat) :
    Desk.Balanced ⟨(addresses.map Demand.free).foldl Demand.serve s.heap,
      without s.held addresses⟩ := by
  induction addresses generalizing s with
  | nil =>
      rw [without_nil]
      exact ok
  | cons first rest ih =>
      have later := ih (ok.freed first)
      rw [without_without] at later
      exact later

/-- A block that is placed enters the heap as its holding enters the hands of the caller. -/
theorem placed (ok : s.Balanced) {h : RawHeap} (blocks : h.blocks = x.block :: s.heap.blocks)
    (pos : 0 < x.address) (aligned : x.align ∣ x.address)
    (apart : ∀ b ∈ s.heap.blocks, Block.Apart x.block b) :
    Desk.Balanced ⟨h, x :: s.held⟩ where
  blocks := by rw [blocks, ok.blocks, List.map_cons]
  apart := by
    rw [blocks]
    exact List.pairwise_cons.mpr ⟨apart, ok.apart⟩
  granted y hy := by
    rcases List.mem_cons.mp hy with rfl | hy
    · exact ⟨pos, aligned, Nat.le_max_left _ _⟩
    · exact ok.granted y hy

/-- Only blocks matter to the balance. -/
theorem of_blocks (ok : s.Balanced) {h : RawHeap} (blocks : h.blocks = s.heap.blocks) :
    Desk.Balanced ⟨h, s.held⟩ :=
  ⟨blocks.trans ok.blocks, by rw [blocks]; exact ok.apart, ok.granted⟩

/-- Holdings that are given back once each are in use when their turn comes. -/
theorem allName_free (ok : s.Balanced) {addresses : List Nat} (once : addresses.Nodup)
    (mem : ∀ address ∈ addresses, ∃ x ∈ s.held, x.address = address) :
    Demand.AllName s.heap (addresses.map Demand.free) := by
  induction addresses generalizing s with
  | nil => trivial
  | cons first rest ih =>
      obtain ⟨hfirst, hrest⟩ := List.nodup_cons.mp once
      obtain ⟨x, hx, rfl⟩ := mem first List.mem_cons_self
      refine ⟨ok.mem_starts hx, ih (ok.freed x.address) hrest ?_⟩
      intro address haddress
      obtain ⟨y, hy, rfl⟩ := mem address (List.mem_cons_of_mem _ haddress)
      refine ⟨y, mem_without.mpr ⟨hy, ?_⟩, rfl⟩
      intro hsame
      exact hfirst (List.mem_singleton.mp hsame ▸ haddress)

end Desk.Balanced

/-! ### What C answers -/

section Honest

variable {h : RawHeap} {size align : Nat}

theorem serve_place (h : RawHeap) (demands : List Demand) :
    (demands.foldl Demand.serve h).place = h.place := by
  induction demands generalizing h with
  | nil => rfl
  | cons demand later ih =>
      refine (ih (demand.serve h)).trans ?_
      cases demand with
      | obtain size align =>
          simp only [Demand.serve, RawHeap.obtain?]
          split <;> rfl
      | reallocate start size align =>
          simp only [Demand.serve, RawHeap.reallocate?]
          split <;> rfl
      | free start => rfl

/-- A request that is refused changes nothing, and one that is granted adds its block. -/
theorem obtain?_cases (honest : RawHeap.Honest h.place) (pos : 0 < size)
    (aligned : Word.isPowerOfTwo align = true) :
    (h.obtain? size align).2.memory = h.memory ∧
      (((h.obtain? size align).1 = none ∧ (h.obtain? size align).2.blocks = h.blocks) ∨
        ∃ address, (h.obtain? size align).1 = some address ∧
          (h.obtain? size align).2.blocks = ⟨address, size⟩ :: h.blocks ∧
          0 < address ∧ align ∣ address ∧ ∀ b ∈ h.blocks, Block.Apart ⟨address, size⟩ b) := by
  unfold RawHeap.obtain?
  cases hplace : h.place h.requests h.blocks size align with
  | none => exact ⟨rfl, Or.inl ⟨rfl, rfl⟩⟩
  | some address =>
      exact ⟨rfl, Or.inr ⟨address, rfl, rfl, honest _ _ _ _ _ pos aligned hplace⟩⟩

/-- A move that is refused changes nothing.  One that is granted puts a block in the place of
the old one, and the bytes that both have go along. -/
theorem reallocate?_cases (start : Nat) (honest : RawHeap.Honest h.place) (pos : 0 < size)
    (aligned : Word.isPowerOfTwo align = true) :
    ((h.reallocate? start size align).1 = none ∧
        (h.reallocate? start size align).2.blocks = h.blocks ∧
        (h.reallocate? start size align).2.memory = h.memory) ∨
      ∃ target, (h.reallocate? start size align).1 = some target ∧
        (h.reallocate? start size align).2.blocks = ⟨target, size⟩ :: (h.free start).blocks ∧
        (h.reallocate? start size align).2.memory = h.memory.transfer target start
          (min (((h.blockAt? start).map Block.size).getD 0) size) ∧
        0 < target ∧ align ∣ target ∧
          ∀ b ∈ (h.free start).blocks, Block.Apart ⟨target, size⟩ b := by
  cases hplace : h.place h.requests (h.besides start) size align with
  | none =>
      simp only [RawHeap.reallocate?, hplace]
      exact Or.inl ⟨trivial, rfl, rfl⟩
  | some target =>
      simp only [RawHeap.reallocate?, hplace]
      exact Or.inr ⟨target, rfl, rfl, rfl, honest _ _ _ _ _ pos aligned hplace⟩

end Honest

/-! ### One call -/

variable {d : Deed} {size align : Nat}

/-- A request is granted a new holding, or is refused and changes nothing. -/
theorem meet_of_obtain {unit : Nat} (kind : Primitive) (ok : s.Balanced)
    (honest : RawHeap.Honest s.heap.place) (hunit : Word.isPowerOfTwo unit = true)
    (hdvd : align ∣ unit)
    (hmeet : s.meet d = ((match ((s.world d).heap.obtain? (max size 1) unit).1 with
        | some address => .ok (some address)
        | none => .error (.allocationFailed size align)),
      { s.world d with heap := ((s.world d).heap.obtain? (max size 1) unit).2 })) :
    (s.meet d).2.heap.memory = d.machine.heap.memory ∧
      (((s.meet d).1 = .error (.allocationFailed size align) ∧
          Desk.Balanced ⟨(s.meet d).2.heap, s.held⟩) ∨
        ∃ address, (s.meet d).1 = .ok (some address) ∧
          Desk.Balanced ⟨(s.meet d).2.heap, ⟨address, kind, size, align⟩ :: s.held⟩) := by
  rw [hmeet]
  have pos : 0 < max size 1 := Nat.lt_of_lt_of_le Nat.one_pos (Nat.le_max_right _ _)
  obtain ⟨hmemory, ⟨hnone, hblocks⟩ | ⟨address, hsome, hblocks, hpos, haligned, hapart⟩⟩ :=
    obtain?_cases (h := (s.world d).heap) honest pos hunit
  · refine ⟨hmemory, Or.inl ⟨?_, ok.of_blocks hblocks⟩⟩
    rw [hnone]
  · refine ⟨hmemory, Or.inr ⟨address, ?_, ?_⟩⟩
    · rw [hsome]
    · exact ok.placed (x := ⟨address, kind, size, align⟩) hblocks hpos
        (Nat.dvd_trans hdvd haligned) hapart

/-- A small power of two divides the larger of it and another. -/
theorem dvd_max_leastAlign (h : Word.isPowerOfTwo align = true) :
    align ∣ max align RawSource.leastAlign ∧
      Word.isPowerOfTwo (max align RawSource.leastAlign) = true := by
  rcases Nat.le_total align RawSource.leastAlign with hle | hle
  · obtain ⟨k, rfl⟩ := Word.isPowerOfTwo_iff.mp h
    have hk : k ≤ 3 := (Nat.pow_le_pow_iff_right (a := 2) (by decide)).mp hle
    rw [Nat.max_eq_right hle]
    exact ⟨Nat.pow_dvd_pow 2 hk, by decide⟩
  · rw [Nat.max_eq_left hle]
    exact ⟨Nat.dvd_refl _, h⟩

/-- Where nothing is handed over, all that was held is held still. -/
theorem after_of_given_nil {answer : Except HostError (Option Nat)} (h : d.call.given = [])
    (hanswer : (s.meet d).1 = answer) :
    s.after d = ⟨(s.meet d).2.heap, d.call.granted answer ++ s.held⟩ := by
  unfold Desk.after Call.holdings
  rw [hanswer, h, without_nil]

theorem handles_allocate (ok : s.Balanced) (honest : RawHeap.Honest s.heap.place)
    (machine : Machine) (size : Nat) :
    (s.after ⟨machine, .allocate size⟩).Balanced ∧ s.Handles ⟨machine, .allocate size⟩ := by
  let d : Deed := ⟨machine, .allocate size⟩
  have hmeet : s.meet d
      = ((match ((s.world d).heap.obtain? (max size 1) Primitive.naturalAlign).1 with
          | some address => .ok (some address)
          | none => .error (.allocationFailed size Primitive.naturalAlign)),
        { s.world d with
          heap := ((s.world d).heap.obtain? (max size 1) Primitive.naturalAlign).2 }) := by
    simp only [Desk.meet, d, Call.act, RawSource.FromHeap.allocate, Region.run_bind_pure,
      granted_run]
    cases ((s.world d).heap.obtain? (max size 1) Primitive.naturalAlign).1 with
    | none => rfl
    | some address => rfl
  have names : Demand.AllName (s.world d).heap (d.call.demands (s.meet d).1) :=
    ⟨trivial, trivial⟩
  obtain ⟨hmemory, ⟨herror, balanced⟩ | ⟨address, hok, balanced⟩⟩ :=
    meet_of_obtain .plain ok honest (by decide) (Nat.dvd_refl _) hmeet
  · refine ⟨?_, Or.inr herror, hmemory, after_asks _ _, names⟩
    rw [after_of_given_nil rfl herror]
    exact balanced
  · refine ⟨?_, Or.inl ⟨address, hok⟩, hmemory, after_asks _ _, names⟩
    rw [after_of_given_nil rfl hok]
    exact balanced

theorem handles_allocateAligned (ok : s.Balanced) (honest : RawHeap.Honest s.heap.place)
    (machine : Machine) (size align : Nat) :
    (s.after ⟨machine, .allocateAligned size align⟩).Balanced ∧
      s.Handles ⟨machine, .allocateAligned size align⟩ := by
  let d : Deed := ⟨machine, .allocateAligned size align⟩
  by_cases hp : Word.isPowerOfTwo align = true
  · obtain ⟨hdvd, hunit⟩ := dvd_max_leastAlign hp
    have hmeet : s.meet d
        = ((match ((s.world d).heap.obtain? (max size 1)
              (max align RawSource.leastAlign)).1 with
            | some address => .ok (some address)
            | none => .error (.allocationFailed size align)),
          { s.world d with
            heap := ((s.world d).heap.obtain? (max size 1)
              (max align RawSource.leastAlign)).2 }) := by
      simp only [Desk.meet, d, Call.act, RawSource.FromHeap.allocateAligned, hp, if_true,
        Region.run_bind_pure, granted_run]
      cases ((s.world d).heap.obtain? (max size 1) (max align RawSource.leastAlign)).1 with
      | none => rfl
      | some address => rfl
    have answers : ∀ {answer : Except HostError (Option Nat)},
        (∃ address, answer = .ok (some address)) ∨ answer = .error (.allocationFailed size align) →
          d.call.CanAnswer answer := by
      intro answer h
      simpa only [Call.CanAnswer, d, hp, if_true] using h
    have names : Demand.AllName (s.world d).heap (d.call.demands (s.meet d).1) := by
      simp only [Call.demands, d, hp, if_true]
      exact ⟨trivial, trivial⟩
    obtain ⟨hmemory, ⟨herror, balanced⟩ | ⟨address, hok, balanced⟩⟩ :=
      meet_of_obtain .aligned ok honest hunit hdvd hmeet
    · refine ⟨?_, answers (Or.inr herror), hmemory, after_asks _ _, names⟩
      rw [after_of_given_nil rfl herror]
      exact balanced
    · refine ⟨?_, answers (Or.inl ⟨address, hok⟩), hmemory, after_asks _ _, names⟩
      rw [after_of_given_nil rfl hok]
      exact balanced
  · have hanswer : (s.meet d).1 = .error (.invalidAlignment align) := by
      simp only [Desk.meet, d, Call.act, RawSource.FromHeap.allocateAligned, hp,
        Region.run_bind_pure]
      rfl
    have hheap : (s.meet d).2.heap = (s.world d).heap := by
      simp only [Desk.meet, d, Call.act, RawSource.FromHeap.allocateAligned, hp,
        Region.run_bind_pure]
      rfl
    have hmemory : (s.meet d).2.heap.memory = machine.heap.memory := by
      rw [hheap]
      rfl
    have hblocks : (s.meet d).2.heap.blocks = s.heap.blocks := by
      rw [hheap]
      rfl
    have answers : d.call.CanAnswer (s.meet d).1 := by
      simp only [Call.CanAnswer, d, hp]
      exact hanswer
    have names : Demand.AllName (s.world d).heap (d.call.demands (s.meet d).1) := by
      simp only [Call.demands, d, hp]
      trivial
    refine ⟨?_, answers, hmemory, after_asks _ _, names⟩
    rw [after_of_given_nil rfl hanswer]
    exact ok.of_blocks hblocks

/-- A block is found by its address. -/
theorem Desk.Balanced.blockAt? (ok : s.Balanced) (hx : x ∈ s.held) :
    s.heap.blockAt? x.address = some x.block := by
  unfold RawHeap.blockAt?
  rw [ok.blocks, List.find?_map]
  cases hfind : s.held.find? ((fun b : Block => b.start == x.address) ∘ Holding.block) with
  | none =>
      have hmissing := List.find?_eq_none.mp hfind x hx
      simp [Holding.block] at hmissing
  | some y =>
      have hy : y.address = x.address := by simpa [Holding.block] using List.find?_some hfind
      obtain rfl := ok.eq_of_address (List.mem_of_find?_eq_some hfind) hx hy
      rfl

/-- A block that is moved leaves the bytes alone that lie apart from its new place. -/
theorem transfer_byteAt_of_apart {m : Memory} {target source length size a : Nat}
    (hlength : length ≤ size) {b : Block} (apart : Block.Apart ⟨target, size⟩ b)
    (ha : b.start ≤ a ∧ a < b.stop) :
    (m.transfer target source length).byteAt a = m.byteAt a := by
  rw [Memory.transfer_byteAt, if_neg]
  unfold Block.Apart Block.stop at apart
  unfold Block.stop at ha
  simp only at apart
  omega

theorem handles_resize (ok : s.Balanced) (honest : RawHeap.Honest s.heap.place)
    (machine : Machine) (size : Nat) (hx : x ∈ s.held) :
    (s.after ⟨machine, .resize x.address size⟩).Balanced ∧
      s.Handles ⟨machine, .resize x.address size⟩ := by
  let d : Deed := ⟨machine, .resize x.address size⟩
  let h := (s.world d).heap
  have hfreed := ok.freed x.address
  have hblocks : (h.free x.address).blocks = (without s.held [x.address]).map Holding.block :=
    hfreed.blocks
  have hkept : ((h.blockAt? x.address).map Block.size).getD 0 = max x.size 1 := by
    rw [show h.blockAt? x.address = some x.block from ok.blockAt? hx]
    rfl
  have hstart : x.address ∈ h.blocks.map Block.start := ok.mem_starts hx
  have pos : 0 < max size 1 := Nat.lt_of_lt_of_le Nat.one_pos (Nat.le_max_right _ _)
  have natural : Word.isPowerOfTwo Primitive.naturalAlign = true := by decide
  rcases reallocate?_cases (h := h) x.address honest pos natural with
    ⟨hnone, hsame, hmemory⟩ | ⟨target, hsome, hnew, hmemory, hpos, haligned, hapart⟩
  · -- The block is where it was, and now it is freed.
    have hmeet : s.meet d = (.error (.allocationFailed size Primitive.naturalAlign),
        { s.world d with
          heap := (h.reallocate? x.address (max size 1) Primitive.naturalAlign).2.free
            x.address }) := by
      simp only [Desk.meet, d, Call.act, Region.run_bind_pure, resize_run]
      rw [show (s.world d).heap = h from rfl, hnone]
      rfl
    have hanswer : (s.meet d).1 = .error (.allocationFailed size Primitive.naturalAlign) := by
      rw [hmeet]
    have hheap : (s.meet d).2.heap
        = (h.reallocate? x.address (max size 1) Primitive.naturalAlign).2.free x.address := by
      rw [hmeet]
    have names : Demand.AllName h (d.call.demands (s.meet d).1) := by
      rw [hanswer]
      refine ⟨hstart, ?_, trivial⟩
      show x.address ∈ (h.reallocate? x.address (max size 1) Primitive.naturalAlign).2.blocks.map
        Block.start
      rw [hsame]
      exact hstart
    have moves : d.call.Moves s.held machine.heap.memory (s.after d).heap.memory
        (s.meet d).1 := by
      rw [hanswer]
      exact (congrArg RawHeap.memory hheap).trans hmemory
    refine ⟨?_, Or.inr hanswer, moves, after_asks _ _, names⟩
    unfold Desk.after Call.holdings
    rw [hanswer]
    refine hfreed.of_blocks ?_
    rw [hheap]
    exact congrArg (List.eraseP (·.start == x.address)) hsame
  · have hmeet : s.meet d = (.ok (some target),
        { s.world d with
          heap := (h.reallocate? x.address (max size 1) Primitive.naturalAlign).2 }) := by
      simp only [Desk.meet, d, Call.act, Region.run_bind_pure, resize_run]
      rw [show (s.world d).heap = h from rfl, hsome]
      rfl
    have hanswer : (s.meet d).1 = .ok (some target) := by rw [hmeet]
    have hheap : (s.meet d).2.heap
        = (h.reallocate? x.address (max size 1) Primitive.naturalAlign).2 := by rw [hmeet]
    have names : Demand.AllName h (d.call.demands (s.meet d).1) := by
      rw [hanswer]
      exact ⟨hstart, trivial⟩
    have hafter : (s.after d).heap.memory
        = h.memory.transfer target x.address (min (max x.size 1) (max size 1)) := by
      rw [← hkept, ← hmemory]
      exact congrArg RawHeap.memory hheap
    have moves : d.call.Moves s.held machine.heap.memory (s.after d).heap.memory
        (s.meet d).1 := by
      rw [hanswer, hafter]
      refine ⟨?_, ?_⟩
      · intro y hy hat i hi
        obtain rfl := ok.eq_of_address hy hx hat
        rw [Memory.transfer_byteAt, if_pos (by omega), Nat.add_sub_cancel_left]
        rfl
      · intro y hy i hi
        have hblock : y.block ∈ (h.free x.address).blocks := by
          rw [hblocks]
          exact List.mem_map_of_mem hy
        refine transfer_byteAt_of_apart (Nat.min_le_right _ _) (hapart _ hblock) ?_
        unfold Block.stop Holding.block
        simp only
        omega
    refine ⟨?_, Or.inl ⟨target, hanswer⟩, moves, after_asks _ _, names⟩
    unfold Desk.after Call.holdings
    rw [hanswer]
    refine hfreed.placed (x := ⟨target, .plain, size, Primitive.naturalAlign⟩) ?_ hpos haligned
      hapart
    rw [hheap]
    exact hnew

theorem handles_release (ok : s.Balanced) (machine : Machine) (hx : x ∈ s.held) :
    (s.after ⟨machine, .release x.allocation⟩).Balanced ∧
      s.Handles ⟨machine, .release x.allocation⟩ :=
  ⟨(ok.freed x.address).of_blocks rfl, rfl, rfl, rfl, ok.mem_starts hx, trivial⟩

theorem memory_foldl_free (addresses : List Nat) (h : RawHeap) :
    ((addresses.map Demand.free).foldl Demand.serve h).memory = h.memory := by
  induction addresses generalizing h with
  | nil => rfl
  | cons first rest ih => exact ih (h.free first)

theorem handles_releaseBatch (ok : s.Balanced) (machine : Machine) {entries : List Allocation}
    (once : entries.Nodup) (mem : ∀ a ∈ entries, ∃ x ∈ s.held, x.allocation = a) :
    (s.after ⟨machine, .releaseBatch entries⟩).Balanced ∧
      s.Handles ⟨machine, .releaseBatch entries⟩ := by
  let d : Deed := ⟨machine, .releaseBatch entries⟩
  let addresses := entries.map Allocation.address
  have hdemands : (entries.map fun a => Demand.free a.address) = addresses.map Demand.free := by
    simp only [addresses, List.map_map]
    rfl
  have hmeet : s.meet d = (.ok none, { s.world d with
      heap := (addresses.map Demand.free).foldl Demand.serve (s.world d).heap }) := by
    rw [← hdemands]
    simp only [Desk.meet, d, Call.act, RawSource.releaseBatch, Act.run_bind, releaseAll_run,
      Act.run_pure]
  have hheap : (s.meet d).2.heap
      = (addresses.map Demand.free).foldl Demand.serve (s.world d).heap := by rw [hmeet]
  have hanswer : (s.meet d).1 = .ok none := by rw [hmeet]
  have hmemory : (s.after d).heap.memory = machine.heap.memory := by
    rw [show (s.after d).heap = (s.meet d).2.heap from rfl, hheap]
    exact memory_foldl_free addresses _
  -- What is handed over twice at one address is one holding, and named once.
  have honce : addresses.Nodup := by
    refine once.map_on ?_
    intro a ha b hb hsame
    obtain ⟨x, hx, rfl⟩ := mem a ha
    obtain ⟨y, hy, rfl⟩ := mem b hb
    rw [ok.eq_of_address hx hy hsame]
  have hheld : ∀ address ∈ addresses, ∃ x ∈ s.held, x.address = address := by
    intro address haddress
    obtain ⟨a, ha, rfl⟩ := List.mem_map.mp haddress
    obtain ⟨x, hx, rfl⟩ := mem a ha
    exact ⟨x, hx, rfl⟩
  have okw : Desk.Balanced ⟨(s.world d).heap, s.held⟩ := ok.of_blocks rfl
  have names : Demand.AllName (s.world d).heap (d.call.demands (s.meet d).1) := by
    rw [show d.call.demands (s.meet d).1 = addresses.map Demand.free from hdemands]
    exact okw.allName_free honce hheld
  refine ⟨?_, hanswer, hmemory, after_asks _ _, names⟩
  unfold Desk.after Call.holdings
  rw [hheap]
  exact okw.freedAll addresses

/-- **One call keeps the balance**, if it keeps to the contract. -/
theorem Desk.Balanced.after (ok : s.Balanced) (honest : RawHeap.Honest s.heap.place)
    (respects : d.call.Respects s.held) : (s.after d).Balanced ∧ s.Handles d := by
  obtain ⟨machine, call⟩ := d
  cases call with
  | allocate size => exact handles_allocate ok honest machine size
  | allocateAligned size align => exact handles_allocateAligned ok honest machine size align
  | resize address size =>
      obtain ⟨x, hx, hsame⟩ := respects
      obtain ⟨rfl, -⟩ := Allocation.mk.inj hsame
      exact handles_resize ok honest machine size hx
  | release a =>
      obtain ⟨x, hx, rfl⟩ := respects
      exact handles_release ok machine hx
  | releaseBatch entries =>
      obtain ⟨once, mem⟩ := respects
      exact handles_releaseBatch ok machine once mem

theorem after_place (s : Desk) (d : Deed) : (s.after d).heap.place = s.heap.place := by
  show (d.call.act.run (s.world d)).2.heap.place = _
  rw [act_serves, serve_place]
  rfl

/-! ### Any number of calls -/

/-- What all the calls of a run ask of C, one after another. -/
def Desk.demands (s : Desk) : List Deed → List Demand
  | [] => []
  | d :: later => d.call.demands (s.meet d).1 ++ (s.after d).demands later

/-- The record of a run is what its calls have asked. -/
theorem run_asks (s : Desk) (ds : List Deed) :
    (s.run ds).heap.demands = s.heap.demands ++ s.demands ds := by
  induction ds generalizing s with
  | nil => exact (List.append_nil _).symm
  | cons d later ih =>
      rw [Desk.demands, ← List.append_assoc, ← after_asks]
      exact ih (s.after d)

/-- A run keeps the balance, and whatever it names to C is in use then.  The heap `h` has the
blocks of the desk; its bytes are its own, as they are no part of the balance. -/
theorem Desk.Balanced.run (ok : s.Balanced) (honest : RawHeap.Honest s.heap.place)
    {ds : List Deed} (respects : s.Respects ds) {h : RawHeap} (same : RawHeap.Alike s.heap h) :
    (s.run ds).Balanced ∧ RawHeap.Honest (s.run ds).heap.place ∧
      Demand.AllName h (s.demands ds) := by
  induction ds generalizing s h with
  | nil => exact ⟨ok, honest, trivial⟩
  | cons d later ih =>
      obtain ⟨first, rest⟩ := respects
      obtain ⟨balanced, handles⟩ := ok.after honest first
      have sameWorld : RawHeap.Alike (s.world d).heap h := ⟨same.place, same.requests, same.blocks⟩
      have hserves : (s.after d).heap
          = (d.call.demands (s.meet d).1).foldl Demand.serve (s.world d).heap :=
        act_serves d.call (s.world d)
      have sameAfter := hserves ▸ sameWorld.serveAll (d.call.demands (s.meet d).1)
      obtain ⟨balanced', honest', names⟩ := ih balanced (after_place s d ▸ honest) rest sameAfter
      exact ⟨balanced', honest', Demand.allName_append (sameWorld.allName handles.names) names⟩

/-- **Raw memory is neither lost nor freed twice.**  Whatever the heap is and whatever its
caller keeps to, a call asks of C what it has to, and nothing else happens to the heap.

Now the heap places blocks as C does, and may refuse any request.  However its caller takes
memory, resizes it and gives it back, as long as it keeps to the contract, the blocks in use are
at all times those that it holds, each with the size and the alignment that it asked for, and
all that the heap has on record named a block in use when its turn came.  So each further call

- is answered with an address, or with the refusal of what was asked;
- adds what it grants and takes away what was handed over, a block that could not be resized
  and the entries of a batch included, and nothing else;
- moves bytes only if it resizes, as many as both blocks have; and
- gets on record what it has to ask of C, a free of the block that could not be resized and of
  each entry of a batch once, and names only blocks in use. -/
theorem run_custody {h : RawHeap} (honest : RawHeap.Honest h.place) (unused : h.blocks = [])
    {ds : List Deed} (respects : Desk.Respects ⟨h, []⟩ ds) :
    let s := Desk.run ⟨h, []⟩ ds
    (∀ (call : Call) (w : World Unit), (call.act.run w).2.heap
      = (call.demands (call.act.run w).1).foldl Demand.serve w.heap) ∧
    s.Balanced ∧
    (∃ asked, s.heap.demands = h.demands ++ asked ∧ Demand.AllName h asked) ∧
    ∀ d, d.call.Respects s.held → (s.after d).Balanced ∧ s.Handles d := by
  intro s
  have fresh : Desk.Balanced ⟨h, []⟩ := ⟨unused, by rw [unused]; exact .nil, nofun⟩
  obtain ⟨balanced, placing, names⟩ := fresh.run honest respects ⟨rfl, rfl, rfl⟩
  exact ⟨act_serves, balanced, ⟨_, run_asks _ ds, names⟩,
    fun d hd => balanced.after placing hd⟩

/-- A heap that refuses its third request.  No bytes are asked for and get a block; a small
alignment is raised; and the block that cannot be resized is freed, once. -/
theorem run_custody_of_refused_resize :
    let h : RawHeap := { place := fun request blocks size align =>
      if request = 2 then none else RawHeap.behindAll request blocks size align }
    let ds : List Deed := [⟨{}, .allocate 0⟩, ⟨{}, .allocateAligned 32 4⟩]
    let s := Desk.run ⟨h, []⟩ ds
    let d : Deed := ⟨{}, .resize 0x10000 100⟩
    RawHeap.Honest h.place ∧ h.blocks = [] ∧ Desk.Respects ⟨h, []⟩ ds ∧
      s.heap.blocks = [⟨0x10008, 32⟩, ⟨0x10000, 1⟩] ∧ d.call.Respects s.held ∧
      (s.meet d).1 = .error (.allocationFailed 100 16) ∧
      (s.after d).heap.demands = [.obtain 1 16, .obtain 32 8, .reallocate 0x10000 100 16,
        .free 0x10000] ∧
      Demand.AllName (s.world d).heap [.reallocate 0x10000 100 16, .free 0x10000] ∧
      (s.after d).heap.blocks = [⟨0x10008, 32⟩] := by
  intro h ds s d
  have honest : RawHeap.Honest h.place := by
    intro request blocks size align start pos aligned hplace
    by_cases hthird : request = 2
    · simp [h, hthird] at hplace
    · simp only [h, hthird, if_false] at hplace
      exact RawHeap.behindAll_honest request blocks size align start pos aligned hplace
  have respects : Desk.Respects ⟨h, []⟩ ds := ⟨trivial, trivial, trivial⟩
  have hheld : s.held = [⟨0x10008, .aligned, 32, 4⟩, ⟨0x10000, .plain, 0, 16⟩] := by decide
  have hd : d.call.Respects s.held := by
    rw [hheld]
    exact ⟨⟨0x10000, .plain, 0, 16⟩, by simp, rfl⟩
  have hasked : s.heap.demands = [.obtain 1 16, .obtain 32 8] := by decide
  have hanswer : (s.meet d).1 = .error (.allocationFailed 100 16) := by rfl
  have hdemands : d.call.demands (s.meet d).1 = [.reallocate 0x10000 100 16, .free 0x10000] := by
    rw [hanswer]
    rfl
  have hafter : (s.after d).held = [⟨0x10008, .aligned, 32, 4⟩] := by decide
  obtain ⟨-, balanced, -, next⟩ := run_custody honest rfl respects
  obtain ⟨balanced', handles⟩ := next d hd
  have asks := handles.asks
  have names := handles.names
  rw [hdemands] at asks names
  refine ⟨honest, rfl, respects, ?_, hd, hanswer, ?_, names, ?_⟩
  · exact balanced.blocks.trans (congrArg (List.map Holding.block) hheld)
  · rw [asks, hasked]
    rfl
  · exact balanced'.blocks.trans (congrArg (List.map Holding.block) hafter)

end Custody

end PageArena
