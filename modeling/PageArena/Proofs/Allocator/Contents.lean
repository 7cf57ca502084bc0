/-
What is written through a live span stays there.

A holder writes to the bytes of a span and expects to find them again, whatever is done to the
region in between by others: slices, checkpoints, rollbacks, pools that begin and end, and
pages that are given back to the system, whose contents are lost.  A scene is a region with
its pools, the memory beneath, and beside it what the holders remember: which spans are live,
and what was last written through each of them.

What they remember is always what memory holds (`live_contents_kept`).  An operation erases
nothing below the cursor that it leaves, and there is where the live spans are; a span is
zeroed when it is given, and then it lies above all others; and no holder writes over the
bytes of another, since live spans lie apart.
-/
import Mathlib
import PageArena.Proofs.Allocator.LiveSpans
import PageArena.Proofs.Region.Erasure

namespace PageArena

open OsCall (Record)

/-! ### What pools do to memory -/

namespace Pool

variable {t t' : Tenancy} {clock base : Nat} {made : List Record}

/-- An act on the region beneath a pool touches the bytes that it touches alone. -/
theorem onRegion_erases {ε α : Type} {act : Act ε Region α} (h : Act.Erases act) :
    Act.Erases (onRegion act) := h.within _ _

theorem allocate_erases (size align : Nat) : Act.Erases (allocate size align) := by
  refine .self_bind fun t => ?_
  have slices := onRegion_erases (Region.slice_erases size align)
  cases t.pool with
  | closed => exact .raise _
  | active handle => exact slices
  | fresh =>
      refine .bind (onRegion_erases Region.checkpoint_erases) fun handle => ?_
      exact .bind (.update _) fun _ => slices

theorem close_erases : Act.Erases close := by
  refine .self_bind fun t => .bind (.update _) fun _ => ?_
  cases t.pool with
  | closed => exact .raise _
  | fresh => exact .pure ()
  | active handle => exact onRegion_erases (Region.rollback_erases handle)

theorem discard_erases : Act.Erases discard := by
  refine .self_bind fun t => ?_
  by_cases hclosed : t.pool.isClosed = true
  · simp only [if_pos hclosed]
    exact .pure ()
  · simp only [if_neg hclosed]
    refine .bind close_erases.attempt fun answer => ?_
    cases answer with
    | ok u => exact .pure ()
    | error e => exact .emit _

theorem Allocates.erasesAbove {size align : Nat} {answer : Except ArenaError Span}
    (hp : t.region.phase = .reserved base) (h : Allocates size align t clock answer t' made)
    (hopen : t'.region.phase ≠ .closed) : Region.ErasesAbove base t'.region made := by
  cases h with
  | closed h => exact ⟨hp, nofun⟩
  | active h slices => exact slices.erasesAbove hp hopen
  | unstarted h checkpoints => exact checkpoints.erasesAbove hp
  | started h checkpoints slices =>
      have sliced := slices.erasesAbove (checkpoints.erasesAbove hp).phase hopen
      cases checkpoints with
      | pushed obtains =>
          obtain ⟨-, rfl⟩ := obtains.of_reserved hp
          exact sliced

theorem Closes.erasesAbove {answer : Except ArenaError Unit} (ok : Region.Sound t.region)
    (hp : t.region.phase = .reserved base) (h : Closes t clock answer t' made)
    (hopen : t'.region.phase ≠ .closed) : Region.ErasesAbove base t'.region made := by
  cases h with
  | again h => exact ⟨hp, nofun⟩
  | unused h => exact ⟨hp, nofun⟩
  | rolled h rolls => exact rolls.erasesAbove ok hp hopen

end Pool

namespace Kernel

/-- A byte that no call erased is as it was. -/
theorem Erases.byteAt {k k' : Kernel} (h : Erases k k') {a : Nat}
    (untouched : ∀ record ∈ k'.calls.drop k.calls.length, a ∉ record.erased) :
    k'.memory.byteAt a = k.memory.byteAt a := by
  obtain ⟨made, hcalls, hmade⟩ := h
  rw [hcalls, List.drop_left] at untouched
  exact hmade a untouched

end Kernel

namespace Commons

variable {c : Commons} {clock base : Nat} {made : List Record}

/-- What memory holds after an occasion. -/
def left (c : Commons) (o : Occasion) : Memory :=
  match o.deed with
  | .ask request => (c.region.meet ⟨o.machine, request⟩).2.kernel.memory
  | .errand p errand => (c.meet ⟨o.machine, p, errand⟩).2.kernel.memory
  | .discard => (c.discarded o.machine).kernel.memory

/-- An errand touches the bytes that its calls erase, and those of the span that it gives. -/
theorem Errand.byteAt (errand : Errand) (w : World Tenancy) {a : Nat}
    (untouched : ∀ record ∈ (errand.act.run w).2.kernel.calls.drop w.kernel.calls.length,
      a ∉ record.erased)
    (outside : ∀ span, (errand.act.run w).1 = .ok (some span) →
      ¬ (span.start ≤ a ∧ a < span.stop)) :
    (errand.act.run w).2.kernel.memory.byteAt a = w.kernel.memory.byteAt a := by
  cases errand with
  | allocate size align zeroed =>
      have allocates := Pool.allocate_erases size align w
      cases zeroed with
      | false =>
          simp only [Errand.act, Bool.false_eq_true, if_false, Region.run_bind_pure] at untouched ⊢
          exact allocates.byteAt untouched
      | true =>
          simp only [Errand.act, if_true, Region.run_bind_pure] at untouched outside ⊢
          unfold Pool.allocateZeroed at untouched outside ⊢
          rw [Act.run_bind] at untouched outside ⊢
          rcases hrun : (Pool.allocate size align).run w with ⟨e | span, w₁⟩
          · rw [hrun] at untouched allocates
            exact allocates.byteAt untouched
          · rw [hrun] at untouched outside allocates
            have kept := allocates.byteAt untouched
            have houtside : ¬ (span.start ≤ a ∧ a < span.start + span.length) := outside span rfl
            show (w₁.kernel.memory.fill span.start span.length 0).byteAt a = _
            rw [Memory.fill_byteAt, if_neg houtside]
            exact kept
  | close =>
      simp only [Errand.act, Region.run_bind_pure] at untouched ⊢
      exact (Pool.close_erases w).byteAt untouched
  | drop =>
      simp only [Errand.act, Region.run_bind_pure, Act.run_mapError] at untouched ⊢
      exact (Pool.discard_erases w).byteAt untouched

/-- An occasion touches no other byte than those. -/
theorem left_byteAt (c : Commons) (o : Occasion) {a : Nat}
    (untouched : ∀ record ∈ c.made o, a ∉ record.erased)
    (outside : ∀ span, c.given? o = some span → ¬ (span.start ≤ a ∧ a < span.stop)) :
    (c.left o).byteAt a = o.machine.kernel.memory.byteAt a := by
  obtain ⟨machine, deed⟩ := o
  cases deed with
  | ask request =>
      exact (Region.act_erases request { machine with self := c.region }).byteAt untouched
  | discard => exact (Region.discard_erases { machine with self := c.region }).byteAt untouched
  | errand p errand =>
      refine errand.byteAt _ untouched ?_
      intro span hspan
      refine outside span ?_
      show (Except.toOption (errand.act.run _).1).join = some span
      rw [hspan]
      rfl

/-- **Nothing below the cursor is erased** on an occasion that finds the region with its base,
and leaves it open. -/
theorem next_erasesAbove (ok : Region.Sound c.region) (o : Occasion)
    (hp : c.region.phase = .reserved base) (hopen : (c.next o).region.phase ≠ .closed) :
    Region.ErasesAbove base (c.next o).region (c.made o) := by
  have happens := next_happens ok o
  generalize c.made o = made at happens ⊢
  generalize (c.next o).region = r' at happens hopen ⊢
  generalize o.deed = deed at happens
  cases happens with
  | ask h => exact h.erasesAbove ok hp hopen
  | errand h =>
      cases h with
      | allocate h => exact h.erasesAbove hp hopen
      | close h => exact h.erasesAbove ok hp hopen
      | drop h => exact h.erasesAbove ok hp hopen
  | discard h =>
      cases h with
      | unheld h => exact absurd hp (h base)
      | released held => exact absurd rfl hopen

theorem start_of_given (ok : Region.Sound c.region) {o : Occasion} {span : Span}
    (gives : c.given? o = some span) (hp : c.region.phase = .reserved base) :
    base + c.region.cursor ≤ span.start := by
  obtain ⟨base', hbase', hstart⟩ := next_of_given ok gives
  have hopen : (c.next o).region.phase ≠ .closed := by
    rw [hbase']
    exact nofun
  have hbase := (next_erasesAbove ok o hp hopen).phase
  obtain rfl := Region.Phase.reserved.inj (hbase'.symm.trans hbase)
  exact hstart

/-- **No byte of a live span is touched**, as long as it stays live. -/
theorem left_byteAt_of_live {l : Ledger} (fits : l.Fits c.region) (ok : Region.Sound c.region)
    {o : Occasion} {h : Holding} (before : h ∈ l.live) (after : h ∈ (c.noted l o).live)
    {i : Nat} (hi : i < h.span.length) :
    (c.left o).byteAt (h.span.start + i) = o.machine.kernel.memory.byteAt (h.span.start + i) := by
  obtain ⟨base, hbase, -, hbelow⟩ := fits.below_cursor before hi
  obtain ⟨base', hbase', -, hbelow'⟩ := (fits_next fits ok o).below_cursor after hi
  have hopen : (c.next o).region.phase ≠ .closed := by
    rw [hbase']
    exact nofun
  have erases := next_erasesAbove ok o hbase hopen
  obtain rfl := Region.Phase.reserved.inj (hbase'.symm.trans erases.phase)
  refine left_byteAt c o ?_ ?_
  · intro record hrecord ha
    exact absurd (erases.above record hrecord _ ha) (Nat.not_le.mpr hbelow')
  · rintro span gives ⟨hstart, -⟩
    have hlow := start_of_given ok gives hbase
    omega

end Commons

/-! ### Scenes -/

/-- Whether an address belongs to the reservation of the region. -/
def Region.covers (r : Region) (a : Nat) : Bool :=
  match r.phase with
  | .reserved base => base ≤ a && a < base + r.total
  | .unreserved | .closed => false

/-- The occasion, on a machine that holds this memory. -/
def Commons.Occasion.upon (o : Commons.Occasion) (memory : Memory) : Commons.Occasion :=
  { o with machine := { o.machine with kernel := { o.machine.kernel with memory := memory } } }

/-- A region with its pools, the memory beneath, and what the holders of spans remember. -/
structure Scene where
  commons : Commons
  memory : Memory
  ledger : Ledger := {}
  /-- What each span holds, counted from its start, by the moment at which it was given: the
  bytes that it was given with, and over them what was written through it. -/
  contents : Nat → Memory := fun _ => Memory.zero

namespace Scene

open Commons (Occasion)

/-- What can happen. -/
inductive Move where
  | deed (o : Occasion)
  /-- Bytes are written through the span that was given at that moment. -/
  | write (moment offset : Nat) (bytes : Array UInt8)
  /-- The memory beside the reservation comes to hold something else. -/
  | elsewhere (memory : Memory)

/-- The bytes from an address on. -/
def view (memory : Memory) (start : Nat) : Memory := ⟨fun i => memory.byteAt (start + i)⟩

/-- The contents once an occasion has left a memory, and has given a span or none. -/
def remember (s : Scene) (memory : Memory) (given : Option Span) (moment : Nat) : Memory :=
  match given with
  | some span => if moment < s.ledger.moment then s.contents moment else view memory span.start
  | none => s.contents moment

/-- The span that was given at a moment, if it is live. -/
def liveAt? (s : Scene) (moment : Nat) : Option Holding :=
  s.ledger.live.find? (·.moment == moment)

/-- Bytes are written through a span. -/
def written (s : Scene) (h : Holding) (offset : Nat) (bytes : Array UInt8) : Scene :=
  { s with
    memory := s.memory.store (h.span.start + offset) bytes
    contents := fun moment =>
      if moment = h.moment then (s.contents moment).store offset bytes else s.contents moment }

/-- The scene after a move.  Only a span that is live can be written through, and only within
its length. -/
def next (s : Scene) : Move → Scene
  | .deed o =>
    let o := o.upon s.memory
    { commons := s.commons.next o
      memory := s.commons.left o
      ledger := s.commons.noted s.ledger o
      contents := s.remember (s.commons.left o) (s.commons.given? o) }
  | .write moment offset bytes =>
    match s.liveAt? moment with
    | none => s
    | some h => if offset + bytes.size ≤ h.span.length then s.written h offset bytes else s
  | .elsewhere memory =>
    { s with memory :=
        ⟨fun a => if s.commons.region.covers a then s.memory.byteAt a else memory.byteAt a⟩ }

/-- The scene after a run. -/
def through (s : Scene) (moves : List Move) : Scene := moves.foldl next s

/-- A region that was just made, upon some memory. -/
def of (r : Region) (memory : Memory) : Scene := { commons := .of r, memory := memory }

/-- The region stays open, and its stack as high as that. -/
def StaysAbove (floor : Nat) (s : Scene) : List Move → Prop
  | [] => s.commons.region.phase ≠ .closed ∧ floor ≤ s.commons.region.depth
  | m :: ms => (s.commons.region.phase ≠ .closed ∧ floor ≤ s.commons.region.depth) ∧
      (s.next m).StaysAbove floor ms

/-- What the holders remember is what memory holds. -/
structure Faithful (s : Scene) : Prop where
  sound : Region.Sound s.commons.region
  fits : s.ledger.Fits s.commons.region
  numbered : s.ledger.Numbered
  bytes : ∀ h ∈ s.ledger.live, ∀ i < h.span.length,
    s.memory.byteAt (h.span.start + i) = (s.contents h.moment).byteAt i

variable {s : Scene}

namespace Faithful

theorem eq_of_moment (f : s.Faithful) {h h' : Holding} (hh : h ∈ s.ledger.live)
    (hh' : h' ∈ s.ledger.live) (same : h.moment = h'.moment) : h = h' := by
  have symm : Std.Symm fun h h' : Holding => h.moment ≠ h'.moment := ⟨fun _ _ => Ne.symm⟩
  have differ : s.ledger.live.Pairwise fun h h' => h.moment ≠ h'.moment :=
    f.numbered.distinct.imp fun hlt => Nat.ne_of_gt hlt
  by_contra hne
  exact differ.forall hh hh' hne same

theorem remember_of_lt {moment : Nat} (h : moment < s.ledger.moment) (memory : Memory)
    (given : Option Span) : s.remember memory given moment = s.contents moment := by
  cases given with
  | none => rfl
  | some span => exact if_pos h

theorem remember_of_ge {moment : Nat} (h : s.ledger.moment ≤ moment) (memory : Memory)
    (span : Span) : s.remember memory (some span) moment = view memory span.start :=
  if_neg (Nat.not_lt.mpr h)

/-- **Something is done to the region**: what stays live keeps its bytes, and what is given is
remembered as it is. -/
theorem deed (f : s.Faithful) (o : Occasion) : (s.next (.deed o)).Faithful := by
  refine ⟨(Commons.next_continues f.sound _).sound f.sound,
    Commons.fits_next f.fits f.sound (o.upon s.memory), Ledger.Numbered.attend f.numbered _, ?_⟩
  intro h hh i hi
  show (s.commons.left (o.upon s.memory)).byteAt (h.span.start + i)
    = (s.remember _ (s.commons.given? (o.upon s.memory)) h.moment).byteAt i
  rcases Ledger.mem_live_attend hh with hold | ⟨hgiven, hmoment⟩
  · rw [remember_of_lt (f.numbered.past h hold), ← f.bytes h hold i hi]
    exact Commons.left_byteAt_of_live f.fits f.sound hold hh hi
  · rw [hgiven, remember_of_ge hmoment]
    rfl

/-- **Bytes are written through a live span**, and no other live span shares one of them. -/
theorem written (f : s.Faithful) {h₀ : Holding} (hlive : h₀ ∈ s.ledger.live) {offset : Nat}
    {bytes : Array UInt8} (inside : offset + bytes.size ≤ h₀.span.length) :
    (s.written h₀ offset bytes).Faithful := by
  refine ⟨f.sound, f.fits, f.numbered, ?_⟩
  intro h hh i hi
  have kept := f.bytes h hh i hi
  show (s.memory.store (h₀.span.start + offset) bytes).byteAt (h.span.start + i)
    = (if h.moment = h₀.moment then (s.contents h.moment).store offset bytes
        else s.contents h.moment).byteAt i
  by_cases hsame : h.moment = h₀.moment
  · obtain rfl := f.eq_of_moment hh hlive hsame
    have hshift : h.span.start + i - (h.span.start + offset) = i - offset := by omega
    have hrange : h.span.start + offset ≤ h.span.start + i ∧
        h.span.start + i < h.span.start + offset + bytes.size ↔
          offset ≤ i ∧ i < offset + bytes.size := by omega
    simp only [if_true, Memory.store_byteAt, hshift, hrange, kept]
  · rw [if_neg hsame, Memory.store_byteAt, if_neg ?_]
    · exact kept
    · rintro ⟨hlow, hhigh⟩
      have hne : h ≠ h₀ := fun heq => hsame (congrArg Holding.moment heq)
      have hsolid := f.fits.mem_solid hh (by omega)
      have hsolid₀ := f.fits.mem_solid hlive (by omega)
      have hapart := f.fits.apart hsolid hsolid₀ hne
      unfold Span.Apart Span.stop at hapart
      omega

theorem write (f : s.Faithful) (moment offset : Nat) (bytes : Array UInt8) :
    (s.next (.write moment offset bytes)).Faithful := by
  simp only [next]
  split
  · exact f
  · rename_i h hfound
    split
    · rename_i inside
      exact f.written (List.mem_of_find?_eq_some hfound) inside
    · exact f

/-- **Memory changes beside the reservation**, where no live span is. -/
theorem elsewhere (f : s.Faithful) (memory : Memory) : (s.next (.elsewhere memory)).Faithful := by
  refine ⟨f.sound, f.fits, f.numbered, ?_⟩
  intro h hh i hi
  obtain ⟨base, hbase, hlow, hbelow⟩ := f.fits.below_cursor hh hi
  have hcovers : s.commons.region.covers (h.span.start + i) = true := by
    have hcursor := f.sound.cursor_le
    have htotal := f.sound.committed_le
    have hhigh : h.span.start + i < base + s.commons.region.total := by omega
    unfold Region.covers
    rw [hbase]
    simp [hlow, hhigh]
  show (if s.commons.region.covers (h.span.start + i) = true then _ else _) = _
  rw [if_pos hcovers]
  exact f.bytes h hh i hi

theorem step (f : s.Faithful) (m : Move) : (s.next m).Faithful := by
  cases m with
  | deed o => exact f.deed o
  | write moment offset bytes => exact f.write moment offset bytes
  | elsewhere memory => exact f.elsewhere memory

theorem run (f : s.Faithful) (moves : List Move) : (s.through moves).Faithful := by
  induction moves generalizing s with
  | nil => exact f
  | cons m ms ih => exact ih (f.step m)

theorem start {r : Region} (made : r.Made) (memory : Memory) : (of r memory).Faithful := by
  obtain ⟨-, -, -, -, -, hsaved⟩ := made.cases
  exact ⟨made.sound, .empty hsaved, .of_empty 0, nofun⟩

end Faithful

/-- Live until it is rolled back past: the run lemma of `Outlasts`. -/
theorem Faithful.outlasts {floor : Nat} {h : Holding} (f : s.Faithful)
    (lasts : s.ledger.Outlasts floor h) {moves : List Move} (stays : s.StaysAbove floor moves) :
    (s.through moves).ledger.Outlasts floor h := by
  induction moves generalizing s with
  | nil => exact lasts
  | cons m ms ih =>
      refine ih (f.step m) ?_ stays.2
      have high : (s.next m).commons.region.phase ≠ .closed ∧
          floor ≤ (s.next m).commons.region.depth := by
        cases ms with
        | nil => exact stays.2
        | cons m' ms => exact stays.2.1
      cases m with
      | deed o => exact lasts.attend f.numbered _ (f.deed o).fits high.1 high.2
      | elsewhere memory => exact lasts
      | write moment offset bytes =>
          simp only [next]
          split
          · exact lasts
          · split
            · exact lasts
            · exact lasts

/-- **What was written through a live span is what it holds.**  A region is used in any way,
by pools and directly, and bytes are written through its live spans; what memory holds beside
the reservation is anybody's.  At every moment each byte of each live span is the one that was
last written through this span, or that it was given with, if none was.

And a span that is given is live as long as the region is open and not rolled back past it:
the stack stays as high as it was when the span was given. -/
theorem live_contents_kept {r : Region} (made : r.Made) (memory : Memory) (moves : List Move) :
    let s := (of r memory).through moves
    (∀ h ∈ s.ledger.live, ∀ i < h.span.length,
      s.memory.byteAt (h.span.start + i) = (s.contents h.moment).byteAt i) ∧
    ∀ o span, s.commons.given? (o.upon s.memory) = some span →
      let given := s.next (.deed o)
      ∃ h ∈ given.ledger.live, h.span = span ∧ ∀ later,
        given.StaysAbove given.commons.region.depth later →
          h ∈ (given.through later).ledger.live := by
  intro s
  have f : s.Faithful := (Faithful.start made memory).run moves
  refine ⟨f.bytes, ?_⟩
  intro o span gives given
  obtain ⟨base, hbase, -⟩ := Commons.next_of_given f.sound gives
  have hopen : (s.commons.next (o.upon s.memory)).region.phase ≠ .closed := by
    rw [hbase]
    exact nofun
  have hledger : given.ledger = (s.ledger.restack s.commons.region given.commons.region).take
      (o.upon s.memory).deed.wanted.1 (o.upon s.memory).deed.wanted.2 span := by
    show s.commons.noted s.ledger (o.upon s.memory) = _
    rw [Commons.noted, gives, Ledger.attend_of_open hopen]
    rfl
  have f' : given.Faithful := f.deed o
  have fresh : given.ledger.pushed = [] ++ given.ledger.pushed := rfl
  rw [hledger]
  refine ⟨_, List.mem_cons_self, rfl, fun later stays => ?_⟩
  refine (f'.outlasts ⟨?_, [], given.ledger.pushed, fresh, f'.fits.length_pushed, nofun⟩ stays).1
  rw [hledger]
  exact List.mem_cons_self

/-- Pages are given back between the writing and the reading, and zeros are written next to it.
A pool takes five thousand bytes and writes to one of them; another one takes as many, for
which it has to make the third page accessible, zeroes them, and is closed. -/
theorem contents_kept_over_decommit :
    let moves : List Move :=
      [.deed ⟨{}, .errand 0 (.allocate 5000 1 false)⟩, .write 1 4999 #[7],
        .deed ⟨{}, .errand 1 (.allocate 5000 1 true)⟩, .deed ⟨{}, .errand 1 .close⟩]
    let s := (of Region.eager Memory.zero).through moves
    let span : Span := ⟨0x100000000000, 5000⟩
    Region.eager.Made ∧ s.commons.region.committed = 8192 ∧
      ∃ h ∈ s.ledger.live, h.span = span ∧ s.memory.byteAt (h.span.start + 4999) = 7 := by
  intro moves s span
  have made : Region.eager.Made :=
    ⟨12000, Region.eager.tuning, Region.eager.backend, ⟨{}, ()⟩, ⟨{}, ()⟩, rfl⟩
  have live : s.ledger.live = [⟨span, 5000, 1, 1⟩] := rfl
  have written : (s.contents 1).byteAt 4999 = 7 := rfl
  obtain ⟨kept, -⟩ := live_contents_kept made Memory.zero moves
  have mem : (⟨span, 5000, 1, 1⟩ : Holding) ∈ s.ledger.live := live ▸ List.mem_singleton_self _
  have held := kept ⟨span, 5000, 1, 1⟩ mem 4999 (by decide)
  exact ⟨made, by decide, _, mem, rfl, held.trans written⟩

end Scene

end PageArena
