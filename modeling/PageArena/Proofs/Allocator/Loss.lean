/-
What becomes of a region over a change of its pages that fails.

Pages are changed in the middle of an operation: before the cursor moves up, and after it went
back.  If that fails then nothing is known of the pages any more, and the region gives itself
up.  `Lost` is the account of it.  The failed call is the last but one that is made, and what
comes after it is the release of the whole reservation, the only one; the failure that is
answered is that of the failed call, whatever the release comes to.

There is no third way between that and no failure at all (`Unharmed`), for an operation on the
region itself and for one of a pool.  So whatever tells that a change failed, the number in its
record or a region that is closed though nobody asked for it, tells all of the account.

A region that is closed is inert.  No operation gets past its base, so it stays as it is and
makes no call, and its last holder has nothing to release.
-/
import Mathlib
import PageArena.Proofs.Allocator.Occasions
import PageArena.Proofs.Region.Access

namespace PageArena

open OsCall (Record)

/-- The error of an answer, if it is one. -/
def ArenaError.of? {α : Type} : Except ArenaError α → Option ArenaError
  | .ok _ => none
  | .error e => some e

namespace OsCall.Record

/-- For a call that changes pages: which one it is, and the number that it failed with, which
is zero if it succeeded. -/
def change? : Record → Option (OsCall × Int)
  | .mprotect _ _ _ result => some (.mprotect, -result)
  | .madvise _ _ result => some (.madvise, -result)
  | .mmap .. | .munmap .. => none

/-- A change of pages that failed with a number. -/
def Failed (record : Record) : Prop := ∃ call errno, record.change? = some (call, errno) ∧ errno ≠ 0

theorem not_failed_mmap (length : Nat) (result : Int) : ¬ (mmap length result).Failed := nofun

theorem not_failed_munmap (address length : Nat) (result : Int) :
    ¬ (munmap address length result).Failed := nofun

theorem not_failed_mprotect (address length : Nat) (protection : Protection) :
    ¬ (mprotect address length protection 0).Failed := by
  rintro ⟨call, errno, h, hne⟩
  obtain ⟨-, rfl⟩ := Prod.mk.inj (Option.some.inj h)
  exact hne rfl

theorem not_failed_madvise (address length : Nat) : ¬ (madvise address length 0).Failed := by
  rintro ⟨call, errno, h, hne⟩
  obtain ⟨-, rfl⟩ := Prod.mk.inj (Option.some.inj h)
  exact hne rfl

end OsCall.Record

namespace Region

/-- Calls of which none releases anything and none is a change that failed. -/
def Smooth (made : List Record) : Prop := ∀ record ∈ made, record.call ≠ .munmap ∧ ¬ record.Failed

/-- The region was given up over a change of its pages that failed with the error `e`. -/
structure Lost (r : Region) (e : ArenaError) (r' : Region) (made : List Record) : Prop where
  phase : r'.phase = .closed
  saved : r'.saved = []
  committed : r'.committed = r.committed
  calls : ∃ (base : Nat) (before : List Record) (failed : Record) (call : OsCall)
    (errno result : Int), r.Holds made base ∧
    made = before ++ [failed, .munmap base r.total result] ∧ Smooth before ∧
    failed.change? = some (call, errno) ∧ e = .osFailure call errno

/-- No change of pages failed, and the region is open if it was. -/
structure Unharmed (r r' : Region) (made : List Record) : Prop where
  stays : r.phase ≠ .closed → r'.phase ≠ .closed
  calls : ∀ record ∈ made, ¬ record.Failed

/-- An operation goes without harm, or the loss of the region is what it answers. -/
def LostOrUnharmed {α : Type} (r : Region) (answer : Except ArenaError α) (r' : Region)
    (made : List Record) : Prop :=
  (∃ e, answer = .error e ∧ Lost r e r' made) ∨ Unharmed r r' made

variable {r r₁ r' : Region} {clock base : Nat} {made made' : List Record} {e : ArenaError}

theorem Unharmed.of_same (phase : r'.phase = r.phase) (calls : ∀ record ∈ made, ¬ record.Failed) :
    Unharmed r r' made :=
  ⟨fun hopen => phase ▸ hopen, calls⟩

theorem Unharmed.refl (r : Region) : Unharmed r r [] := .of_same rfl nofun

theorem Unharmed.append (first : Unharmed r r₁ made) (next : Unharmed r₁ r' made') :
    Unharmed r r' (made ++ made') where
  stays hopen := next.stays (first.stays hopen)
  calls record hrecord := (List.mem_append.mp hrecord).elim (first.calls record) (next.calls record)

/-! ### The base -/

theorem Obtains.unharmed {answer : Except ArenaError Nat} (h : Obtains r clock answer r' made) :
    Unharmed r r' made := by
  have mapped : ∀ (phase : r'.phase ≠ .closed) (result : Int),
      Unharmed r r' [.mmap r.total result] := by
    intro phase result
    refine ⟨fun _ => phase, ?_⟩
    intro record hrecord
    obtain rfl := List.mem_singleton.mp hrecord
    exact Record.not_failed_mmap _ _
  cases h with
  | held phase => exact .refl r
  | closed phase => exact .refl r
  | unaddressable phase h => exact mapped (by rw [phase]; exact nofun) _
  | fresh phase pos h => exact mapped nofun _
  | unreserved phase reserves =>
      cases reserves with
      | unusable => exact mapped (by rw [phase]; exact nofun) _
      | failed errno result => exact mapped (by rw [phase]; exact nofun) _

/-- To obtain a base takes the mapping at most. -/
theorem Obtains.smooth (h : Obtains r clock (.ok base) r' made) : Smooth made := by
  cases h with
  | held phase => exact nofun
  | fresh phase pos h =>
      intro record hrecord
      obtain rfl := List.mem_singleton.mp hrecord
      exact ⟨nofun, Record.not_failed_mmap _ _⟩

/-- What is lost after a base was obtained is lost on the whole. -/
theorem Lost.prepend (ok : Sound r) (obtains : Obtains r clock (.ok base) r₁ made)
    (committed : r'.committed = r₁.committed) (phase : r'.phase = .reserved base)
    (total : r'.total = r₁.total) {r'' : Region} (lost : Lost r' e r'' made') :
    Lost r e r'' (made ++ made') := by
  obtain ⟨hphase, hsaved, hcommitted, base', before, failed, call, errno, result, holds, hmade,
    smooth, hfailed, he⟩ := lost
  have hbase : base' = base := by
    rcases holds with held | ⟨unused, -⟩
    · exact Phase.reserved.inj (held.symm.trans phase)
    · rw [phase] at unused
      cases unused
  subst hbase
  have htotal : r'.total = r.total := total.trans obtains.continues.total
  refine ⟨hphase, hsaved, ?_, base', made ++ before, failed, call, errno, result,
    obtains.holds, ?_, ?_, hfailed, he⟩
  · rw [hcommitted, committed, obtains.committed ok]
  · rw [hmade, htotal, List.append_assoc]
  · intro record hrecord
    exact (List.mem_append.mp hrecord).elim (obtains.smooth record) (smooth record)

/-! ### Changes of pages -/

theorem Grows.lost_or_unharmed {stop : Nat} {answer : Except ArenaError Unit}
    (hp : r.phase = .reserved base) (h : Grows r base stop answer r' made) :
    LostOrUnharmed r answer r' made := by
  cases h with
  | unrounded h => exact Or.inr (.refl r)
  | grown h =>
      refine Or.inr (.of_same rfl ?_)
      intro record hrecord
      obtain rfl := List.mem_singleton.mp hrecord
      exact Record.not_failed_mprotect _ _ _
  | @lost whole errno result h =>
      refine Or.inl ⟨_, rfl, rfl, rfl, rfl, base, [], _, .mprotect, errno, result, Or.inl hp, rfl,
        nofun, ?_, rfl⟩
      rw [Record.change?, Int.neg_neg]

theorem Cuts.lost_or_unharmed {size align : Nat} {answer : Except ArenaError Span}
    (hp : r.phase = .reserved base) (h : Cuts size align base r answer r' made) :
    LostOrUnharmed r answer r' made := by
  cases h with
  | unrounded h => exact Or.inr (.refl r)
  | oversized rounded h => exact Or.inr (.refl r)
  | unfit rounded h => exact Or.inr (.refl r)
  | empty rounded fits h => exact Or.inr (.refl r)
  | inside rounded pos h => exact Or.inr (.of_same rfl nofun)
  | grown rounded pos past fits grows =>
      rcases grows.lost_or_unharmed hp with ⟨e, he, -⟩ | ⟨stays, calls⟩
      · cases he
      · exact Or.inr ⟨stays, calls⟩
  | ungrown rounded pos past fits grows =>
      rcases grows.lost_or_unharmed hp with ⟨e, he, lost⟩ | unharmed
      · obtain rfl := Except.error.inj he
        exact Or.inl ⟨_, rfl, lost⟩
      · exact Or.inr unharmed

theorem Slices.lost_or_unharmed {size align : Nat} {answer : Except ArenaError Span}
    (ok : Sound r) (h : Slices size align r clock answer r' made) :
    LostOrUnharmed r answer r' made := by
  cases h with
  | misaligned h => exact Or.inr (.refl r)
  | unobtained aligned obtains => exact Or.inr obtains.unharmed
  | obtained aligned obtains cuts =>
      rcases cuts.lost_or_unharmed obtains.phase_of_ok with ⟨e, he, lost⟩ | unharmed
      · exact Or.inl ⟨e, he, lost.prepend ok obtains rfl obtains.phase_of_ok rfl⟩
      · exact Or.inr (obtains.unharmed.append unharmed)

theorem Checkpoints.unharmed {answer : Except ArenaError Handle}
    (h : Checkpoints r clock answer r' made) : Unharmed r r' made := by
  cases h with
  | unobtained obtains => exact obtains.unharmed
  | pushed obtains => exact ⟨obtains.unharmed.stays, obtains.unharmed.calls⟩

/-- A call that takes pages away and fails is the last of those that do. -/
theorem failed_of_uncommits {address length : Nat}
    (h : VirtualMemory.Uncommits address length (.error e) made) :
    ∃ (before : List Record) (failed : Record) (call : OsCall) (errno : Int),
      made = before ++ [failed] ∧ Smooth before ∧
      failed.change? = some (call, errno) ∧ e = .osFailure call errno := by
  cases h with
  | unprotected errno =>
      refine ⟨[], _, .mprotect, errno, rfl, nofun, ?_, rfl⟩
      rw [Record.change?, Int.neg_neg]
  | kept errno =>
      refine ⟨[_], _, .madvise, errno, rfl, ?_, ?_, rfl⟩
      · intro record hrecord
        obtain rfl := List.mem_singleton.mp hrecord
        exact ⟨nofun, Record.not_failed_mprotect _ _ _⟩
      · rw [Record.change?, Int.neg_neg]

theorem Trims.lost_or_unharmed {answer : Except ArenaError Unit} (hp : r.phase = .reserved base)
    (h : Trims r clock base answer r' made) : LostOrUnharmed r answer r' made := by
  cases h with
  | unmeasured h => exact Or.inr (.refl r)
  | kept fits h => exact Or.inr (.refl r)
  | trimmed fits due =>
      refine Or.inr (.of_same rfl ?_)
      intro record hrecord
      rcases List.mem_cons.mp hrecord with rfl | hrecord
      · exact Record.not_failed_mprotect _ _ _
      · obtain rfl := List.mem_singleton.mp hrecord
        exact Record.not_failed_madvise _ _
  | @lost e uncommitted result fits due uncommits =>
      obtain ⟨before, failed, call, errno, hmade, smooth, hfailed, he⟩ := failed_of_uncommits uncommits
      refine Or.inl ⟨e, rfl, rfl, rfl, rfl, base, before, failed, call, errno, result, Or.inl hp, ?_,
        smooth, hfailed, he⟩
      rw [hmade, List.append_assoc]
      rfl

theorem RollsBack.lost_or_unharmed {handle : Handle} {answer : Except ArenaError Unit}
    (h : RollsBack handle r clock answer r' made) : LostOrUnharmed r answer r' made := by
  cases h with
  | unreserved h => exact Or.inr (.refl r)
  | stale phase h => exact Or.inr (.refl r)
  | @popped base cursor older _ _ _ phase saved newest trims =>
      have hp : ({ r with saved := older, cursor := cursor } : Region).phase = .reserved base := phase
      rcases trims.lost_or_unharmed hp with ⟨e, he, lost⟩ | ⟨stays, calls⟩
      · exact Or.inl ⟨e, he, lost.phase, lost.saved, lost.committed, lost.calls⟩
      · exact Or.inr ⟨stays, calls⟩

/-- Closing changes no pages. -/
theorem Closes.not_failed {answer : Except ArenaError Unit} (h : Closes r answer r' made) :
    ∀ record ∈ made, ¬ record.Failed := by
  cases h with
  | again phase => exact nofun
  | unused phase => exact nofun
  | released phase answered =>
      intro record hrecord
      cases answered with
      | done =>
          obtain rfl := List.mem_singleton.mp hrecord
          exact Record.not_failed_munmap _ _ _
      | failed errno =>
          obtain rfl := List.mem_singleton.mp hrecord
          exact Record.not_failed_munmap _ _ _

/-! ### A region that is closed -/

/-- How a closed region refuses a request.  The alignment of a slice is judged before it. -/
def Request.Refused : Request → ArenaError → Prop
  | .slice _ align, e =>
    if Word.isPowerOfTwo align then e.isInvalidState = true else e = .invalidAlignment align
  | .checkpoint, e | .rollback _, e | .close, e => e.isInvalidState = true

theorem Obtains.of_closed {answer : Except ArenaError Nat} (closed : r.phase = .closed)
    (h : Obtains r clock answer r' made) :
    r' = r ∧ made = [] ∧ ∃ e, answer = .error e ∧ e.isInvalidState = true := by
  cases h with
  | closed phase => exact ⟨rfl, rfl, _, rfl, rfl⟩
  | held phase => exact Phase.noConfusion (phase.symm.trans closed)
  | unreserved phase reserves => exact Phase.noConfusion (phase.symm.trans closed)
  | unaddressable phase h => exact Phase.noConfusion (phase.symm.trans closed)
  | fresh phase pos h => exact Phase.noConfusion (phase.symm.trans closed)

theorem Slices.of_closed {size align : Nat} {answer : Except ArenaError Span}
    (closed : r.phase = .closed) (h : Slices size align r clock answer r' made) :
    r' = r ∧ made = [] ∧ ∃ e, answer = .error e ∧ (Request.slice size align).Refused e := by
  cases h with
  | misaligned h =>
      refine ⟨rfl, rfl, _, rfl, ?_⟩
      show if Word.isPowerOfTwo align = true then _ else _
      rw [h]
      exact rfl
  | unobtained aligned obtains =>
      obtain ⟨hsame, hnone, e, he, hstate⟩ := obtains.of_closed closed
      refine ⟨hsame, hnone, e, congrArg _ (Except.error.inj he), ?_⟩
      show if Word.isPowerOfTwo align = true then _ else _
      rw [if_pos aligned]
      exact hstate
  | obtained aligned obtains cuts =>
      obtain ⟨-, -, e, he, -⟩ := obtains.of_closed closed
      cases he

theorem Checkpoints.of_closed {answer : Except ArenaError Handle} (closed : r.phase = .closed)
    (h : Checkpoints r clock answer r' made) :
    r' = r ∧ made = [] ∧ ∃ e, answer = .error e ∧ e.isInvalidState = true := by
  cases h with
  | unobtained obtains =>
      obtain ⟨hsame, hnone, e, he, hstate⟩ := obtains.of_closed closed
      exact ⟨hsame, hnone, e, congrArg _ (Except.error.inj he), hstate⟩
  | pushed obtains =>
      obtain ⟨-, -, e, he, -⟩ := obtains.of_closed closed
      cases he

theorem RollsBack.of_closed {handle : Handle} {answer : Except ArenaError Unit}
    (closed : r.phase = .closed) (h : RollsBack handle r clock answer r' made) :
    r' = r ∧ made = [] ∧ ∃ e, answer = .error e ∧ e.isInvalidState = true := by
  cases h with
  | unreserved h => exact ⟨rfl, rfl, _, rfl, rfl⟩
  | stale phase h => exact Phase.noConfusion (phase.symm.trans closed)
  | popped phase saved newest trims => exact Phase.noConfusion (phase.symm.trans closed)

theorem Closes.of_closed {answer : Except ArenaError Unit} (closed : r.phase = .closed)
    (h : Closes r answer r' made) :
    r' = r ∧ made = [] ∧ ∃ e, answer = .error e ∧ e.isInvalidState = true := by
  cases h with
  | again phase => exact ⟨rfl, rfl, _, rfl, rfl⟩
  | unused phase => exact Phase.noConfusion (phase.symm.trans closed)
  | released phase answered => exact Phase.noConfusion (phase.symm.trans closed)

/-- **A closed region refuses every request**, stays as it is and makes no call. -/
theorem Meets.of_closed {request : Request} {answer : Except ArenaError Reply}
    (closed : r.phase = .closed) (h : Meets r clock request answer r' made) :
    r' = r ∧ made = [] ∧ ∃ e, answer = .error e ∧ request.Refused e := by
  cases h with
  | slice h =>
      obtain ⟨hsame, hnone, e, rfl, refused⟩ := h.of_closed closed
      exact ⟨hsame, hnone, e, rfl, refused⟩
  | checkpoint h =>
      obtain ⟨hsame, hnone, e, rfl, refused⟩ := h.of_closed closed
      exact ⟨hsame, hnone, e, rfl, refused⟩
  | rollback h =>
      obtain ⟨hsame, hnone, e, rfl, refused⟩ := h.of_closed closed
      exact ⟨hsame, hnone, e, rfl, refused⟩
  | close h =>
      obtain ⟨hsame, hnone, e, rfl, refused⟩ := h.of_closed closed
      exact ⟨hsame, hnone, e, rfl, refused⟩

end Region

namespace Pool

variable {t t' : Tenancy} {clock : Nat} {made : List Record}

theorem Allocates.lost_or_unharmed {size align : Nat} {answer : Except ArenaError Span}
    (ok : Region.Sound t.region) (h : Allocates size align t clock answer t' made) :
    Region.LostOrUnharmed t.region answer t'.region made := by
  cases h with
  | closed h => exact Or.inr (.refl t.region)
  | active h slices => exact slices.lost_or_unharmed ok
  | unstarted h checkpoints => exact Or.inr checkpoints.unharmed
  | started h checkpoints slices =>
      have ok₁ := checkpoints.continues.sound ok
      rcases slices.lost_or_unharmed ok₁ with ⟨e, he, lost⟩ | unharmed
      · cases checkpoints with
        | pushed obtains =>
            refine Or.inl ⟨e, he, Region.Lost.prepend ok obtains ?_ ?_ ?_ lost⟩
            · rfl
            · exact obtains.phase_of_ok
            · rfl
      · exact Or.inr (checkpoints.unharmed.append unharmed)

theorem Closes.of_closed {answer : Except ArenaError Unit} (closed : t.region.phase = .closed)
    (h : Closes t clock answer t' made) :
    t'.region = t.region ∧ made = [] ∧ ∀ handle, t.pool = .active handle →
      ∃ e, answer = .error e ∧ e.isInvalidState = true := by
  cases h with
  | again h =>
      refine ⟨rfl, rfl, ?_⟩
      intro handle hactive
      rw [h] at hactive
      cases hactive
  | unused h =>
      refine ⟨rfl, rfl, ?_⟩
      intro handle hactive
      rw [h] at hactive
      cases hactive
  | rolled h rolls =>
      obtain ⟨hsame, hnone, refused⟩ := rolls.of_closed closed
      exact ⟨hsame, hnone, fun _ _ => refused⟩

theorem Closes.lost_or_unharmed {answer : Except ArenaError Unit}
    (h : Closes t clock answer t' made) :
    Region.LostOrUnharmed t.region answer t'.region made := by
  cases h with
  | again h => exact Or.inr (.refl t.region)
  | unused h => exact Or.inr (.refl t.region)
  | rolled h rolls => exact rolls.lost_or_unharmed

end Pool

namespace Commons

variable {c : Commons} {clock : Nat}

/-- The error that an occasion is answered with, if it is.  Nobody hears what the end of an
object comes to. -/
def complaint (c : Commons) (o : Occasion) : Option ArenaError :=
  match o.deed with
  | .ask request => ArenaError.of? (c.region.answer ⟨o.machine, request⟩)
  | .errand p errand => ArenaError.of? (c.answer ⟨o.machine, p, errand⟩)
  | .discard => none

/-- Whether an occasion is meant to end the region. -/
def Deed.EndsRegion (deed : Deed) : Prop := deed = .ask .close ∨ deed = .discard

/-- Whether somebody hears the answer. -/
def Deed.Heard : Deed → Prop
  | .ask _ | .errand _ (.allocate ..) | .errand _ .close => True
  | .errand _ .drop | .discard => False

/-- The request that an errand makes of the region, if it does. -/
def Errand.request? (pool : Pool) : Errand → Option Region.Request
  | .allocate size align _ =>
    match pool with
    | .fresh => some .checkpoint
    | .active _ => some (.slice size align)
    | .closed => none
  | .close => pool.handle?.map .rollback
  | .drop => none

/-- The request of the region that is answered on an occasion, if there is one.  It is made
directly or by a pool. -/
def request? (c : Commons) (o : Occasion) : Option Region.Request :=
  match o.deed with
  | .ask request => some request
  | .errand p errand => errand.request? (c.pools p)
  | .discard => none

/-- **An occasion** goes without harm, unless it is meant to end the region, or the region is
lost on it, and that is the answer, if it is heard. -/
theorem next_lost_or_unharmed (ok : Region.Sound c.region) (o : Occasion) :
    (∃ e, Region.Lost c.region e (c.next o).region (c.made o) ∧
        (o.deed.Heard → c.complaint o = some e)) ∨
      (∀ record ∈ c.made o, ¬ record.Failed) ∧
        (¬ o.deed.EndsRegion → Region.Unharmed c.region (c.next o).region (c.made o)) := by
  obtain ⟨machine, deed⟩ := o
  cases deed with
  | discard =>
      refine Or.inr ⟨?_, fun other => absurd (Or.inr rfl) other⟩
      have happens := next_happens ok ⟨machine, .discard⟩
      generalize c.made _ = made at happens ⊢
      generalize (c.next _).region = r' at happens
      cases happens with
      | discard discards =>
          cases discards with
          | unheld h => exact nofun
          | released held =>
              intro record hrecord
              obtain rfl := List.mem_singleton.mp hrecord
              exact Record.not_failed_munmap _ _ _
  | ask request =>
      have hway := Region.meet_meets ok ⟨machine, request⟩
      have hcomplaint : c.complaint ⟨machine, .ask request⟩
          = ArenaError.of? (c.region.answer ⟨machine, request⟩) := rfl
      have hmade : c.made ⟨machine, .ask request⟩ = c.region.calls ⟨machine, request⟩ := rfl
      have hnext : (c.next ⟨machine, .ask request⟩).region = c.region.after ⟨machine, request⟩ := rfl
      rw [hcomplaint, hmade, hnext]
      generalize c.region.answer _ = answer at hway ⊢
      generalize c.region.calls _ = made at hway ⊢
      generalize c.region.after _ = r' at hway ⊢
      cases hway with
      | slice h =>
          rcases h.lost_or_unharmed ok with ⟨e, rfl, lost⟩ | unharmed
          · exact Or.inl ⟨e, lost, fun _ => rfl⟩
          · exact Or.inr ⟨unharmed.calls, fun _ => unharmed⟩
      | checkpoint h => exact Or.inr ⟨h.unharmed.calls, fun _ => h.unharmed⟩
      | rollback h =>
          rcases h.lost_or_unharmed with ⟨e, rfl, lost⟩ | unharmed
          · exact Or.inl ⟨e, lost, fun _ => rfl⟩
          · exact Or.inr ⟨unharmed.calls, fun _ => unharmed⟩
      | close h => exact Or.inr ⟨h.not_failed, fun other => absurd (Or.inl rfl) other⟩
  | errand p errand =>
      have hway := meet_goes ok ⟨machine, p, errand⟩
      have hcomplaint : c.complaint ⟨machine, .errand p errand⟩
          = ArenaError.of? (c.answer ⟨machine, p, errand⟩) := rfl
      have hmade : c.made ⟨machine, .errand p errand⟩ = c.calls ⟨machine, p, errand⟩ := rfl
      have hnext : (c.next ⟨machine, .errand p errand⟩).region
          = (c.meet ⟨machine, p, errand⟩).2.self.region := rfl
      rw [hcomplaint, hmade, hnext]
      generalize c.answer _ = answer at hway ⊢
      generalize c.calls _ = made at hway ⊢
      generalize (c.meet _).2.self = t' at hway ⊢
      cases hway with
      | allocate h =>
          rcases h.lost_or_unharmed ok with ⟨e, rfl, lost⟩ | unharmed
          · exact Or.inl ⟨e, lost, fun _ => rfl⟩
          · exact Or.inr ⟨unharmed.calls, fun _ => unharmed⟩
      | close h =>
          rcases h.lost_or_unharmed with ⟨e, rfl, lost⟩ | unharmed
          · exact Or.inl ⟨e, lost, fun _ => rfl⟩
          · exact Or.inr ⟨unharmed.calls, fun _ => unharmed⟩
      | drop h =>
          rcases h.lost_or_unharmed with ⟨e, rfl, lost⟩ | unharmed
          · exact Or.inl ⟨e, lost, fun heard => heard.elim⟩
          · exact Or.inr ⟨unharmed.calls, fun _ => unharmed⟩

/-- No errand of a pool gets at a closed region. -/
theorem Goes.of_closed {t t' : Tenancy} {errand : Errand} {answer : Except ArenaError (Option Span)}
    {made : List Record} (closed : t.region.phase = .closed)
    (h : Goes t clock errand answer t' made) :
    t'.region = t.region ∧ made = [] ∧ ∀ request, errand.request? t.pool = some request →
      ∃ e, answer = .error e ∧ request.Refused e := by
  cases h with
  | allocate h =>
      cases h with
      | closed h =>
          refine ⟨rfl, rfl, ?_⟩
          intro request hrequest
          rw [h] at hrequest
          cases hrequest
      | active h slices =>
          obtain ⟨hsame, hnone, e, rfl, refused⟩ := slices.of_closed closed
          refine ⟨hsame, hnone, ?_⟩
          intro request hrequest
          rw [h] at hrequest
          obtain rfl := Option.some.inj hrequest
          exact ⟨e, rfl, refused⟩
      | unstarted h checkpoints =>
          obtain ⟨hsame, hnone, e, he, refused⟩ := checkpoints.of_closed closed
          obtain rfl := Except.error.inj he
          refine ⟨hsame, hnone, ?_⟩
          intro request hrequest
          rw [h] at hrequest
          obtain rfl := Option.some.inj hrequest
          exact ⟨_, rfl, refused⟩
      | started h checkpoints slices =>
          obtain ⟨-, -, e, he, -⟩ := checkpoints.of_closed closed
          cases he
  | close h =>
      obtain ⟨hsame, hnone, hrefused⟩ := h.of_closed closed
      refine ⟨hsame, hnone, ?_⟩
      intro request hrequest
      cases hpool : t.pool with
      | fresh | closed =>
          rw [hpool] at hrequest
          cases hrequest
      | active handle =>
          rw [hpool] at hrequest
          obtain rfl := Option.some.inj hrequest
          obtain ⟨e, rfl, refused⟩ := hrefused handle hpool
          exact ⟨e, rfl, refused⟩
  | drop h =>
      obtain ⟨hsame, hnone, -⟩ := h.of_closed closed
      exact ⟨hsame, hnone, nofun⟩

/-- **A closed region is inert**: whatever is done, it stays as it is, no call is made, and
every request that reaches it is refused. -/
theorem next_of_closed (ok : Region.Sound c.region) (closed : c.region.phase = .closed)
    (o : Occasion) :
    (c.next o).region = c.region ∧ c.made o = [] ∧ ∀ request, c.request? o = some request →
      ∃ e, c.complaint o = some e ∧ request.Refused e := by
  obtain ⟨machine, deed⟩ := o
  cases deed with
  | ask request =>
      obtain ⟨hsame, hnone, e, he, refused⟩ :=
        (Region.meet_meets ok ⟨machine, request⟩).of_closed closed
      refine ⟨hsame, hnone, ?_⟩
      intro asked hasked
      obtain rfl := Option.some.inj hasked
      exact ⟨e, congrArg ArenaError.of? he, refused⟩
  | errand p errand =>
      obtain ⟨hsame, hnone, hrefused⟩ := (meet_goes ok ⟨machine, p, errand⟩).of_closed closed
      refine ⟨hsame, hnone, ?_⟩
      intro request hrequest
      obtain ⟨e, he, refused⟩ := hrefused request hrequest
      exact ⟨e, congrArg ArenaError.of? he, refused⟩
  | discard =>
      have happens := next_happens ok ⟨machine, .discard⟩
      generalize c.made _ = made at happens ⊢
      generalize (c.next _).region = r' at happens ⊢
      cases happens with
      | discard discards =>
          cases discards with
          | unheld h => exact ⟨rfl, rfl, nofun⟩
          | released held => exact Region.Phase.noConfusion (held.symm.trans closed)

/-- A region stays as it was when it was closed. -/
theorem through_of_closed (ok : Region.Sound c.region) (closed : c.region.phase = .closed)
    (os : List Occasion) : (c.through os).region = c.region := by
  induction os generalizing c with
  | nil => rfl
  | cons o os ih =>
      obtain ⟨hsame, -⟩ := next_of_closed ok closed o
      have rest := ih (hsame ▸ ok) (hsame ▸ closed)
      exact rest.trans hsame

/-- **A change of pages that fails closes the region for good.**  Whether it is seen from its
number or from the region, which is closed though nobody asked for that: the failed call is
followed by the release of the whole reservation, whatever that comes to, and by nothing else,
and no change before it failed.  Its failure is the answer, if anybody hears one.  The region
is closed with no checkpoint left and as many accessible bytes as before.

From then on nothing is done to the region and no call is made, not by its last holder either,
and all that is asked of it, directly or by a pool, is refused. -/
theorem failed_change_closes_for_good {r : Region} (made : r.Made) (os : List Occasion)
    (o : Occasion) :
    let c := (of r).through os
    let c' := c.next o
    c.region.phase ≠ .closed →
    (∃ record ∈ c.made o, record.Failed) ∨ c'.region.phase = .closed ∧ ¬ o.deed.EndsRegion →
    (∃ (base : Nat) (before : List Record) (failed : Record) (call : OsCall) (errno result : Int),
      c.region.Holds (c.made o) base ∧
      c.made o = before ++ [failed, .munmap base r.total result] ∧ Region.Smooth before ∧
      failed.change? = some (call, errno) ∧
      (o.deed.Heard → c.complaint o = some (.osFailure call errno))) ∧
    (c'.region.phase = .closed ∧ c'.region.saved = [] ∧
      c'.region.committed = c.region.committed ∧ c'.region.snapshot.isConsistent = true) ∧
    ∀ later o', (c'.through later).region = c'.region ∧ (c'.through later).made o' = [] ∧
      ∀ request, (c'.through later).request? o' = some request →
        ∃ e, (c'.through later).complaint o' = some e ∧ request.Refused e := by
  intro c c' hopen happened
  have life : Region.Continues r c.region := through_continues (c := of r) made.sound os
  have ok : Region.Sound c.region := life.sound made.sound
  have ok' : Region.Sound c'.region := (next_continues ok o).sound ok
  obtain ⟨e, lost, heard⟩ | ⟨noFailed, unharmed⟩ := next_lost_or_unharmed ok o
  · obtain ⟨base, before, failed, call, errno, result, holds, hmade, smooth, hfailed, rfl⟩ :=
      lost.calls
    refine ⟨⟨base, before, failed, call, errno, result, holds, ?_, smooth, hfailed, heard⟩,
      ⟨lost.phase, lost.saved, lost.committed, ?_⟩, ?_⟩
    · rw [hmade, life.total]
    · simp [Region.Snapshot.isConsistent, Region.snapshot, ok'.cursor_le, ok'.committed_le]
    · intro later o'
      have same : (c'.through later).region = c'.region := through_of_closed ok' lost.phase later
      obtain ⟨-, hnone, refused⟩ :=
        next_of_closed (c := c'.through later) (same ▸ ok') (same ▸ lost.phase) o'
      exact ⟨same, hnone, refused⟩
  · -- Nothing failed, and the region has been closed by nobody.
    rcases happened with ⟨record, hrecord, failed⟩ | ⟨closed, other⟩
    · exact absurd failed (noFailed record hrecord)
    · exact absurd closed ((unharmed other).stays hopen)

/-- The pages of a pool that is closed cannot be dropped, after they were made inaccessible, and
the release fails as well.  It is the first of the failures that is answered.  A pool that has
a checkpoint still is refused then, and the end of the region makes no call. -/
theorem failed_drop_closes_for_good :
    let failing : Machine := { kernel := { failures := [⟨.madvise, 22, 0⟩, ⟨.munmap, 5, 0⟩] } }
    let os : List Occasion := [⟨{}, .errand 0 (.allocate 8 8 false)⟩,
      ⟨{}, .errand 1 (.allocate 12000 1 false)⟩]
    let o : Occasion := ⟨failing, .errand 1 .close⟩
    let c := (of Region.eager).through os
    let c' := c.next o
    let base := 0x100000000000
    c.region.phase ≠ .closed ∧ (∃ record ∈ c.made o, record.Failed) ∧
      c.made o = [.mprotect (base + 8192) 4096 .noAccess 0, .madvise (base + 8192) 4096 (-22),
        .munmap base 12288 (-5)] ∧
      c.complaint o = some (.osFailure OsCall.madvise 22) ∧ c'.region.committed = 12288 ∧
      (c'.through [⟨{}, .discard⟩]).region = c'.region ∧
      c'.complaint ⟨{}, .errand 0 .close⟩ = some (.invalidState StateFault.regionClosed) := by
  intro failing os o c c' base
  have hopen : c.region.phase ≠ .closed := by decide
  have calls : c.made o = [.mprotect (base + 8192) 4096 .noAccess 0,
      .madvise (base + 8192) 4096 (-22), .munmap base 12288 (-5)] := by decide
  have failed : ∃ record ∈ c.made o, record.Failed := by
    rw [calls]
    exact ⟨.madvise (base + 8192) 4096 (-22), by simp, .madvise, 22, rfl, by decide⟩
  have made : Region.eager.Made :=
    ⟨12000, Region.eager.tuning, Region.eager.backend, ⟨{}, ()⟩, ⟨{}, ()⟩, rfl⟩
  obtain ⟨-, -, inert⟩ := failed_change_closes_for_good made os o hopen (Or.inl failed)
  have stays : ∀ later, (c'.through later).region = c'.region := fun later => (inert later o).1
  exact ⟨hopen, failed, calls, by decide, by decide, stays _, by decide⟩

end Commons

end PageArena
