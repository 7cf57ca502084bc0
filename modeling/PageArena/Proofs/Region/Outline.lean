/-
What a region answers, told without its pages.

The outline of a region is what its callers know of it: how much there is, how much is in use,
the saved cursors, and whether it is in use at all.  `Outline.meet` is a region that has no
pages: it keeps the outline and nothing else, and answers a request from that and from the
base.  It has no commit boundary, no tuning and no clock, and it calls nobody.

A region answers every request as its outline does (`meet_outline`), as long as no call to
the system fails and the space that it gets is such that it can use it.  So whatever else a
region is made of is seen by nobody.  The one exception is a threshold of so many pages that
its bytes are no word: then a rollback fails, but only after it has done its work.
-/
import Mathlib
import PageArena.Proofs.Region.FirstUse

namespace PageArena

open OsCall (Record)

namespace Region

/-- Where a region stands, its base left out. -/
inductive Stage where
  | unreserved
  | reserved
  | closed
  deriving DecidableEq, Repr

/-- What the callers of a region know of it. -/
structure Outline where
  total : Nat
  cursor : Nat
  saved : List Nat
  stage : Stage
  deriving DecidableEq, Repr

def Phase.stage : Phase → Stage
  | .unreserved => .unreserved
  | .reserved _ => .reserved
  | .closed => .closed

def outline (r : Region) : Outline := ⟨r.total, r.cursor, r.saved, r.phase.stage⟩

namespace Outline

/-- The outline once the region is in use, if it can be. -/
def enter (o : Outline) : Except ArenaError Outline :=
  if o.stage = .closed then .error (.invalidState StateFault.regionClosed)
  else .ok { o with stage := .reserved }

/-- Takes `size` bytes at the next multiple of `align`. -/
def cut (base : Nat) (o : Outline) (size align : Nat) : Except ArenaError Span × Outline :=
  match Word.roundUp? (base + o.cursor) align with
  | none => (.error (.sizeOverflow Arithmetic.roundUp), o)
  | some address =>
    if Word.limit ≤ address - base + size then (.error (.sizeOverflow Arithmetic.add), o)
    else if o.total < address - base + size then
      (.error (.outOfBounds (address - base + size) o.total), o)
    else if size = 0 then (.ok ⟨address, size⟩, o)
    else (.ok ⟨address, size⟩, { o with cursor := address - base + size })

def slice (base : Nat) (o : Outline) (size align : Nat) : Except ArenaError Span × Outline :=
  if Word.isPowerOfTwo align then
    match o.enter with
    | .ok o => o.cut base size align
    | .error e => (.error e, o)
  else (.error (.invalidAlignment align), o)

def checkpoint (o : Outline) : Except ArenaError Handle × Outline :=
  match o.enter with
  | .ok o => (.ok ⟨o.saved.length⟩, { o with saved := o.cursor :: o.saved })
  | .error e => (.error e, o)

def rollback (o : Outline) (handle : Handle) : Except ArenaError Unit × Outline :=
  match o.stage with
  | .unreserved => (.error (.invalidState StateFault.noCheckpoints), o)
  | .closed => (.error (.invalidState StateFault.regionClosed), o)
  | .reserved =>
    match o.saved with
    | cursor :: older =>
      if older.length = handle.index then (.ok (), { o with saved := older, cursor := cursor })
      else (.error (.invalidState (StateFault.staleHandle handle.index o.saved.length)), o)
    | [] => (.error (.invalidState (StateFault.staleHandle handle.index o.saved.length)), o)

theorem rollback_newest {o : Outline} {cursor : Nat} {older : List Nat} {handle : Handle}
    (stage : o.stage = .reserved) (saved : o.saved = cursor :: older)
    (newest : older.length = handle.index) :
    o.rollback handle = (.ok (), { o with saved := older, cursor := cursor }) := by
  simp only [rollback, stage, saved, if_pos newest]

theorem rollback_stale {o : Outline} {handle : Handle} (stage : o.stage = .reserved)
    (h : o.saved.length ≠ handle.index + 1) :
    o.rollback handle
      = (.error (.invalidState (StateFault.staleHandle handle.index o.saved.length)), o) := by
  cases hs : o.saved with
  | nil => simp only [rollback, stage, hs]
  | cons cursor older =>
      have hother : ¬ older.length = handle.index := by simpa [hs] using h
      simp only [rollback, stage, hs, if_neg hother]

def close (o : Outline) : Except ArenaError Unit × Outline :=
  if o.stage = .closed then (.error (.invalidState StateFault.regionAlreadyClosed), o)
  else (.ok (), { o with stage := .closed, saved := [] })

/-- The answer to a request, and the outline that is left. -/
def meet (base : Nat) (o : Outline) : Request → Except ArenaError Reply × Outline
  | .slice size align => ((o.slice base size align).1.map .span, (o.slice base size align).2)
  | .checkpoint => (o.checkpoint.1.map .handle, o.checkpoint.2)
  | .rollback handle => ((o.rollback handle).1.map fun _ => .done, (o.rollback handle).2)
  | .close => (o.close.1.map fun _ => .done, o.close.2)

end Outline

/-- The answer of an operation is not the failure of a call to the system. -/
def Succeeds {α : Type} (answer : Except ArenaError α) : Prop :=
  ∀ call errno, answer ≠ .error (.osFailure call errno)

theorem Succeeds.of_map {α β : Type} {answer : Except ArenaError α} {f : α → β}
    (h : Succeeds (answer.map f)) : Succeeds answer := by
  rintro call errno rfl
  exact h call errno rfl

theorem Succeeds.other {α : Type} {e : ArenaError} (h : Succeeds (.error e : Except ArenaError α)) :
    ∀ call errno, e ≠ .osFailure call errno :=
  fun call errno he => h call errno (congrArg _ he)

/-- The mappings that were made are such that the region can begin there. -/
def Placed (r : Region) (made : List Record) : Prop :=
  ∀ base : Nat, .mmap r.total base ∈ made → r.CanBeginAt base

/-- The region has no other base than this, neither before nor after. -/
def Based (r r' : Region) (base : Nat) : Prop :=
  (∀ held, r.phase = .reserved held → held = base) ∧
    ∀ held, r'.phase = .reserved held → held = base

variable {r r₁ r' : Region} {clock base : Nat} {made : List Record} {e : ArenaError}

theorem exists_based (r : Region) : ∃ base, Based r r base := by
  cases hp : r.phase with
  | reserved base =>
      have only : ∀ held, r.phase = .reserved held → held = base := by
        intro held hheld
        exact Phase.reserved.inj (hheld.symm.trans hp)
      exact ⟨base, only, only⟩
  | unreserved =>
      refine ⟨0, ?_, ?_⟩
      · intro held hheld
        cases hheld.symm.trans hp
      · intro held hheld
        cases hheld.symm.trans hp
  | closed =>
      refine ⟨0, ?_, ?_⟩
      · intro held hheld
        cases hheld.symm.trans hp
      · intro held hheld
        cases hheld.symm.trans hp

/-! ### One operation -/

theorem Obtains.based (h : Obtains r clock (.ok base) r' made) : Based r r' base := by
  cases h with
  | held phase =>
      exact ⟨fun held hheld => Phase.reserved.inj (hheld.symm.trans phase),
        fun held hheld => Phase.reserved.inj (hheld.symm.trans phase)⟩
  | fresh phase pos h =>
      refine ⟨fun held hheld => ?_, fun held hheld => (Phase.reserved.inj hheld).symm⟩
      cases hheld.symm.trans phase

theorem Obtains.outline_of_ok (ok : Sound r) (h : Obtains r clock (.ok base) r' made) :
    r.outline.enter = .ok r'.outline := by
  unfold Outline.enter outline
  cases h with
  | held phase => simp [phase, Phase.stage]
  | fresh phase pos h => simp [phase, Phase.stage, (ok.unused phase).1]

/-- To be refused a base changes nothing. -/
theorem Obtains.eq_of_error (h : Obtains r clock (.error e) r' made) : r' = r := by
  cases h with
  | closed phase => rfl
  | unreserved phase reserves => rfl
  | unaddressable phase h => rfl

theorem Obtains.outline_of_error (h : Obtains r clock (.error e) r' made)
    (other : ∀ call errno, e ≠ .osFailure call errno) (placed : r.Placed made) :
    r.outline.enter = .error e := by
  unfold Outline.enter outline
  cases h with
  | closed phase => simp [phase, Phase.stage]
  | unreserved phase reserves =>
      cases reserves with
      | unusable => exact absurd rfl (other _ _)
      | failed errno result => exact absurd rfl (other _ _)
  | @unaddressable base phase h =>
      have hend := (placed base (List.mem_singleton_self _)).2
      exact absurd hend (Nat.not_lt.mpr h)

/-- There is always room to round an offset within a reservation up to a page, so it is the
system that has failed if the boundary could not be moved. -/
theorem Grows.failed {stop : Nat} (ok : Sound r) (paged : Paged r) (hp : r.phase = .reserved base)
    (htotal : stop ≤ r.total) (h : Grows r base stop (.error e) r' made) :
    ∃ call errno, e = .osFailure call errno := by
  cases h with
  | lost h => exact ⟨_, _, rfl⟩
  | unrounded h =>
      have hend := ok.addressable base hp
      have hroom := Word.add_le_limit paged.geometry.page paged.page_dvd_total ok.total_pos
        (by omega)
      obtain ⟨k, hpage⟩ := Word.isPowerOfTwo_iff.mp paged.geometry.page
      have hpos := Word.pos_of_isPowerOfTwo paged.geometry.page
      rw [hpage] at hroom hpos h
      rw [Word.roundUp?_two_pow, if_pos (by omega)] at h
      cases h

theorem Cuts.outline {size align : Nat} {answer : Except ArenaError Span} (ok : Sound r)
    (paged : Paged r) (hp : r.phase = .reserved base) (h : Cuts size align base r answer r' made)
    (succeeds : Succeeds answer)
    (bounded : ∀ stop total, answer = .error (.outOfBounds stop total) → stop < Word.limit) :
    r.outline.cut base size align = (answer, r'.outline) := by
  have hend := ok.addressable base hp
  have hcommitted := ok.committed_le
  have hcursor : r.outline.cursor = r.cursor := rfl
  have htotal : r.outline.total = r.total := rfl
  unfold Outline.cut
  rw [hcursor, htotal]
  cases h with
  | unrounded h => simp only [h]
  | oversized rounded h => simp only [rounded, if_pos h]
  | unfit rounded h =>
      have hword := Nat.not_le.mpr (bounded _ _ rfl)
      simp only [rounded, if_neg hword, if_pos h]
  | empty rounded fits h =>
      rename_i address
      have hword : ¬ Word.limit ≤ address - base + size := by omega
      simp only [rounded, if_neg hword, if_neg (Nat.not_lt.mpr fits), if_pos h]
  | inside rounded pos h =>
      rename_i address
      have hword : ¬ Word.limit ≤ address - base + size := by omega
      have hfits : ¬ r.total < address - base + size := by omega
      simp only [rounded, if_neg hword, if_neg hfits, if_neg (Nat.ne_of_gt pos)]
      rfl
  | grown rounded pos past fits grows =>
      rename_i address r₁
      have hword : ¬ Word.limit ≤ address - base + size := by omega
      simp only [rounded, if_neg hword, if_neg (Nat.not_lt.mpr fits), if_neg (Nat.ne_of_gt pos)]
      cases grows with
      | grown h => rfl
  | ungrown rounded pos past fits grows =>
      obtain ⟨call, errno, rfl⟩ := grows.failed ok paged hp fits
      exact absurd rfl (succeeds call errno)

theorem Slices.outline {size align : Nat} {answer : Except ArenaError Span} (ok : Sound r)
    (paged : Paged r) (h : Slices size align r clock answer r' made) (succeeds : Succeeds answer)
    (placed : r.Placed made)
    (bounded : ∀ stop total, answer = .error (.outOfBounds stop total) → stop < Word.limit) :
    ∃ base, Based r r' base ∧ r.outline.slice base size align = (answer, r'.outline) := by
  unfold Outline.slice
  cases h with
  | misaligned h =>
      obtain ⟨base, based⟩ := exists_based r
      exact ⟨base, based, if_neg (by simp [h])⟩
  | unobtained aligned obtains =>
      have henter := obtains.outline_of_error succeeds.other placed
      obtain rfl := obtains.eq_of_error
      obtain ⟨base, based⟩ := exists_based r'
      refine ⟨base, based, ?_⟩
      rw [if_pos aligned, henter]
  | @obtained base r₁ _ _ _ _ aligned obtains cuts =>
      have life := obtains.continues
      have ok₁ := life.sound ok
      have paged₁ := life.paged ok paged
      refine ⟨base, ⟨obtains.based.1, ?_⟩, ?_⟩
      · intro held hheld
        have hopen : r'.phase ≠ .closed := by
          rw [hheld]
          exact nofun
        exact obtains.based.2 held ((cuts.of_not_closed hopen).1 ▸ hheld)
      · rw [if_pos aligned, obtains.outline_of_ok ok]
        exact cuts.outline ok₁ paged₁ obtains.phase_of_ok succeeds bounded

theorem Checkpoints.outline {answer : Except ArenaError Handle} (ok : Sound r)
    (h : Checkpoints r clock answer r' made) (succeeds : Succeeds answer)
    (placed : r.Placed made) :
    ∃ base, Based r r' base ∧ r.outline.checkpoint = (answer, r'.outline) := by
  unfold Outline.checkpoint
  cases h with
  | unobtained obtains =>
      have henter := obtains.outline_of_error succeeds.other placed
      obtain rfl := obtains.eq_of_error
      obtain ⟨base, based⟩ := exists_based r'
      refine ⟨base, based, ?_⟩
      rw [henter]
  | @pushed base r₁ _ obtains =>
      refine ⟨base, obtains.based, ?_⟩
      rw [obtains.outline_of_ok ok]
      rfl

/-- Giving idle pages back shows in nothing, unless a call fails or the threshold is no word. -/
theorem Trims.kept_of_succeeds {answer : Except ArenaError Unit}
    (h : Trims r clock base answer r' made) (succeeds : Succeeds answer) :
    r'.phase = r.phase ∧ r'.outline = r.outline ∧
      (r.thresholdBytes < Word.limit → answer = .ok ()) := by
  cases h with
  | unmeasured h => exact ⟨rfl, rfl, fun fits => absurd fits (Nat.not_lt.mpr h)⟩
  | kept fits h => exact ⟨rfl, rfl, fun _ => rfl⟩
  | trimmed fits due => exact ⟨rfl, rfl, fun _ => rfl⟩
  | lost fits due uncommits =>
      cases uncommits with
      | unprotected errno => exact absurd rfl (succeeds _ _)
      | kept errno => exact absurd rfl (succeeds _ _)

theorem RollsBack.outline {handle : Handle} {answer : Except ArenaError Unit}
    (h : RollsBack handle r clock answer r' made) (succeeds : Succeeds answer)
    (unheld : (r.phase = .unreserved → answer = .error (.invalidState StateFault.noCheckpoints)) ∧
      (r.phase = .closed → answer = .error (.invalidState StateFault.regionClosed))) :
    r'.phase = r.phase ∧ r'.outline = (r.outline.rollback handle).2 ∧
      (r.thresholdBytes < Word.limit → answer = (r.outline.rollback handle).1) := by
  cases h with
  | unreserved h =>
      cases hp : r.phase with
      | reserved base => exact absurd hp (h base)
      | unreserved =>
          have hstage : r.outline.stage = .unreserved := congrArg Phase.stage hp
          rw [unheld.1 hp, Outline.rollback]
          simp only [hstage]
          exact ⟨trivial, trivial, fun _ => trivial⟩
      | closed =>
          have hstage : r.outline.stage = .closed := congrArg Phase.stage hp
          rw [unheld.2 hp, Outline.rollback]
          simp only [hstage]
          exact ⟨trivial, trivial, fun _ => trivial⟩
  | stale phase h =>
      rw [Outline.rollback_stale (o := r.outline) (congrArg Phase.stage phase) h]
      exact ⟨rfl, rfl, fun _ => rfl⟩
  | popped phase saved newest trims =>
      obtain ⟨hphase, houtline, hanswer⟩ := trims.kept_of_succeeds succeeds
      rw [Outline.rollback_newest (o := r.outline) (congrArg Phase.stage phase) saved newest]
      exact ⟨hphase, houtline, hanswer⟩

theorem Closes.outline {answer : Except ArenaError Unit} (h : Closes r answer r' made)
    (ok : Sound r) (succeeds : Succeeds answer) : r.outline.close = (answer, r'.outline) := by
  unfold Outline.close Region.outline
  cases h with
  | again phase => simp [phase, Phase.stage]
  | unused phase => simp [phase, Phase.stage, ok.saved_nil (Or.inl phase)]
  | released phase answered =>
      cases answered with
      | failed errno => exact absurd rfl (succeeds _ _)
      | done => simp [phase, Phase.stage, Region.abandoned]

/-! ### What the relations leave open -/

variable {w w' : World Region}

theorem rollback_of_unheld {handle : Handle} {answer : Except ArenaError Unit}
    (h : (rollback handle).run w = (answer, w')) :
    (w.self.phase = .unreserved → answer = .error (.invalidState StateFault.noCheckpoints)) ∧
      (w.self.phase = .closed → answer = .error (.invalidState StateFault.regionClosed)) := by
  unfold rollback currentBase at h
  constructor
  · intro hp
    simp only [Act.run_bind, Act.run_self, hp, Act.run_raise] at h
    exact (Prod.mk.inj h).1.symm
  · intro hp
    simp only [Act.run_bind, Act.run_self, hp, Act.run_raise] at h
    exact (Prod.mk.inj h).1.symm

/-- An end that is no word is found out before anything else. -/
theorem cut_of_oversized {size align address : Nat} (ok : Sound w.self)
    (hp : w.self.phase = .reserved base)
    (rounded : Word.roundUp? (base + w.self.cursor) align = some address)
    (h : Word.limit ≤ address - base + size) :
    ((cut base size align).run w).1 = .error (.sizeOverflow Arithmetic.add) := by
  have hle : base ≤ address := Nat.le_trans (Nat.le_add_right _ _) (Word.le_of_roundUp? rounded)
  simp only [cut, Act.run_self_bind, Checked.add_of_lt (ok.here_lt hp), Act.settle_ok,
    Act.run_pure_bind]
  rw [Checked.roundUp_of_some rounded, Act.settle_ok, Act.run_bind, Act.run_pure]
  simp only [Checked.sub_of_le hle, Act.settle_ok, Act.run_pure_bind, Checked.add_of_le h]
  rfl

/-- So an answer that tells the end of a slice tells a word. -/
theorem cut_outOfBounds {size align stop total : Nat} (ok : Sound w.self)
    (hp : w.self.phase = .reserved base)
    (h : (cut base size align).run w = (.error (.outOfBounds stop total), w')) :
    stop < Word.limit := by
  obtain ⟨r', made, cuts, -⟩ := cut_cuts ok hp h
  have hanswer : ((cut base size align).run w).1 = .error (.outOfBounds stop total) := by rw [h]
  generalize hgiven : (Except.error (.outOfBounds stop total) : Except ArenaError Span) = answer
    at cuts
  cases cuts with
  | unrounded h => cases hgiven
  | oversized rounded h => cases hgiven
  | empty rounded fits h => cases hgiven
  | inside rounded pos h => cases hgiven
  | grown rounded pos past fits grows => cases hgiven
  | ungrown rounded pos past fits grows =>
      obtain rfl := Except.error.inj hgiven
      cases grows
  | unfit rounded hunfit =>
      obtain ⟨rfl, -⟩ := ArenaError.outOfBounds.inj (Except.error.inj hgiven)
      by_contra hword
      rw [cut_of_oversized ok hp rounded (Nat.not_lt.mp hword)] at hanswer
      cases hanswer

theorem slice_outOfBounds {size align stop total : Nat} (ok : Sound w.self)
    (h : (slice size align).run w = (.error (.outOfBounds stop total), w')) :
    stop < Word.limit := by
  unfold slice at h
  cases ha : Word.isPowerOfTwo align with
  | false =>
      rw [Checked.alignment_of_not ha, Act.settle_error, Act.run_bind, Act.run_raise] at h
      cases (Prod.mk.inj h).1
  | true =>
      rw [Checked.alignment_of_isPowerOfTwo ha, Act.settle_ok, Act.run_pure_bind] at h
      obtain ⟨base, w₁, hb, h⟩ | ⟨e, hb, he⟩ := Act.run_bind_cases h
      · obtain ⟨r, made, obtains, first⟩ := obtainBase_obtains hb
        have ok₁ : Sound w₁.self := by
          rw [first.self]
          exact obtains.continues.sound ok
        have hp₁ : w₁.self.phase = .reserved base := by rw [first.self, obtains.phase_of_ok]
        exact cut_outOfBounds ok₁ hp₁ h
      · -- The base is refused for other reasons.
        obtain ⟨r, made, obtains, -⟩ := obtainBase_obtains hb
        obtain rfl := Except.error.inj he
        cases obtains with
        | unreserved phase reserves => cases reserves

/-! ### One episode -/

/-- An episode in which no call to the system fails, as can be seen from the answer, and the
region can begin where a mapping is made. -/
structure Granted (r : Region) (e : Episode) : Prop where
  succeeds : Succeeds (r.answer e)
  placed : r.Placed (r.calls e)

theorem ok_of_map {α β : Type} {answer : Except ArenaError α} {f : α → β} {b : β}
    (h : answer.map f = .ok b) : ∃ a, answer = .ok a ∧ f a = b := by
  cases answer with
  | ok a => exact ⟨a, rfl, Except.ok.inj h⟩
  | error e => cases h

theorem error_of_map {α β : Type} {answer : Except ArenaError α} {f : α → β} {e : ArenaError}
    (h : answer.map f = .error e) : answer = .error e := by
  cases answer with
  | ok a => cases h
  | error e' => exact congrArg _ (Except.error.inj h)

theorem answer_outOfBounds (ok : Sound r) {machine : Machine} {size align stop total : Nat}
    (h : r.answer ⟨machine, .slice size align⟩ = .error (.outOfBounds stop total)) :
    stop < Word.limit := by
  have okw : Sound (World.mk machine r).self := ok
  unfold answer meet at h
  simp only [Request.act, run_bind_pure] at h
  rcases hrun : (Region.slice size align).run ⟨machine, r⟩ with ⟨answer, w'⟩
  rw [hrun] at h
  obtain rfl := error_of_map h
  exact slice_outOfBounds okw hrun

theorem answer_of_unheld (r : Region) (machine : Machine) (handle : Handle) :
    (r.phase = .unreserved → r.answer ⟨machine, .rollback handle⟩
        = .error (.invalidState StateFault.noCheckpoints)) ∧
      (r.phase = .closed → r.answer ⟨machine, .rollback handle⟩
        = .error (.invalidState StateFault.regionClosed)) := by
  unfold answer meet
  simp only [Request.act, run_bind_pure]
  rcases hrun : (Region.rollback handle).run ⟨machine, r⟩ with ⟨answer, w'⟩
  obtain ⟨hunreserved, hclosed⟩ := rollback_of_unheld hrun
  constructor
  · intro hp
    rw [hunreserved hp]
    rfl
  · intro hp
    rw [hclosed hp]
    rfl

/-- **A region answers as its outline does**, and leaves it as that is left, as long as
nothing is refused by the system. -/
theorem meet_outline (ok : Sound r) (paged : Paged r) {e : Episode} (granted : r.Granted e) :
    ∃ base, Based r (r.after e) base ∧
      (r.after e).outline = (r.outline.meet base e.request).2 ∧
      (r.thresholdBytes < Word.limit → r.answer e = (r.outline.meet base e.request).1) := by
  obtain ⟨machine, request⟩ := e
  obtain ⟨succeeds, placed⟩ := granted
  have hmeets := meet_meets ok ⟨machine, request⟩
  cases request with
  | slice size align =>
      have bounded : ∀ stop total, r.answer ⟨machine, .slice size align⟩
          = .error (.outOfBounds stop total) → stop < Word.limit :=
        fun _ _ => answer_outOfBounds ok
      generalize r.answer _ = answer at hmeets succeeds bounded ⊢
      generalize r.after _ = r' at hmeets ⊢
      generalize r.calls _ = made at hmeets placed
      cases hmeets with
      | @slice _ _ answer _ _ h =>
          obtain ⟨base, based, houtline⟩ := h.outline ok paged succeeds.of_map placed
            (fun stop total he => bounded stop total (he ▸ rfl))
          refine ⟨base, based, ?_, fun _ => ?_⟩
          · rw [Outline.meet, houtline]
          · rw [Outline.meet, houtline]
  | checkpoint =>
      generalize r.answer _ = answer at hmeets succeeds ⊢
      generalize r.after _ = r' at hmeets ⊢
      generalize r.calls _ = made at hmeets placed
      cases hmeets with
      | checkpoint h =>
          obtain ⟨base, based, houtline⟩ := h.outline ok succeeds.of_map placed
          refine ⟨base, based, ?_, fun _ => ?_⟩
          · rw [Outline.meet, houtline]
          · rw [Outline.meet, houtline]
  | rollback handle =>
      have unheld := answer_of_unheld r machine handle
      generalize r.answer _ = answer at hmeets succeeds unheld ⊢
      generalize r.after _ = r' at hmeets ⊢
      generalize r.calls _ = made at hmeets placed
      cases hmeets with
      | rollback h =>
          obtain ⟨hphase, houtline, hanswer⟩ := h.outline succeeds.of_map
            ⟨fun hp => error_of_map (unheld.1 hp), fun hp => error_of_map (unheld.2 hp)⟩
          obtain ⟨base, based⟩ := exists_based r
          refine ⟨base, ⟨based.1, fun held hheld => based.1 held (hphase ▸ hheld)⟩, houtline, ?_⟩
          exact fun fits => congrArg _ (hanswer fits)
  | close =>
      generalize r.answer _ = answer at hmeets succeeds ⊢
      generalize r.after _ = r' at hmeets ⊢
      generalize r.calls _ = made at hmeets placed
      cases hmeets with
      | close h =>
          have houtline := h.outline ok succeeds.of_map
          obtain ⟨base, based⟩ := exists_based r
          refine ⟨base, ⟨based.1, ?_⟩, ?_, fun _ => ?_⟩
          · intro held hheld
            cases hheld.symm.trans h.closed
          · rw [Outline.meet, houtline]
          · rw [Outline.meet, houtline]

end Region

end PageArena
