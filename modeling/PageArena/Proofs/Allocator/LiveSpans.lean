/-
The spans that are live in a region that pools share.

The ledger of a region notes what is asked of the region itself.  Beneath pools one errand may
come to two requests, a checkpoint and a slice, and a rollback is nobody's request.  So what
was done is read off from the region: its stack has become higher or lower, and a span was
given or not (`attend`).  The ledger that is kept in this way fits the region as well, on every
occasion (`fits_next`).

A span is live until it is rolled back past.  That is to say, it is live as long as the region
is open and its stack is at least as high as when the span was given (`Outlasts.attend`).
-/
import Mathlib
import PageArena.Proofs.Allocator.Occasions
import PageArena.Proofs.Region.Handles

namespace PageArena

open OsCall (Record)

namespace Ledger

/-- What became of the stack is seen from the region. -/
def restack (l : Ledger) (before after : Region) : Ledger :=
  if before.depth < after.depth then l.push
  else if after.depth < before.depth then l.pop
  else l

/-- The ledger after one more thing was done to a region, whoever did it, and a span was given
if there was one. -/
def attend (l : Ledger) (before after : Region) (size align : Nat) (given : Option Span) :
    Ledger :=
  if after.isClosed then { moment := l.moment + 1 }
  else
    match given with
    | some span => (l.restack before after).take size align span
    | none => (l.restack before after).tick

variable {l : Ledger} {r r₁ r' : Region} {clock size align : Nat} {made : List Record}

theorem attend_of_closed (h : r'.phase = .closed) (given : Option Span) :
    l.attend r r' size align given = { moment := l.moment + 1 } :=
  if_pos (by rw [Region.isClosed, h]; rfl)

theorem attend_of_open (hopen : r'.phase ≠ .closed) (given : Option Span) :
    l.attend r r' size align given
      = match given with
        | some span => (l.restack r r').take size align span
        | none => (l.restack r r').tick :=
  if_neg (by simpa [Region.isClosed] using hopen)

/-- Where the stack is as high as before, it is only the span that counts. -/
theorem attend_of_depth (hopen : r'.phase ≠ .closed) (hdepth : r'.depth = r.depth)
    (given : Option Span) :
    l.attend r r' size align given
      = match given with
        | some span => l.take size align span
        | none => l.tick := by
  have hle : ¬ r.depth < r'.depth := by omega
  have hge : ¬ r'.depth < r.depth := by omega
  rw [attend_of_open hopen, restack, if_neg hle, if_neg hge]

namespace Fits

theorem tick (fits : l.Fits r) : l.tick.Fits r := fits.later rfl rfl (Nat.le_refl _)

theorem attend_closed (ok : Region.Sound r') (h : r'.phase = .closed) (given : Option Span) :
    (l.attend r r' size align given).Fits r' := by
  rw [attend_of_closed h]
  exact .closed _ (ok.saved_nil (Or.inr h))

theorem attend_slice (fits : l.Fits r) (ok : Region.Sound r) {answer : Except ArenaError Span}
    (h : Region.Slices size align r clock answer r' made) :
    (l.attend r r' size align answer.toOption).Fits r' := by
  have ok' := h.continues.sound ok
  by_cases hclosed : r'.phase = .closed
  · exact attend_closed ok' hclosed _
  · obtain ⟨hsaved, -⟩ := h.of_not_closed ok hclosed
    have hdepth : r'.depth = r.depth := congrArg List.length hsaved
    have noted := fits_of_meets fits ok (.slice h)
    have hnot : ¬ r'.isClosed = true := by simpa [Region.isClosed] using hclosed
    simp only [note, if_neg hnot] at noted
    rw [attend_of_depth hclosed hdepth]
    cases answer with
    | ok span => exact noted
    | error e => exact noted

theorem attend_checkpoint (fits : l.Fits r) (ok : Region.Sound r) {answer : Except ArenaError Handle}
    (h : Region.Checkpoints r clock answer r' made) :
    (l.attend r r' size align none).Fits r' := by
  have ok' := h.continues.sound ok
  by_cases hclosed : r'.phase = .closed
  · exact attend_closed ok' hclosed _
  · have noted := fits_of_meets fits ok (.checkpoint h)
    have hnot : ¬ r'.isClosed = true := by simpa [Region.isClosed] using hclosed
    simp only [note, if_neg hnot] at noted
    cases h with
    | unobtained obtains =>
        obtain ⟨hsaved, -⟩ := obtains.of_sound ok
        rw [attend_of_depth hclosed (congrArg List.length hsaved)]
        exact noted
    | @pushed base r₁ _ obtains =>
        obtain ⟨hsaved, -⟩ := obtains.of_sound ok
        have hgrown : r.depth < ({ r₁ with saved := r₁.cursor :: r₁.saved } : Region).depth := by
          simp [Region.depth, hsaved]
        rw [attend_of_open hclosed, restack, if_pos hgrown]
        exact Fits.tick noted

theorem attend_rollback (fits : l.Fits r) (ok : Region.Sound r) {handle : Handle}
    {answer : Except ArenaError Unit} (h : Region.RollsBack handle r clock answer r' made) :
    (l.attend r r' size align none).Fits r' := by
  have ok' := (h.continues ok).sound ok
  by_cases hclosed : r'.phase = .closed
  · exact attend_closed ok' hclosed _
  · have noted := fits_of_meets fits ok (.rollback h)
    have hnot : ¬ r'.isClosed = true := by simpa [Region.isClosed] using hclosed
    simp only [note, if_neg hnot] at noted
    by_cases hshorter : r'.depth < r.depth
    · rw [if_pos hshorter] at noted
      rw [attend_of_open hclosed, restack, if_neg (Nat.lt_asymm hshorter), if_pos hshorter]
      exact Fits.tick noted
    · rw [if_neg hshorter] at noted
      have hdepth : r'.depth = r.depth := by
        cases h with
        | unreserved h => rfl
        | stale phase h => rfl
        | popped phase saved newest trims =>
            obtain ⟨-, hsaved, -⟩ := trims.of_not_closed hclosed
            refine absurd ?_ hshorter
            simp [Region.depth, hsaved, saved]
      rw [attend_of_depth hclosed hdepth]
      exact noted

/-- A checkpoint, and a slice after it. -/
theorem attend_started (fits : l.Fits r) (ok : Region.Sound r) {handle : Handle}
    {answer : Except ArenaError Span} {made' : List Record}
    (first : Region.Checkpoints r clock (.ok handle) r₁ made)
    (next : Region.Slices size align r₁ clock answer r' made') :
    (l.attend r r' size align answer.toOption).Fits r' := by
  have ok₁ := first.continues.sound ok
  have ok' := next.continues.sound ok₁
  by_cases hclosed : r'.phase = .closed
  · exact attend_closed ok' hclosed _
  · obtain ⟨hsaved', -⟩ := next.of_not_closed ok₁ hclosed
    have hdepth : r'.depth = r₁.depth := congrArg List.length hsaved'
    cases first with
    | @pushed base r₂ _ obtains =>
        obtain ⟨hsaved, hcursor, -⟩ := obtains.of_sound ok
        have hgrown : r.depth < r'.depth := by
          rw [hdepth]
          simp [Region.depth, hsaved]
        have pushed : l.push.Fits { r₂ with saved := r₂.cursor :: r₂.saved } :=
          (fits.obtained ok obtains).checkpointed rfl rfl rfl
        have sliced := attend_slice pushed ok₁ next
        rw [attend_of_depth hclosed hdepth] at sliced
        rw [attend_of_open hclosed, restack, if_pos hgrown]
        exact sliced

theorem attend_close (ok : Region.Sound r) {answer : Except ArenaError Unit}
    (h : Region.Closes r answer r' made) : (l.attend r r' size align none).Fits r' :=
  attend_closed (h.continues.sound ok) h.closed _

/-- Nothing was done to the region. -/
theorem attend_same (fits : l.Fits r) (ok : Region.Sound r) :
    (l.attend r r size align none).Fits r := by
  by_cases hclosed : r.phase = .closed
  · exact attend_closed ok hclosed _
  · rw [attend_of_depth hclosed rfl]
    exact fits.tick

/-- A live span that holds bytes. -/
theorem mem_solid (fits : l.Fits r) {h : Holding} (hh : h ∈ l.live) (pos : 0 < h.span.length) :
    h ∈ l.solid := by
  rw [fits.measured h hh] at pos
  exact List.mem_filter.mpr ⟨hh, decide_eq_true pos⟩

/-- A byte of a live span lies in the reservation, and below the cursor. -/
theorem below_cursor (fits : l.Fits r) {h : Holding} (hh : h ∈ l.live) {i : Nat}
    (hi : i < h.span.length) : ∃ base, r.phase = .reserved base ∧
      base ≤ h.span.start + i ∧ h.span.start + i < base + r.cursor := by
  have hsolid := fits.mem_solid hh (Nat.lt_of_le_of_lt (Nat.zero_le i) hi)
  obtain ⟨-, base, hbase, hlow, hhigh⟩ := fits.held h hsolid
  have hstop : h.span.stop = h.span.start + h.span.length := rfl
  exact ⟨base, hbase, by omega, by omega⟩

/-- Different live spans share no byte. -/
theorem apart (fits : l.Fits r) {h h' : Holding} (hh : h ∈ l.solid) (hh' : h' ∈ l.solid)
    (hne : h ≠ h') : h.span.Apart h'.span := by
  have symm : Std.Symm fun h h' : Holding => h.span.Apart h'.span := ⟨fun _ _ => Or.symm⟩
  have apart : l.solid.Pairwise fun h h' => h.span.Apart h'.span :=
    fits.ordered.imp fun hle => Or.inr hle
  exact apart.forall hh hh' hne

end Fits

/-- The live spans can be told apart by the moments at which they were given. -/
structure Numbered (l : Ledger) : Prop where
  past : ∀ h ∈ l.live, h.moment < l.moment
  distinct : l.live.Pairwise fun newer older => older.moment < newer.moment

namespace Numbered

theorem of_empty (moment : Nat) : Numbered { moment := moment } := ⟨nofun, .nil⟩

theorem tick (numbered : l.Numbered) : l.tick.Numbered :=
  ⟨fun h hh => Nat.lt_succ_of_lt (numbered.past h hh), numbered.distinct⟩

theorem push (numbered : l.Numbered) : l.push.Numbered :=
  ⟨fun h hh => Nat.lt_succ_of_lt (numbered.past h hh), numbered.distinct⟩

theorem pop (numbered : l.Numbered) : l.pop.Numbered := by
  unfold Ledger.pop
  split
  · refine ⟨fun h hh => ?_, numbered.distinct.sublist List.filter_sublist⟩
    exact Nat.lt_succ_of_lt (numbered.past h (List.mem_of_mem_filter hh))
  · exact numbered.tick

theorem take (numbered : l.Numbered) (size align : Nat) (span : Span) :
    (l.take size align span).Numbered := by
  refine ⟨List.forall_mem_cons.mpr ⟨Nat.lt_succ_self _, ?_⟩, ?_⟩
  · exact fun h hh => Nat.lt_succ_of_lt (numbered.past h hh)
  · exact List.pairwise_cons.mpr ⟨numbered.past, numbered.distinct⟩

end Numbered

/-- Nothing becomes live by a change of the stack. -/
theorem live_restack (l : Ledger) (r r' : Region) :
    (∀ h ∈ (l.restack r r').live, h ∈ l.live) ∧ l.moment ≤ (l.restack r r').moment := by
  unfold restack
  split
  · exact ⟨fun _ => id, Nat.le_succ _⟩
  · split
    · unfold pop
      split
      · exact ⟨fun _ => List.mem_of_mem_filter, Nat.le_succ _⟩
      · exact ⟨fun _ => id, Nat.le_succ _⟩
    · exact ⟨fun _ => id, Nat.le_refl _⟩

/-- What is live afterwards was live before, or is the span that was given. -/
theorem mem_live_attend {h : Holding} {given : Option Span}
    (hh : h ∈ (l.attend r r' size align given).live) :
    h ∈ l.live ∨ given = some h.span ∧ l.moment ≤ h.moment := by
  obtain ⟨hsub, hmoment⟩ := live_restack l r r'
  by_cases hclosed : r'.phase = .closed
  · rw [attend_of_closed hclosed] at hh
    cases hh
  · rw [attend_of_open hclosed] at hh
    cases given with
    | none => exact Or.inl (hsub h hh)
    | some span =>
        rcases List.mem_cons.mp hh with rfl | hh
        · exact Or.inr ⟨rfl, hmoment⟩
        · exact Or.inl (hsub h hh)

theorem Numbered.attend (numbered : l.Numbered) (given : Option Span) :
    (l.attend r r' size align given).Numbered := by
  have restacked : (l.restack r r').Numbered := by
    unfold restack
    split
    · exact numbered.push
    · split
      · exact numbered.pop
      · exact numbered
  by_cases hclosed : r'.phase = .closed
  · rw [attend_of_closed hclosed]
    exact .of_empty _
  · rw [attend_of_open hclosed]
    cases given with
    | none => exact restacked.tick
    | some span => exact restacked.take size align span

/-- The span is live, and of the checkpoints on the stack all but the lowest, as many as that,
are younger than it. -/
def Outlasts (l : Ledger) (floor : Nat) (h : Holding) : Prop :=
  h ∈ l.live ∧ ∃ newer older, l.pushed = newer ++ older ∧ older.length = floor ∧
    ∀ mark ∈ newer, h.moment < mark

theorem Outlasts.tick {floor : Nat} {h : Holding} (lasts : l.Outlasts floor h) :
    l.tick.Outlasts floor h := lasts

theorem Outlasts.take {floor : Nat} {h : Holding} (lasts : l.Outlasts floor h) (span : Span) :
    (l.take size align span).Outlasts floor h := ⟨List.mem_cons_of_mem _ lasts.1, lasts.2⟩

theorem Outlasts.push {floor : Nat} {h : Holding} (lasts : l.Outlasts floor h)
    (numbered : l.Numbered) : l.push.Outlasts floor h := by
  obtain ⟨hlive, newer, older, hpushed, hfloor, hyounger⟩ := lasts
  refine ⟨hlive, l.moment :: newer, older, ?_, hfloor, ?_⟩
  · rw [List.cons_append, ← hpushed]
    rfl
  · exact List.forall_mem_cons.mpr ⟨numbered.past h hlive, hyounger⟩

/-- A checkpoint is taken off, and it is not one of the lowest. -/
theorem Outlasts.pop {floor : Nat} {h : Holding} (lasts : l.Outlasts floor h)
    (high : floor ≤ l.pop.pushed.length) : l.pop.Outlasts floor h := by
  obtain ⟨hlive, newer, older, hpushed, hfloor, hyounger⟩ := lasts
  unfold Ledger.pop at high ⊢
  cases newer with
  | nil =>
      rw [List.nil_append] at hpushed
      cases older with
      | nil =>
          simp only [hpushed]
          exact ⟨hlive, [], [], hpushed, hfloor, nofun⟩
      | cons mark older =>
          simp only [hpushed] at high
          simp only [List.length_cons] at hfloor
          omega
  | cons mark newer =>
      rw [List.cons_append] at hpushed
      obtain ⟨hmark, hyounger⟩ := List.forall_mem_cons.mp hyounger
      simp only [hpushed]
      exact ⟨List.mem_filter.mpr ⟨hlive, decide_eq_true hmark⟩, newer, older, rfl, hfloor, hyounger⟩

/-- **A span stays live** as long as the region is open and its stack is as high as when the
span was given. -/
theorem Outlasts.attend {floor : Nat} {h : Holding} (lasts : l.Outlasts floor h)
    (numbered : l.Numbered) (given : Option Span)
    (fits : (l.attend r r' size align given).Fits r') (hopen : r'.phase ≠ .closed)
    (high : floor ≤ r'.depth) : (l.attend r r' size align given).Outlasts floor h := by
  rw [← fits.length_pushed] at high
  rw [attend_of_open hopen] at high ⊢
  have restacked : (l.restack r r').Outlasts floor h := by
    have high : floor ≤ (l.restack r r').pushed.length := by
      cases given with
      | none => exact high
      | some span => exact high
    unfold restack at high ⊢
    by_cases hgrown : r.depth < r'.depth
    · rw [if_pos hgrown]
      exact lasts.push numbered
    · rw [if_neg hgrown] at high ⊢
      by_cases hshorter : r'.depth < r.depth
      · rw [if_pos hshorter] at high ⊢
        exact lasts.pop high
      · rw [if_neg hshorter]
        exact lasts
  cases given with
  | none => exact restacked.tick
  | some span => exact restacked.take span

end Ledger

namespace Pool

variable {t t' : Tenancy} {clock : Nat} {made : List Record}

/-- An allocation from a pool is a slice of the region, and a checkpoint before it if the pool
begins with it. -/
theorem Allocates.fits {l : Ledger} {size align : Nat} {answer : Except ArenaError Span}
    (fits : l.Fits t.region) (ok : Region.Sound t.region)
    (h : Allocates size align t clock answer t' made) :
    (l.attend t.region t'.region size align answer.toOption).Fits t'.region := by
  cases h with
  | closed h => exact fits.attend_same ok
  | active h slices => exact fits.attend_slice ok slices
  | unstarted h checkpoints => exact fits.attend_checkpoint ok checkpoints
  | started h checkpoints slices => exact fits.attend_started ok checkpoints slices

theorem Closes.fits {l : Ledger} {size align : Nat} {answer : Except ArenaError Unit}
    (fits : l.Fits t.region) (ok : Region.Sound t.region) (h : Closes t clock answer t' made) :
    (l.attend t.region t'.region size align none).Fits t'.region := by
  cases h with
  | again h => exact fits.attend_same ok
  | unused h => exact fits.attend_same ok
  | rolled h rolls => exact fits.attend_rollback ok rolls

end Pool

/-- The span of a reply, if it is one. -/
def Region.Reply.span? : Region.Reply → Option Span
  | .span s => some s
  | .handle _ | .done => none

namespace Commons

variable {c : Commons}

/-- The size and the alignment of the memory that is asked for. -/
def Deed.wanted : Deed → Nat × Nat
  | .ask (.slice size align) | .errand _ (.allocate size align _) => (size, align)
  | .ask _ | .errand _ _ | .discard => (0, 1)

/-- The span that is given on an occasion, if one is. -/
def given? (c : Commons) (o : Occasion) : Option Span :=
  match o.deed with
  | .ask request => (c.region.answer ⟨o.machine, request⟩).toOption.bind Region.Reply.span?
  | .errand p errand => (c.answer ⟨o.machine, p, errand⟩).toOption.join
  | .discard => none

/-- A span that is given begins at the cursor or after it. -/
theorem next_of_given (ok : Region.Sound c.region) {o : Occasion} {span : Span}
    (gives : c.given? o = some span) : ∃ base, (c.next o).region.phase = .reserved base ∧
      base + c.region.cursor ≤ span.start := by
  obtain ⟨machine, deed⟩ := o
  cases deed with
  | discard => cases gives
  | errand p errand =>
      have hanswer : c.answer ⟨machine, p, errand⟩ = .ok (some span) := by
        have gives : (c.answer ⟨machine, p, errand⟩).toOption.join = some span := gives
        cases hanswer : c.answer ⟨machine, p, errand⟩ with
        | error e =>
            rw [hanswer] at gives
            cases gives
        | ok given =>
            rw [hanswer] at gives
            exact congrArg _ gives
      obtain ⟨base, hbase, hstart, -⟩ := region_of_given ok hanswer
      exact ⟨base, hbase, hstart⟩
  | ask request =>
      have gives : (c.region.answer ⟨machine, request⟩).toOption.bind Region.Reply.span?
          = some span := gives
      have hmeets := Region.meet_meets ok ⟨machine, request⟩
      show ∃ base, (c.region.after ⟨machine, request⟩).phase = _ ∧ _
      generalize c.region.answer _ = answer at gives hmeets
      generalize c.region.after _ = r' at hmeets ⊢
      generalize c.region.calls _ = made at hmeets
      cases hmeets with
      | @slice size align answer _ _ h =>
          cases answer with
          | error e => cases gives
          | ok given =>
              obtain rfl := Option.some.inj gives
              obtain ⟨base, hbase, hstart, -⟩ := h.of_ok ok
              exact ⟨base, hbase, hstart⟩
      | @checkpoint answer _ _ h => cases answer <;> cases gives
      | @rollback handle answer _ _ h => cases answer <;> cases gives
      | @close answer _ _ h => cases answer <;> cases gives

/-- The ledger after an occasion. -/
def noted (c : Commons) (l : Ledger) (o : Occasion) : Ledger :=
  l.attend c.region (c.next o).region o.deed.wanted.1 o.deed.wanted.2 (c.given? o)

/-- **One occasion**: the ledger that fitted before fits afterwards. -/
theorem fits_next {l : Ledger} (fits : l.Fits c.region) (ok : Region.Sound c.region)
    (o : Occasion) : (c.noted l o).Fits (c.next o).region := by
  unfold noted
  obtain ⟨machine, deed⟩ := o
  cases deed with
  | discard =>
      have happens := next_happens ok ⟨machine, .discard⟩
      generalize c.made _ = made at happens
      generalize (c.next _).region = r' at happens ⊢
      cases happens with
      | discard h =>
          cases h with
          | unheld h => exact fits.attend_same ok
          | released held =>
              have ok' := (Region.continues_abandoned c.region).sound ok
              exact .attend_closed ok' rfl _
  | errand p errand =>
      have hgoes := meet_goes ok ⟨machine, p, errand⟩
      show (l.attend c.region (c.meet ⟨machine, p, errand⟩).2.self.region _ _
        (c.answer ⟨machine, p, errand⟩).toOption.join).Fits
          (c.meet ⟨machine, p, errand⟩).2.self.region
      generalize c.answer _ = answer at hgoes ⊢
      generalize (c.meet _).2.self = t' at hgoes ⊢
      generalize c.calls _ = made at hgoes
      cases hgoes with
      | allocate h =>
          rename_i answer
          cases answer with
          | ok span => exact h.fits fits ok
          | error e => exact h.fits fits ok
      | drop h => exact h.fits fits ok
      | close h =>
          rename_i answer
          cases answer with
          | ok u => exact h.fits fits ok
          | error e => exact h.fits fits ok
  | ask request =>
      have hmeets := Region.meet_meets ok ⟨machine, request⟩
      show (l.attend c.region (c.region.after ⟨machine, request⟩) _ _
        ((c.region.answer ⟨machine, request⟩).toOption.bind Region.Reply.span?)).Fits
          (c.region.after ⟨machine, request⟩)
      generalize c.region.answer _ = answer at hmeets ⊢
      generalize c.region.after _ = r' at hmeets ⊢
      generalize c.region.calls _ = made at hmeets
      cases hmeets with
      | @slice size align answer _ _ h =>
          cases answer with
          | ok span => exact fits.attend_slice ok h
          | error e => exact fits.attend_slice ok h
      | @checkpoint answer _ _ h =>
          cases answer with
          | ok handle => exact fits.attend_checkpoint ok h
          | error e => exact fits.attend_checkpoint ok h
      | @rollback handle answer _ _ h =>
          cases answer with
          | ok u => exact fits.attend_rollback ok h
          | error e => exact fits.attend_rollback ok h
      | @close answer _ _ h =>
          cases answer with
          | ok u => exact .attend_close ok h
          | error e => exact .attend_close ok h

end Commons

end PageArena
