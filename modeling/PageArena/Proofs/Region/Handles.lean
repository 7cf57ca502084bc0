/-
Which checkpoint a handle stands for.

A handle is a place on the stack of a region, and nothing else.  It does not say which region
it came from, nor when.  So a region that is given a handle looks for the checkpoint that is
at that place now, and accepts the handle if this is its newest one.

The ledger tells the checkpoints apart, by the moment at which each was pushed.  While a
checkpoint is on the stack it keeps its place (`Placed`), so its own handle is accepted
exactly while it is the newest; and once it is off the stack it never comes back.  But
another one may come to the same place then, or be at that place in another region, and it
is taken off by the same handle: see `handle_accepted_twice`.
-/
import Mathlib
import PageArena.Proofs.Region.LiveSpans
import PageArena.Scope

namespace PageArena

open OsCall (Record)

namespace Ledger

open Region (Request Reply Episode)

variable {l : Ledger} {r r' : Region} {clock mark place : Nat} {made : List Record}

/-- A ledger that is kept in two parts. -/
theorem follow_append (l : Ledger) (r : Region) (es later : List Episode) :
    l.follow r (es ++ later) = (l.follow r es).follow (r.run es) later := by
  induction es generalizing l r with
  | nil => rfl
  | cons e es ih => exact ih _ _

/-- What an operation does to the checkpoints: it pushes one, takes the newest off, takes all
off, or leaves them. -/
theorem pushed_note (l : Ledger) (r : Region) (request : Request)
    (answer : Except ArenaError Reply) (r' : Region) :
    (l.note r request answer r').moment = l.moment + 1 ∧
      ((l.note r request answer r').pushed = l.pushed ∨
        (l.note r request answer r').pushed = l.moment :: l.pushed ∨
        (l.note r request answer r').pushed = l.pushed.tail ∨
        (l.note r request answer r').pushed = []) := by
  unfold note
  split
  · exact ⟨rfl, by simp⟩
  · split
    · exact ⟨rfl, Or.inl rfl⟩
    · exact ⟨rfl, Or.inr (Or.inl rfl)⟩
    · split
      · unfold pop
        split
        · rename_i hpushed
          refine ⟨rfl, Or.inr (Or.inr (Or.inl ?_))⟩
          rw [hpushed]
          rfl
        · exact ⟨rfl, Or.inl rfl⟩
      · exact ⟨rfl, Or.inl rfl⟩
    · exact ⟨rfl, Or.inl rfl⟩

/-- Checkpoints were pushed one after the other, and all of them before now. -/
def Dated (l : Ledger) : Prop := (l.moment :: l.pushed).Pairwise (· > ·)

theorem dated_note (dated : l.Dated) (request : Request) (answer : Except ArenaError Reply) :
    (l.note r request answer r').Dated := by
  obtain ⟨hmoment, hpushed⟩ := pushed_note l r request answer r'
  unfold Dated at dated ⊢
  rw [List.pairwise_cons] at dated ⊢
  obtain ⟨hearlier, hordered⟩ := dated
  rw [hmoment]
  rcases hpushed with h | h | h | h
  · rw [h]
    exact ⟨fun m hm => Nat.lt_succ_of_lt (hearlier m hm), hordered⟩
  · rw [h]
    refine ⟨?_, List.pairwise_cons.mpr ⟨hearlier, hordered⟩⟩
    intro m hm
    rcases List.mem_cons.mp hm with rfl | hm
    · exact Nat.lt_succ_self _
    · exact Nat.lt_succ_of_lt (hearlier m hm)
  · rw [h]
    refine ⟨?_, hordered.sublist (List.tail_sublist _)⟩
    intro m hm
    exact Nat.lt_succ_of_lt (hearlier m (List.mem_of_mem_tail hm))
  · rw [h]
    exact ⟨by simp, List.Pairwise.nil⟩

theorem dated_follow (dated : l.Dated) (r : Region) (es : List Episode) :
    (l.follow r es).Dated := by
  induction es generalizing l r with
  | nil => exact dated
  | cons e es ih => exact ih (dated_note dated e.request (r.answer e)) _

theorem dated_empty : Dated {} := List.pairwise_singleton _ _

theorem moment_follow (l : Ledger) (r : Region) (es : List Episode) :
    (l.follow r es).moment = l.moment + es.length := by
  induction es generalizing l r with
  | nil => rfl
  | cons e es ih =>
      show ((l.note r e.request (r.answer e) (r.after e)).follow (r.after e) es).moment = _
      rw [ih, (pushed_note l r e.request (r.answer e) (r.after e)).1, List.length_cons]
      omega

/-- A checkpoint is on the stack, and so many are below it. -/
def Placed (mark place : Nat) (pushed : List Nat) : Prop :=
  ∃ newer older, pushed = newer ++ mark :: older ∧ older.length = place

/-- Of checkpoints that are all different, the one at the place of the newest is the
newest. -/
theorem head?_eq_iff_of_placed {pushed : List Nat} (hdistinct : pushed.Pairwise (· > ·))
    (h : Placed mark place pushed) :
    pushed.head? = some mark ↔
      ∃ newest older, pushed = newest :: older ∧ older.length = place := by
  obtain ⟨newer, older, hpushed, hlength⟩ := h
  subst hpushed
  cases newer with
  | nil =>
      constructor
      · intro _
        exact ⟨mark, older, rfl, hlength⟩
      · intro _
        rfl
  | cons newest newer =>
      constructor
      · intro hhead
        obtain rfl := Option.some.inj hhead
        have habove := (List.pairwise_cons.mp hdistinct).1 newest (by simp)
        exact absurd habove (Nat.lt_irrefl newest)
      · rintro ⟨_, older', heq, hlength'⟩
        obtain ⟨-, rfl⟩ := List.cons.inj heq
        simp at hlength'
        omega

/-- A checkpoint keeps its place until it is off the stack, and then it stays off. -/
theorem placed_note (dated : l.Dated) (request : Request) (answer : Except ArenaError Reply)
    (hmark : mark < l.moment) (h : mark ∈ l.pushed → Placed mark place l.pushed) :
    mark ∈ (l.note r request answer r').pushed →
      Placed mark place (l.note r request answer r').pushed := by
  obtain ⟨-, hpushed⟩ := pushed_note l r request answer r'
  rcases hpushed with hpushed | hpushed | hpushed | hpushed
  · rw [hpushed]
    exact h
  · rw [hpushed]
    intro hmem
    rcases List.mem_cons.mp hmem with hnew | hmem
    · exact absurd hmark (Nat.not_lt.mpr (Nat.le_of_eq hnew.symm))
    · obtain ⟨newer, older, heq, hlength⟩ := h hmem
      exact ⟨l.moment :: newer, older, by rw [heq, List.cons_append], hlength⟩
  · rw [hpushed]
    intro hmem
    obtain ⟨newer, older, heq, hlength⟩ := h (List.mem_of_mem_tail hmem)
    cases newer with
    | nil =>
        -- It was the newest, so it is gone: the others are earlier.
        have hordered := (List.pairwise_cons.mp dated).2
        rw [heq] at hmem hordered
        have hearlier := (List.pairwise_cons.mp hordered).1 mark hmem
        exact absurd hearlier (Nat.lt_irrefl mark)
    | cons newest newer => exact ⟨newer, older, by rw [heq]; rfl, hlength⟩
  · rw [hpushed]
    intro hmem
    cases hmem

theorem placed_follow (dated : l.Dated) (r : Region) (es : List Episode)
    (hmark : mark < l.moment) (h : mark ∈ l.pushed → Placed mark place l.pushed) :
    mark ∈ (l.follow r es).pushed → Placed mark place (l.follow r es).pushed := by
  induction es generalizing l r with
  | nil => exact h
  | cons e es ih =>
      have hmoment := (pushed_note l r e.request (r.answer e) (r.after e)).1
      refine ih (dated_note dated e.request (r.answer e)) (r.after e) ?_ ?_
      · rw [hmoment]
        exact Nat.lt_succ_of_lt hmark
      · exact placed_note dated e.request (r.answer e) hmark h

/-- A checkpoint that is off the stack never comes back. -/
theorem not_mem_follow (r : Region) (es : List Episode) (hmark : mark < l.moment)
    (h : mark ∉ l.pushed) : mark ∉ (l.follow r es).pushed := by
  induction es generalizing l r with
  | nil => exact h
  | cons e es ih =>
      obtain ⟨hmoment, hpushed⟩ := pushed_note l r e.request (r.answer e) (r.after e)
      refine ih (r.after e) ?_ ?_
      · rw [hmoment]
        exact Nat.lt_succ_of_lt hmark
      · rcases hpushed with hpushed | hpushed | hpushed | hpushed
        · rw [hpushed]
          exact h
        · rw [hpushed]
          intro hmem
          rcases List.mem_cons.mp hmem with hnew | hmem
          · exact absurd hmark (Nat.not_lt.mpr (Nat.le_of_eq hnew.symm))
          · exact h hmem
        · rw [hpushed]
          exact fun hmem => h (List.mem_of_mem_tail hmem)
        · rw [hpushed]
          exact List.not_mem_nil

/-- There is a moment for each saved cursor. -/
theorem Fits.length_pushed (fits : Fits l r) : l.pushed.length = r.depth :=
  fits.stacked.length_eq.symm

end Ledger

namespace Region

variable {l : Ledger} {r : Region} {e : Episode} {handle : Handle}

/-- The request is not turned away because of the state of the region. -/
def Accepted (r : Region) (e : Episode) : Prop :=
  ∀ why, r.answer e ≠ .error (.invalidState why)

/-- No failure of giving pages back is one of state. -/
theorem Trims.ne_invalidState {clock base : Nat} {answer : Except ArenaError Unit} {r' : Region}
    {made : List Record} (h : Trims r clock base answer r' made) (why : Cause StateFault) :
    answer ≠ .error (.invalidState why) := by
  rintro rfl
  cases h with
  | lost fits due uncommits => cases uncommits

/-- **One rollback**: either the newest checkpoint is at the place of the handle, and it is
taken off, or the handle is turned away and nothing happens. -/
theorem rollback_way (ok : Sound r) (fits : l.Fits r) (asks : e.request = .rollback handle) :
    (r.Accepted e ∧ (∃ newest older, l.pushed = newest :: older ∧ older.length = handle.index) ∧
        ((l.note r e.request (r.answer e) (r.after e)).pushed = l.pushed.tail ∨
          (l.note r e.request (r.answer e) (r.after e)).pushed = [])) ∨
      ((∃ why, r.answer e = .error (.invalidState why)) ∧ l.pushed.length ≠ handle.index + 1 ∧
        r.after e = r ∧ r.calls e = []) := by
  have hway := meet_meets ok e
  rw [asks] at hway ⊢
  unfold Accepted
  generalize r.answer e = answer at hway ⊢
  generalize r.after e = r' at hway ⊢
  generalize r.calls e = made at hway ⊢
  rw [fits.length_pushed]
  cases hway with
  | @rollback _ trimmed _ _ h =>
      cases h with
      | unreserved h =>
          refine Or.inr ⟨⟨_, rfl⟩, ?_, rfl, rfl⟩
          rw [depth, ok.unheld h]
          exact Nat.zero_ne_add_one _
      | stale phase h => exact Or.inr ⟨⟨_, rfl⟩, h, rfl, rfl⟩
      | @popped base cursor older _ _ _ phase saved newest trims =>
          have hstacked := fits.stacked
          rw [saved] at hstacked
          obtain ⟨mark, marks, -, hrest, hpushed⟩ := List.forall₂_cons_left_iff.mp hstacked
          refine Or.inl ⟨?_, ⟨mark, marks, hpushed, ?_⟩, ?_⟩
          · intro why hwhy
            have htrimmed : trimmed = .error (.invalidState why) := by
              cases trimmed with
              | error err =>
                  obtain rfl := Except.error.inj hwhy
                  rfl
              | ok u => cases hwhy
            exact trims.ne_invalidState why htrimmed
          · rw [← hrest.length_eq, newest]
          · unfold Ledger.note
            by_cases hclosed : r'.isClosed = true
            · rw [if_pos hclosed]
              exact Or.inr rfl
            · have hopen : r'.phase ≠ .closed := by simpa [isClosed] using hclosed
              have hshorter : r'.depth < r.depth := by
                rw [depth, depth, (trims.of_not_closed hopen).2.1, saved]
                exact Nat.lt_succ_self _
              rw [if_neg hclosed]
              simp only [if_pos hshorter]
              refine Or.inl ?_
              unfold Ledger.pop
              rw [hpushed]
              rfl

/-- A handle is accepted exactly at the place of the newest checkpoint. -/
theorem accepted_iff (ok : Sound r) (fits : l.Fits r) (asks : e.request = .rollback handle) :
    r.Accepted e ↔ ∃ newest older, l.pushed = newest :: older ∧ older.length = handle.index := by
  rcases rollback_way ok fits asks with ⟨haccepted, hplace, -⟩ | ⟨⟨why, hwhy⟩, hlength, -, -⟩
  · exact ⟨fun _ => hplace, fun _ => haccepted⟩
  · constructor
    · intro haccepted
      exact absurd hwhy (haccepted why)
    · rintro ⟨newest, older, hpushed, holder⟩
      refine absurd ?_ hlength
      rw [hpushed, List.length_cons, holder]

/-- The checkpoint that a rollback takes off is on the stack no more. -/
theorem not_mem_of_accepted (ok : Sound r) (fits : l.Fits r) (dated : l.Dated)
    (asks : e.request = .rollback handle) (accepted : r.Accepted e) {newest : Nat}
    (head : l.pushed.head? = some newest) :
    newest ∉ (l.note r e.request (r.answer e) (r.after e)).pushed := by
  obtain ⟨older, hpushed⟩ := List.head?_eq_some_iff.mp head
  have hordered := (List.pairwise_cons.mp dated).2
  rw [hpushed] at hordered
  rcases rollback_way ok fits asks with ⟨-, -, htail | hnil⟩ | ⟨⟨why, hwhy⟩, -⟩
  · rw [htail, hpushed]
    intro hmem
    exact absurd ((List.pairwise_cons.mp hordered).1 newest hmem) (Nat.lt_irrefl newest)
  · rw [hnil]
    exact List.not_mem_nil
  · exact absurd hwhy (accepted why)

/-- A handle that is returned is the place of a new checkpoint. -/
theorem checkpoint_way (ok : Sound r) (fits : l.Fits r) (asks : e.request = .checkpoint)
    (hanswer : r.answer e = .ok (.handle handle)) :
    (l.note r e.request (r.answer e) (r.after e)).pushed = l.moment :: l.pushed ∧
      l.pushed.length = handle.index := by
  have hway := meet_meets ok e
  rw [asks] at hway ⊢
  rw [hanswer] at hway ⊢
  generalize hafter : r.after e = r' at hway ⊢
  generalize r.calls e = made at hway
  rw [fits.length_pushed]
  generalize hreply : (Except.ok (Reply.handle handle) : Except ArenaError Reply) = answer at hway
  cases hway with
  | checkpoint h =>
      cases h with
      | unobtained obtains => cases hreply
      | @pushed base r₁ _ obtains =>
          obtain rfl := Reply.handle.inj (Except.ok.inj hreply)
          have hopen : ¬ ({ r₁ with saved := r₁.cursor :: r₁.saved } : Region).isClosed = true := by
            simp [isClosed, obtains.phase_of_ok]
          constructor
          · unfold Ledger.note
            rw [if_neg hopen]
            rfl
          · cases obtains with
            | held phase => rfl
            | fresh phase pos h => rfl

/-! ### Several regions -/

/-- One of several regions and what is asked of it. -/
structure Visit where
  region : RegionId
  episode : Episode

/-- Several regions after one of them was asked for something. -/
def visit (rs : RegionId → Region) (v : Visit) : RegionId → Region := fun id =>
  if v.region = id then (rs id).after v.episode else rs id

/-- Several regions after a run of visits. -/
def tour (rs : RegionId → Region) (vs : List Visit) : RegionId → Region := vs.foldl visit rs

/-- What is asked of one region in a run of visits. -/
def visitsTo (id : RegionId) (vs : List Visit) : List Episode :=
  vs.filterMap fun v => if v.region = id then some v.episode else none

/-- The checkpoints on the stack of a region after a run of visits, the newest first.  Each
is told by its moment: how often the region had been visited when it was pushed. -/
def live (rs : RegionId → Region) (vs : List Visit) (id : RegionId) : List Nat :=
  (Ledger.follow {} (rs id) (visitsTo id vs)).pushed

/-- No region has to do with the visits to another. -/
theorem tour_apply (rs : RegionId → Region) (vs : List Visit) (id : RegionId) :
    tour rs vs id = (rs id).run (visitsTo id vs) := by
  induction vs generalizing rs with
  | nil => rfl
  | cons v vs ih =>
      show tour (visit rs v) vs id = _
      rw [ih]
      unfold visit visitsTo
      rw [List.filterMap_cons]
      by_cases h : v.region = id
      · rw [if_pos h, if_pos h]
        rfl
      · rw [if_neg h, if_neg h]

theorem visitsTo_append (id : RegionId) (vs later : List Visit) :
    visitsTo id (vs ++ later) = visitsTo id vs ++ visitsTo id later :=
  List.filterMap_append

theorem visitsTo_cons_self (v : Visit) (vs : List Visit) :
    visitsTo v.region (v :: vs) = v.episode :: visitsTo v.region vs := by
  unfold visitsTo
  rw [List.filterMap_cons, if_pos rfl]

/-- The ledger of a region goes on with the next visit to it. -/
theorem live_append_cons (rs : RegionId → Region) (vs : List Visit) (v : Visit)
    (later : List Visit) :
    let l := Ledger.follow {} (rs v.region) (visitsTo v.region vs)
    let r := tour rs vs v.region
    live rs (vs ++ v :: later) v.region =
      ((l.note r v.episode.request (r.answer v.episode) (r.after v.episode)).follow
        (r.after v.episode) (visitsTo v.region later)).pushed := by
  intro l r
  unfold live
  rw [visitsTo_append, visitsTo_cons_self, Ledger.follow_append, ← tour_apply]
  rfl

/-- A visit that changes nothing in its region changes nothing at all. -/
theorem tour_append_of_idle {rs : RegionId → Region} {vs : List Visit} {v : Visit}
    (idle : (tour rs vs v.region).after v.episode = tour rs vs v.region) :
    tour rs (vs ++ [v]) = tour rs vs := by
  funext id
  show (vs ++ [v]).foldl visit rs id = _
  rw [List.foldl_append]
  show visit (tour rs vs) v id = _
  unfold visit
  by_cases hid : v.region = id
  · subst hid
    rw [if_pos rfl]
    exact idle
  · rw [if_neg hid]

section Made

variable {rs : RegionId → Region}

theorem tour_sound (made : ∀ id, (rs id).Made) (vs : List Visit) (id : RegionId) :
    Sound (tour rs vs id) := by
  rw [tour_apply]
  exact (run_continues (made id).sound _).sound (made id).sound

/-- The ledger of each region fits it at every point of a run. -/
theorem tour_fits (made : ∀ id, (rs id).Made) (vs : List Visit) (id : RegionId) :
    (Ledger.follow {} (rs id) (visitsTo id vs)).Fits (tour rs vs id) := by
  obtain ⟨-, -, -, -, -, hsaved⟩ := (made id).cases
  rw [tour_apply]
  exact Ledger.fits_follow (.empty hsaved) (made id).sound _

/-- A checkpoint that is rolled back to never comes back. -/
theorem not_mem_live_of_accepted (made : ∀ id, (rs id).Made) {vs : List Visit} {v : Visit}
    {handle : Handle} (asks : v.episode.request = .rollback handle)
    (accepted : (tour rs vs v.region).Accepted v.episode) {newest : Nat}
    (head : (live rs vs v.region).head? = some newest) (later : List Visit) :
    newest ∉ live rs (vs ++ v :: later) v.region := by
  have dated := Ledger.dated_follow Ledger.dated_empty (rs v.region) (visitsTo v.region vs)
  have fits := tour_fits made vs v.region
  have ok := tour_sound made vs v.region
  obtain ⟨older, hpushed⟩ := List.head?_eq_some_iff.mp head
  have hnow := (List.pairwise_cons.mp dated).1 newest (by
    rw [show (Ledger.follow {} (rs v.region) (visitsTo v.region vs)).pushed = _ from hpushed]
    exact List.mem_cons_self)
  rw [live_append_cons]
  refine Ledger.not_mem_follow _ _ ?_ ?_
  · rw [(Ledger.pushed_note _ _ _ _ _).1]
    exact Nat.lt_succ_of_lt hnow
  · exact not_mem_of_accepted ok fits dated asks accepted head

/-- The checkpoint of a handle is the newest when the handle is returned. -/
theorem head?_live_of_checkpoint (made : ∀ id, (rs id).Made) {before : List Visit} {c : Visit}
    {handle : Handle} (checkpoints : c.episode.request = .checkpoint)
    (issued : (tour rs before c.region).answer c.episode = .ok (.handle handle)) :
    (live rs (before ++ [c]) c.region).head? = some (visitsTo c.region before).length := by
  obtain ⟨hpushed, -⟩ := checkpoint_way (tour_sound made before c.region)
    (tour_fits made before c.region) checkpoints issued
  rw [live_append_cons]
  show (Ledger.note _ _ _ _ _).pushed.head? = _
  rw [hpushed, Ledger.moment_follow]
  exact congrArg some (Nat.zero_add _)

/-- As long as the checkpoint of a handle is on the stack, the newest checkpoint is at the
place of the handle exactly if it is that one. -/
theorem place_iff_of_mem_live (made : ∀ id, (rs id).Made) {before between : List Visit}
    {c : Visit} {handle : Handle} (checkpoints : c.episode.request = .checkpoint)
    (issued : (tour rs before c.region).answer c.episode = .ok (.handle handle))
    (mem : (visitsTo c.region before).length ∈
      live rs (before ++ c :: between) c.region) :
    (∃ newest older, live rs (before ++ c :: between) c.region = newest :: older ∧
        older.length = handle.index) ↔
      (live rs (before ++ c :: between) c.region).head?
        = some (visitsTo c.region before).length := by
  obtain ⟨hpushed, hplace⟩ := checkpoint_way (tour_sound made before c.region)
    (tour_fits made before c.region) checkpoints issued
  have hown : (Ledger.follow {} (rs c.region) (visitsTo c.region before)).moment
      = (visitsTo c.region before).length := by
    rw [Ledger.moment_follow]
    exact Nat.zero_add _
  have dated := Ledger.dated_follow Ledger.dated_empty (rs c.region) (visitsTo c.region before)
  have ordered := Ledger.dated_follow Ledger.dated_empty (rs c.region)
    (visitsTo c.region (before ++ c :: between))
  refine (Ledger.head?_eq_iff_of_placed (List.pairwise_cons.mp ordered).2 ?_).symm
  show Ledger.Placed _ _ (live rs (before ++ c :: between) c.region)
  rw [live_append_cons] at mem ⊢
  refine Ledger.placed_follow (Ledger.dated_note dated _ _) _ _ ?_ ?_ mem
  · rw [(Ledger.pushed_note _ _ _ _ _).1, ← hown]
    exact Nat.lt_succ_self _
  · intro _
    rw [hpushed]
    exact ⟨[], _, by rw [← hown]; rfl, hplace⟩

end Made

/-- **A handle is accepted for its place.**  In every run over any number of regions a region
accepts a handle, wherever that was returned, exactly if its newest checkpoint is at the
place of the handle.  It takes that checkpoint off then, which never comes back.  Every other
handle is turned away because of the state, no region changes, and no call is made.

So a handle does what its own checkpoint allows as long as that is on the stack: it is
accepted if that is the newest, and turned away while it is buried. -/
theorem rollback_by_place {rs : RegionId → Region} (made : ∀ id, (rs id).Made)
    (vs : List Visit) (v : Visit) {handle : Handle}
    (asks : v.episode.request = .rollback handle) :
    let r := tour rs vs v.region
    (r.Accepted v.episode ↔
      ∃ newest older, live rs vs v.region = newest :: older ∧ older.length = handle.index) ∧
    (r.Accepted v.episode → ∀ newest ∈ (live rs vs v.region).head?, ∀ later,
      newest ∉ live rs (vs ++ v :: later) v.region) ∧
    (¬ r.Accepted v.episode → (∃ why, r.answer v.episode = .error (.invalidState why)) ∧
      tour rs (vs ++ [v]) = tour rs vs ∧ r.calls v.episode = []) ∧
    ∀ before c between, vs = before ++ c :: between → c.region = v.region →
      c.episode.request = .checkpoint →
      (tour rs before c.region).answer c.episode = .ok (.handle handle) →
      let own := (visitsTo c.region before).length
      (live rs (before ++ [c]) c.region).head? = some own ∧
        (own ∈ live rs vs v.region →
          (r.Accepted v.episode ↔ (live rs vs v.region).head? = some own)) := by
  intro r
  have ok := tour_sound made vs v.region
  have fits := tour_fits made vs v.region
  have haccepted := accepted_iff ok fits asks
  refine ⟨haccepted, ?_, ?_, ?_⟩
  · intro accepted newest hnewest later
    exact not_mem_live_of_accepted made asks accepted hnewest later
  · intro refused
    rcases rollback_way ok fits asks with ⟨accepted, -⟩ | ⟨hwhy, -, hafter, hcalls⟩
    · exact absurd accepted refused
    · exact ⟨hwhy, tour_append_of_idle hafter, hcalls⟩
  · intro before c between hvs hregion checkpoints issued own
    refine ⟨head?_live_of_checkpoint made checkpoints issued, fun hmem => ?_⟩
    refine haccepted.trans ?_
    subst hvs
    rw [← hregion] at hmem ⊢
    exact place_iff_of_mem_live made checkpoints issued hmem

/-- Of two regions the first has two checkpoints.  The handle of the one below is turned away
and nothing changes, and the handle of the one above is accepted. -/
theorem rollback_by_place_of_buried :
    let rs : RegionId → Region := fun _ => twoPages
    let vs : List Visit :=
      [⟨0, {}, .checkpoint⟩, ⟨1, {}, .checkpoint⟩, ⟨0, {}, .slice 100 1⟩, ⟨0, {}, .checkpoint⟩]
    let below : Visit := ⟨0, {}, .rollback ⟨0⟩⟩
    let above : Visit := ⟨0, {}, .rollback ⟨1⟩⟩
    (∀ id, (rs id).Made) ∧ live rs vs 0 = [2, 0] ∧
      ¬ (tour rs vs 0).Accepted below.episode ∧ tour rs (vs ++ [below]) = tour rs vs ∧
      (tour rs vs 0).Accepted above.episode ∧ 2 ∉ live rs (vs ++ [above]) 0 := by
  intro rs vs below above
  have made : ∀ id, (rs id).Made := fun _ => twoPages_made
  have asksBelow : below.episode.request = .rollback ⟨0⟩ := rfl
  have asksAbove : above.episode.request = .rollback ⟨1⟩ := rfl
  obtain ⟨hbelow, -, hrefused, -⟩ := rollback_by_place made vs below asksBelow
  obtain ⟨habove, hgone, -, -⟩ := rollback_by_place made vs above asksAbove
  have hlive : live rs vs 0 = [2, 0] := by decide
  have hnot : ¬ (tour rs vs 0).Accepted below.episode := by
    intro haccepted
    obtain ⟨newest, older, hpushed, hlength⟩ := hbelow.mp haccepted
    obtain ⟨-, rfl⟩ := List.cons.inj (hlive.symm.trans hpushed)
    cases hlength
  have haccepted : (tour rs vs 0).Accepted above.episode :=
    habove.mpr ⟨2, [0], hlive, rfl⟩
  refine ⟨made, hlive, hnot, (hrefused hnot).2.1, haccepted, ?_⟩
  refine hgone haccepted 2 ?_ []
  rw [show live rs vs above.region = [2, 0] from hlive]
  rfl

/-- A handle is accepted twice where it was returned once: after its own checkpoint was taken
off, another one came to the same place.  It is accepted by a region that never returned it as
well. -/
theorem handle_accepted_twice :
    let rs : RegionId → Region := fun _ => twoPages
    let issue : Visit := ⟨0, {}, .checkpoint⟩
    let use : Visit := ⟨0, {}, .rollback ⟨0⟩⟩
    let abroad : Visit := ⟨1, {}, .rollback ⟨0⟩⟩
    (rs 0).answer issue.episode = .ok (.handle ⟨0⟩) ∧
      live rs [issue] 0 = [0] ∧
      (tour rs [issue] 0).answer use.episode = .ok .done ∧
      live rs [issue, use] 0 = [] ∧
      live rs [issue, use, issue] 0 = [2] ∧
      (tour rs [issue, use, issue] 0).answer use.episode = .ok .done ∧
      (tour rs [issue, ⟨1, {}, .checkpoint⟩] 1).answer abroad.episode = .ok .done := by
  decide

end Region

end PageArena
