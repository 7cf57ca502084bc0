/-
Two regions that cannot be told apart.

Which pages of a region are accessible is its own affair.  Two regions of one size on pages of
one size may be tuned differently, lie at different addresses, be asked at different times, and
make pages accessible and give them back quite differently.  Who asks the same of both is
answered the same, if spans are counted from the base.

Either region answers as its outline does, so it only has to be seen that the base plays no
part in that (`Outline.meet_based`).  A slice is aligned as an address, not as an offset.  But
a base is a whole number of pages, and so a multiple of any alignment up to a page; and since
the end of the reservation is an address, rounding up within it never overflows.
-/
import Mathlib
import PageArena.Proofs.Region.Access
import PageArena.Proofs.Region.Outline

namespace PageArena

open OsCall (Record)

namespace Word

/-- Rounding up goes along with a shift by a multiple. -/
theorem ceil_add {align base : Nat} (value : Nat) (hpos : 0 < align) (hd : align ∣ base) :
    ceil (base + value) align = base + ceil value align := by
  obtain ⟨q, rfl⟩ := hd
  unfold ceil
  rw [Nat.add_assoc, Nat.mul_add_div hpos, Nat.add_mul, Nat.mul_comm q align]

theorem roundUp?_add {align base value : Nat} (hp : isPowerOfTwo align = true)
    (hd : align ∣ base) (room : base + value + align ≤ limit) :
    roundUp? (base + value) align = some (base + ceil value align) := by
  have hpos := pos_of_isPowerOfTwo hp
  obtain ⟨k, rfl⟩ := isPowerOfTwo_iff.mp hp
  rw [roundUp?_two_pow, if_pos (by omega), ceil_add value hpos hd]

/-- A power of two divides every larger one. -/
theorem dvd_of_isPowerOfTwo {small large : Nat} (hs : isPowerOfTwo small = true)
    (hl : isPowerOfTwo large = true) (h : small ≤ large) : small ∣ large := by
  obtain ⟨i, rfl⟩ := isPowerOfTwo_iff.mp hs
  obtain ⟨j, rfl⟩ := isPowerOfTwo_iff.mp hl
  exact Nat.pow_dvd_pow 2 ((Nat.pow_le_pow_iff_right (by decide)).mp h)

end Word

namespace Region

/-- The span with this base, of which it gives the offset. -/
def moved (base : Nat) (span : Span) : Span := ⟨base + span.start, span.length⟩

/-- The reply with this base, if it is a span that is counted from there. -/
def Reply.based (base : Nat) : Reply → Reply
  | .span s => .span (moved base s)
  | .handle h => .handle h
  | .done => .done

/-- An alignment is at most so large, unless it is none. -/
def Request.Fitting (unit : Nat) : Request → Prop
  | .slice _ align => Word.isPowerOfTwo align = true → align ≤ unit
  | .checkpoint | .rollback _ | .close => True

/-! ### The base plays no part -/

namespace Outline

variable {o : Outline} {base : Nat}

theorem cut_based {size align : Nat} (hp : Word.isPowerOfTwo align = true) (hd : align ∣ base)
    (room : base + o.cursor + align ≤ Word.limit) :
    o.cut base size align
      = ((o.cut 0 size align).1.map (moved base), (o.cut 0 size align).2) := by
  have hzero : Word.roundUp? (0 + o.cursor) align = some (0 + Word.ceil o.cursor align) :=
    Word.roundUp?_add hp (Nat.dvd_zero align) (by omega)
  unfold cut
  rw [Word.roundUp?_add hp hd room, hzero]
  simp only [Nat.zero_add, Nat.sub_zero, Nat.add_sub_cancel_left]
  split
  · rfl
  · split
    · rfl
    · split
      · rfl
      · rfl

/-- A region in use has its base at a page, and at its end there is room for another. -/
def Roomy (o : Outline) (base unit : Nat) : Prop :=
  unit ∣ base ∧ base + o.total + unit ≤ Word.limit

theorem slice_based {unit size align : Nat} (hunit : Word.isPowerOfTwo unit = true)
    (fitting : (Request.slice size align).Fitting unit) (inside : o.cursor ≤ o.total)
    (roomy : (Request.slice size align).Enters → o.stage ≠ .closed → o.Roomy base unit) :
    o.slice base size align
      = ((o.slice 0 size align).1.map (moved base), (o.slice 0 size align).2) := by
  unfold slice
  by_cases hp : Word.isPowerOfTwo align = true
  · rw [if_pos hp, if_pos hp]
    by_cases hclosed : o.stage = .closed
    · simp only [enter, if_pos hclosed]
      rfl
    · obtain ⟨hd, hroom⟩ := roomy hp hclosed
      have hle := fitting hp
      have hcursor : base + ({ o with stage := .reserved } : Outline).cursor + align
          ≤ Word.limit := by
        show base + o.cursor + align ≤ Word.limit
        omega
      simp only [enter, if_neg hclosed]
      exact cut_based hp (Nat.dvd_trans (Word.dvd_of_isPowerOfTwo hp hunit hle) hd) hcursor
  · rw [if_neg hp, if_neg hp]
    rfl

/-- The base turns an answer as it turns what was found. -/
theorem map_based {α : Type} {f g : α → Reply} (h : ∀ a, (f a).based base = g a)
    (answer : Except ArenaError α) :
    (answer.map f).map (Reply.based base) = answer.map g := by
  cases answer with
  | ok a => exact congrArg _ (h a)
  | error e => rfl

/-- **The outline answers the same at every base**, but for where the spans are. -/
theorem meet_based {unit : Nat} {request : Request} (hunit : Word.isPowerOfTwo unit = true)
    (fitting : request.Fitting unit) (inside : o.cursor ≤ o.total)
    (roomy : request.Enters → o.stage ≠ .closed → o.Roomy base unit) :
    o.meet base request
      = ((o.meet 0 request).1.map (Reply.based base), (o.meet 0 request).2) := by
  refine Prod.ext ?_ ?_
  · cases request with
    | checkpoint =>
        exact Eq.symm (map_based (f := .handle) (g := .handle) (fun _ => rfl) o.checkpoint.1)
    | rollback handle =>
        exact Eq.symm (map_based (f := fun _ => .done) (g := fun _ => .done) (fun _ => rfl)
          (o.rollback handle).1)
    | close =>
        exact Eq.symm (map_based (f := fun _ => .done) (g := fun _ => .done) (fun _ => rfl)
          o.close.1)
    | slice size align =>
        show (o.slice base size align).1.map .span
          = ((o.slice 0 size align).1.map .span).map (Reply.based base)
        rw [slice_based hunit fitting inside roomy]
        cases (o.slice 0 size align).1 with
        | ok span => rfl
        | error e => rfl
  · cases request with
    | checkpoint => rfl
    | rollback handle => rfl
    | close => rfl
    | slice size align =>
        show (o.slice base size align).2 = (o.slice 0 size align).2
        rw [slice_based hunit fitting inside roomy]

theorem stage_cut (o : Outline) (base size align : Nat) :
    (o.cut base size align).2.stage = o.stage := by
  unfold cut
  split
  · rfl
  · split
    · rfl
    · split
      · rfl
      · split
        · rfl
        · rfl

/-- What enters a region that is not closed leaves it in use. -/
theorem stage_meet {request : Request} (enters : request.Enters) (hopen : o.stage ≠ .closed) :
    (o.meet base request).2.stage = .reserved := by
  cases request with
  | rollback handle => exact enters.elim
  | close => exact enters.elim
  | checkpoint =>
      show o.checkpoint.2.stage = .reserved
      simp only [checkpoint, enter, if_neg hopen]
  | slice size align =>
      have aligned : Word.isPowerOfTwo align = true := enters
      show (o.slice base size align).2.stage = .reserved
      simp only [slice, if_pos aligned, enter, if_neg hopen, stage_cut]

/-- The outline after a sequence of requests, told with its spans as offsets. -/
def run (o : Outline) (requests : List Request) : Outline :=
  requests.foldl (fun o request => (o.meet 0 request).2) o

end Outline

/-! ### One region -/

variable {r r' : Region} {clock base unit : Nat} {made : List Record} {e : Episode}

/-- The base that a region has after an episode is the one that it had, or that it was given. -/
theorem Meets.holds {request : Request} {answer : Except ArenaError Reply}
    (h : Meets r clock request answer r' made) (hp : r'.phase = .reserved base) :
    Holds r made base := by
  have hopen : r'.phase ≠ .closed := by
    rw [hp]
    exact nofun
  cases h with
  | slice h =>
      cases h with
      | misaligned h => exact Or.inl hp
      | unobtained aligned obtains =>
          obtain rfl := obtains.eq_of_error
          exact Or.inl hp
      | @obtained held _ _ _ _ _ aligned obtains cuts =>
          have hphase := (cuts.of_not_closed hopen).1.trans obtains.phase_of_ok
          obtain rfl := Phase.reserved.inj (hphase.symm.trans hp)
          exact obtains.holds
  | checkpoint h =>
      cases h with
      | unobtained obtains =>
          obtain rfl := obtains.eq_of_error
          exact Or.inl hp
      | pushed obtains =>
          obtain rfl := Phase.reserved.inj (obtains.phase_of_ok.symm.trans hp)
          exact List.append_nil made ▸ obtains.holds
  | rollback h =>
      cases h with
      | unreserved h => exact Or.inl hp
      | stale phase h => exact Or.inl hp
      | popped phase saved newest trims =>
          exact Or.inl ((trims.of_not_closed hopen).1.symm.trans hp)
  | close h => exact absurd h.closed hopen

/-- A region in good order on pages of `unit`: its base, if there is one, is at a page, and its
threshold can be measured. -/
structure Ready (unit : Nat) (r : Region) : Prop where
  sound : Sound r
  paged : Paged r
  page : r.backend.pageSize = unit
  base : ∀ base, r.phase = .reserved base → unit ∣ base
  measured : r.thresholdBytes < Word.limit

theorem Made.ready (made : r.Made) (geometry : r.backend.toGeometry.Sound)
    (measured : r.thresholdBytes < Word.limit) : Ready r.backend.pageSize r where
  sound := made.sound
  paged := made.paged geometry
  page := rfl
  base base hbase := by
    obtain ⟨-, -, phase, -⟩ := made.cases
    cases hbase.symm.trans phase
  measured := measured

/-- An episode that is granted, and if the region is mapped in it, then at a page. -/
structure GrantedAtPage (r : Region) (e : Episode) : Prop extends Granted r e where
  page : ∀ base : Nat, .mmap r.total base ∈ r.calls e → r.backend.pageSize ∣ base

/-- Every episode of a run is granted. -/
def AllGranted (r : Region) : List Episode → Prop
  | [] => True
  | e :: es => r.GrantedAtPage e ∧ (r.after e).AllGranted es

theorem allGranted_append {es : List Episode} :
    r.AllGranted (es ++ [e]) ↔ r.AllGranted es ∧ (r.run es).GrantedAtPage e := by
  induction es generalizing r with
  | nil => exact and_comm
  | cons e es ih => exact (and_congr_right fun _ => ih).trans and_assoc.symm

theorem Ready.after (ready : Ready unit r) (granted : r.GrantedAtPage e) :
    Ready unit (r.after e) := by
  have hmeets := meet_meets ready.sound e
  have life := hmeets.continues ready.sound
  refine
    { sound := life.sound ready.sound
      paged := life.paged ready.sound ready.paged
      page := life.backend ▸ ready.page
      base := fun base hbase => ?_
      measured := ?_ }
  · rcases hmeets.holds hbase with held | ⟨-, mapped⟩
    · exact ready.base base held
    · exact ready.page ▸ granted.page base mapped
  · have measured := ready.measured
    unfold thresholdBytes at measured ⊢
    rw [life.tuning, life.backend]
    exact measured

/-- There is room for a page after the end of a region in good order. -/
theorem Ready.roomy (ready : Ready unit r) (hp : r.phase = .reserved base) :
    r.outline.Roomy base unit := by
  have hd := ready.base base hp
  have htotal : unit ∣ r.total := ready.page ▸ ready.paged.page_dvd_total
  have hpage : Word.isPowerOfTwo unit = true := ready.page ▸ ready.paged.geometry.page
  refine ⟨hd, Word.add_le_limit hpage (Nat.dvd_add hd htotal) ?_ (ready.sound.addressable base hp)⟩
  exact Nat.add_pos_right base ready.sound.total_pos

/-- **One step.**  A region answers as its outline does at zero, with its base. -/
theorem Ready.meet_outline (ready : Ready unit r) (granted : r.GrantedAtPage e)
    (fitting : e.request.Fitting unit) :
    ∃ base, Based r (r.after e) base ∧
      r.answer e = (r.outline.meet 0 e.request).1.map (Reply.based base) ∧
      (r.after e).outline = (r.outline.meet 0 e.request).2 := by
  obtain ⟨base, based, houtline, hanswer⟩ :=
    Region.meet_outline ready.sound ready.paged granted.toGranted
  have next := ready.after granted
  have hpage : Word.isPowerOfTwo unit = true := ready.page ▸ ready.paged.geometry.page
  have inside : r.outline.cursor ≤ r.outline.total :=
    Nat.le_trans ready.sound.cursor_le ready.sound.committed_le
  have roomy : e.request.Enters → r.outline.stage ≠ .closed → r.outline.Roomy base unit := by
    intro enters hopen
    -- A region that was entered has a base afterwards, and that is the base of the answer.
    have hstage : (r.after e).phase.stage = .reserved := by
      show (r.after e).outline.stage = .reserved
      rw [houtline]
      exact Outline.stage_meet enters hopen
    cases hp : (r.after e).phase with
    | unreserved =>
        rw [hp] at hstage
        cases hstage
    | closed =>
        rw [hp] at hstage
        cases hstage
    | reserved held =>
        obtain rfl := based.2 held hp
        have life := (meet_meets ready.sound e).continues ready.sound
        have hroom := next.roomy hp
        unfold Outline.Roomy outline at hroom ⊢
        rw [life.total] at hroom
        exact hroom
  have hmeet := Outline.meet_based hpage fitting inside roomy
  refine ⟨base, based, ?_, ?_⟩
  · rw [hanswer ready.measured, hmeet]
  · rw [houtline, hmeet]

/-- **A whole run**: the outline goes through the requests on its own. -/
theorem Ready.run_outline (ready : Ready unit r) {es : List Episode} (granted : r.AllGranted es)
    (fitting : ∀ request ∈ es.map Episode.request, request.Fitting unit) :
    Ready unit (r.run es) ∧ (r.run es).outline = r.outline.run (es.map Episode.request) := by
  induction es generalizing r with
  | nil => exact ⟨ready, rfl⟩
  | cons e es ih =>
      obtain ⟨hfirst, hrest⟩ := List.forall_mem_cons.mp fitting
      obtain ⟨base, -, -, houtline⟩ := ready.meet_outline granted.1 hfirst
      obtain ⟨hready, hrun⟩ := ih (ready.after granted.1) granted.2 hrest
      refine ⟨hready, hrun.trans ?_⟩
      rw [houtline]
      rfl

/-- The base of a span that is told is the one that the region has. -/
theorem reserved_of_span {span : Span} (ok : Sound r) (h : r.answer e = .ok (.span span)) :
    ∃ base, (r.after e).phase = .reserved base := by
  have hmeets := meet_meets ok e
  rw [h] at hmeets
  generalize hgiven : (Except.ok (.span span) : Except ArenaError Reply) = answer at hmeets
  generalize e.request = request at hmeets
  cases hmeets with
  | slice h =>
      obtain ⟨told, rfl, -⟩ := ok_of_map hgiven.symm
      obtain ⟨base, hbase, -⟩ := h.of_ok ok
      exact ⟨base, hbase⟩
  | checkpoint h =>
      obtain ⟨told, -, hspan⟩ := ok_of_map hgiven.symm
      cases hspan
  | rollback h =>
      obtain ⟨told, -, hspan⟩ := ok_of_map hgiven.symm
      cases hspan
  | close h =>
      obtain ⟨told, -, hspan⟩ := ok_of_map hgiven.symm
      cases hspan

theorem isClosed_eq_stage (r : Region) : r.isClosed = (r.outline.stage == .closed) := by
  unfold isClosed outline
  cases r.phase with
  | unreserved => rfl
  | reserved base => rfl
  | closed => rfl

/-- At the end of a run the last answer and the outline are those that the outline alone comes
to, which knows the requests and nothing else. -/
theorem Ready.run_answer (ready : Ready unit r) {es : List Episode}
    (granted : r.AllGranted (es ++ [e]))
    (fitting : ∀ request ∈ (es ++ [e]).map Episode.request, request.Fitting unit) :
    let o := r.outline.run (es.map Episode.request)
    ∃ base, (r.run es).answer e = (o.meet 0 e.request).1.map (Reply.based base) ∧
      ((r.run es).after e).outline = (o.meet 0 e.request).2 ∧
      ∀ span, (o.meet 0 e.request).1 = .ok (.span span) →
        ((r.run es).after e).phase = .reserved base := by
  intro o
  rw [List.map_append, List.forall_mem_append] at fitting
  obtain ⟨first, last⟩ := allGranted_append.mp granted
  obtain ⟨hready, hrun⟩ := ready.run_outline first fitting.1
  obtain ⟨base, based, hanswer, houtline⟩ := hready.meet_outline last
    (fitting.2 e.request (List.mem_singleton_self _))
  rw [hrun] at hanswer houtline
  refine ⟨base, hanswer, houtline, fun span hspan => ?_⟩
  have htold : (r.run es).answer e = .ok (.span (moved base span)) := by
    rw [hanswer, hspan]
    rfl
  obtain ⟨held, hheld⟩ := reserved_of_span hready.sound htold
  rw [hheld, based.2 held hheld]

/-- **Two regions of one size on pages of one size cannot be told apart.**  Whatever their
tunings and their bases and however time passes for either, the same requests are answered the
same: with the same errors and handles, and with spans of the same lengths at the same offsets
from the base that the region has then.  Their cursors and depths, and whether they are closed,
agree all along.

That no call fails is said of the answers, since a call that fails is what is answered. -/
theorem answers_of_same_requests {r₀ r₀' : Region} (made : r₀.Made) (made' : r₀'.Made)
    (geometry : r₀.backend.toGeometry.Sound) (geometry' : r₀'.backend.toGeometry.Sound)
    (total : r₀'.total = r₀.total) (page : r₀'.backend.pageSize = r₀.backend.pageSize)
    (measured : r₀.thresholdBytes < Word.limit) (measured' : r₀'.thresholdBytes < Word.limit)
    {es es' : List Episode} {e e' : Episode}
    (same : (es' ++ [e']).map Episode.request = (es ++ [e]).map Episode.request)
    (fitting : ∀ request ∈ (es ++ [e]).map Episode.request,
      request.Fitting r₀.backend.pageSize)
    (granted : r₀.AllGranted (es ++ [e])) (granted' : r₀'.AllGranted (es' ++ [e'])) :
    let r := (r₀.run es).after e
    let r' := (r₀'.run es').after e'
    (∃ (told : Except ArenaError Reply) (base base' : Nat),
      (r₀.run es).answer e = told.map (Reply.based base) ∧
      (r₀'.run es').answer e' = told.map (Reply.based base') ∧
      ∀ span, told = .ok (.span span) →
        r.phase = .reserved base ∧ r'.phase = .reserved base') ∧
    r'.cursor = r.cursor ∧ r'.depth = r.depth ∧ r'.isClosed = r.isClosed := by
  intro r r'
  have houtline : r₀'.outline = r₀.outline := by
    obtain ⟨-, -, phase, cursor, -, saved⟩ := made.cases
    obtain ⟨-, -, phase', cursor', -, saved'⟩ := made'.cases
    unfold outline
    rw [total, phase, phase', cursor, cursor', saved, saved']
  obtain ⟨base, hanswer, hafter, hspan⟩ :=
    (made.ready geometry measured).run_answer granted fitting
  -- Both runs come to what their outline comes to, and they have begun with the same.
  rw [← same, ← page] at fitting
  obtain ⟨base', hanswer', hafter', hspan'⟩ :=
    (made'.ready geometry' measured').run_answer granted' fitting
  rw [List.map_append, List.map_append] at same
  obtain ⟨hpast, hlast⟩ := List.append_inj' same rfl
  rw [houtline, hpast, List.singleton_inj.mp hlast] at hanswer' hafter' hspan'
  have hsame : r'.outline = r.outline := hafter'.trans hafter.symm
  refine ⟨⟨_, base, base', hanswer, hanswer', ?_⟩, ?_, ?_, ?_⟩
  · intro span htold
    exact ⟨hspan span htold, hspan' span htold⟩
  · exact congrArg Outline.cursor hsame
  · exact congrArg (fun o => o.saved.length) hsame
  · rw [isClosed_eq_stage, isClosed_eq_stage, hsame]

/-- Three pages that are tuned as regions are. -/
def threePages : Region := { eager with tuning := {} }

theorem succeeds_of_isOk {α : Type} {answer : Except ArenaError α} (h : answer.isOk = true) :
    Succeeds answer := by
  rintro call errno rfl
  cases h

/-- An episode that maps nothing is granted if it is answered well. -/
theorem GrantedAtPage.of_unmapped (h : (r.answer e).isOk = true)
    (unmapped : ∀ call ∈ r.calls e, call.call ≠ .mmap) : r.GrantedAtPage e where
  succeeds := succeeds_of_isOk h
  placed _ hcall := absurd rfl (unmapped _ hcall)
  page _ hcall := absurd rfl (unmapped _ hcall)

theorem GrantedAtPage.of_mapped (base : Nat) (h : (r.answer e).isOk = true)
    (mapped : r.calls e = [.mmap r.total base]) (place : r.CanBeginAt base)
    (page : r.backend.pageSize ∣ base) : r.GrantedAtPage e where
  succeeds := succeeds_of_isOk h
  placed held hcall := by
    rw [mapped, List.mem_singleton] at hcall
    obtain rfl := Int.ofNat.inj (Record.mmap.inj hcall).2
    exact place
  page held hcall := by
    rw [mapped, List.mem_singleton] at hcall
    obtain rfl := Int.ofNat.inj (Record.mmap.inj hcall).2
    exact page

/-- A span that is told with its base was told without. -/
theorem exists_span_of_based {told : Except ArenaError Reply} {span : Span}
    (h : told.map (Reply.based base) = .ok (.span span)) :
    ∃ offset, told = .ok (.span offset) ∧ moved base offset = span := by
  obtain ⟨reply, rfl, hbased⟩ := ok_of_map h
  cases reply with
  | handle s => cases hbased
  | done => cases hbased
  | span s => exact ⟨s, rfl, Reply.span.inj hbased⟩

/-- When the last slice is asked for, the one region has given a page back that it then commits
again, and it lies elsewhere; the other has kept all three.  Both answer the third page. -/
theorem answers_of_same_requests_in_threePages :
    let late : Machine := { kernel := { clock := 9000000000, bases := [0x7f0000001000] } }
    let es : List Episode := [⟨late, .checkpoint⟩, ⟨late, .slice 12000 1⟩,
      ⟨late, .rollback ⟨0⟩⟩, ⟨late, .slice 5000 64⟩]
    let es' : List Episode := [⟨{}, .checkpoint⟩, ⟨{}, .slice 12000 1⟩,
      ⟨{}, .rollback ⟨0⟩⟩, ⟨{}, .slice 5000 64⟩]
    let e : Episode := ⟨late, .slice 100 4096⟩
    let e' : Episode := ⟨{}, .slice 100 4096⟩
    (eager.run es).committed = 8192 ∧ (threePages.run es').committed = 12288 ∧
    (eager.run es).answer e = .ok (.span ⟨0x7f0000001000 + 8192, 100⟩) ∧
    (threePages.run es').answer e' = .ok (.span ⟨0x100000000000 + 8192, 100⟩) := by
  intro late es es' e e'
  have made : eager.Made :=
    ⟨12000, eager.tuning, eager.backend, ⟨{}, ()⟩, ⟨{}, ()⟩, rfl⟩
  have made' : threePages.Made :=
    ⟨12000, threePages.tuning, threePages.backend, ⟨{}, ()⟩, ⟨{}, ()⟩, rfl⟩
  have geometry : eager.backend.toGeometry.Sound :=
    Geometry.sound_of_ofPageSize (show Geometry.ofPageSize 4096 = _ from rfl)
  have fitting : ∀ request ∈ (es ++ [e]).map Episode.request,
      request.Fitting eager.backend.pageSize := by
    show ∀ request ∈ [.checkpoint, .slice 12000 1, .rollback ⟨0⟩, .slice 5000 64, .slice 100 4096],
      Request.Fitting 4096 request
    simp [Request.Fitting]
  have granted : eager.AllGranted (es ++ [e]) :=
    ⟨.of_mapped 0x7f0000001000 (by decide) (by decide) ⟨by decide, by decide⟩ (by decide),
      .of_unmapped (by decide) (by decide), .of_unmapped (by decide) (by decide),
      .of_unmapped (by decide) (by decide), .of_unmapped (by decide) (by decide), trivial⟩
  have granted' : threePages.AllGranted (es' ++ [e']) :=
    ⟨.of_mapped 0x100000000000 (by decide) (by decide) ⟨by decide, by decide⟩ (by decide),
      .of_unmapped (by decide) (by decide), .of_unmapped (by decide) (by decide),
      .of_unmapped (by decide) (by decide), .of_unmapped (by decide) (by decide), trivial⟩
  have same : (es' ++ [e']).map Episode.request = (es ++ [e]).map Episode.request := rfl
  have first : (eager.run es).answer e = .ok (.span ⟨0x7f0000001000 + 8192, 100⟩) := by decide
  have here : ((eager.run es).after e).phase = .reserved 0x7f0000001000 := by decide
  have there : ((threePages.run es').after e').phase = .reserved 0x100000000000 := by decide
  obtain ⟨⟨told, base, base', hanswer, hanswer', hspan⟩, -⟩ :=
    answers_of_same_requests made made' geometry geometry rfl rfl (by decide) (by decide)
      same fitting granted granted'
  obtain ⟨⟨start, length⟩, rfl, hmoved⟩ := exists_span_of_based (hanswer.symm.trans first)
  obtain ⟨hbase, hbase'⟩ := hspan _ rfl
  obtain rfl := Phase.reserved.inj (hbase.symm.trans here)
  obtain rfl := Phase.reserved.inj (hbase'.symm.trans there)
  obtain ⟨hstart, rfl⟩ := Span.mk.inj hmoved
  obtain rfl := Nat.add_left_cancel hstart
  exact ⟨by decide, by decide, first, hanswer'⟩

end Region

end PageArena
