/-
A slice is what arithmetic says it is.

A slice is worked out with words: the address is rounded up with a mask, the base is taken
off, the size is added, and the end is rounded up once more to find the pages.  Each of these
could leave the words where the number that is meant would not, and so refuse a request for
which there is room.  None does.  The address that is rounded is never zero, so the least
multiple is found whenever it is a word (`Word.roundUp?_of_pos`).  An end that lies in the
reservation lies at least a page below the end of the words, so rounding it up always
succeeds, and it stays in the reservation, which is a whole number of pages.

So `slice_exact` can speak of least multiples and of sums over the natural numbers, without
a word in it but for the two bounds that the request has to keep.
-/
import Mathlib
import PageArena.Proofs.Region.TurnedDown

namespace PageArena

open OsCall (Record)

namespace Region

variable {r r' r₀ : Region} {w w' : World Region} {base size align address stop : Nat}
  {made : List Record} {machine : Machine}

/-- How an episode goes: the answer, the region that is left, and the calls that are made. -/
def Goes (r : Region) (e : Episode) (answer : Except ArenaError Reply) (r' : Region)
    (made : List Record) : Prop :=
  r.answer e = answer ∧ r.after e = r' ∧ r.calls e = made

/-! ### The answers -/

/-- Pages are made accessible exactly if the call succeeds. -/
theorem commit_ok_iff {σ : Type} {w : World σ} {length : Nat} :
    ((VirtualMemory.commit address length).run w).1 = .ok () ↔
      (w.kernel.mprotect address length .readWrite).1 = true := by
  simp only [VirtualMemory.commit, Act.run_bind, Act.run_kernel]
  cases (w.kernel.mprotect address length .readWrite).1 with
  | true => simp
  | false => simp

/-- Whether the region is given up over a change is decided by the change. -/
theorem orAbandon_ok_iff (change : Act ArenaError Region Unit) :
    ((orAbandon change).run w).1 = .ok () ↔ (change.run w).1 = .ok () := by
  simp only [orAbandon, Act.run_bind, Act.run_attempt]
  rcases change.run w with ⟨e | u, w₁⟩
  · rcases ha : abandon.run w₁ with ⟨e' | u, w₂⟩
    · simp [Act.run_bind, ha]
    · simp [Act.run_bind, ha]
  · simp

/-- The boundary is moved exactly if the call succeeds. -/
theorem commitTo_ok_iff (base : Nat) {whole : Nat} (hstop : w.self.committed ≤ stop)
    (htotal : stop ≤ w.self.total)
    (hround : Word.roundUp? stop w.self.backend.pageSize = some whole) :
    ((commitTo base stop).run w).1 = .ok () ↔
      (w.kernel.mprotect (base + w.self.committed) (min whole w.self.total - w.self.committed)
        .readWrite).1 = true := by
  have hle := Word.le_of_roundUp? hround
  have hlow : w.self.committed ≤ min whole w.self.total := by omega
  let change : Act ArenaError Region Unit := VirtualMemory.commit (base + w.self.committed)
    (min whole w.self.total - w.self.committed)
  rw [← commit_ok_iff (w := w), ← orAbandon_ok_iff change]
  simp only [commitTo, Act.run_self_bind, Checked.roundUp_of_some hround, Act.settle_ok,
    Act.run_pure_bind, Checked.sub_of_le hlow]
  rcases hrun : (orAbandon change).run w with ⟨e | u, w₁⟩
  · rw [Act.run_bind_error hrun]
  · rw [Act.run_bind_ok hrun]
    simp [Act.run_bind]

/-- An address that is no word is found out first. -/
theorem cut_of_unrounded (ok : Sound w.self) (hp : w.self.phase = .reserved base)
    (h : Word.roundUp? (base + w.self.cursor) align = none) :
    ((cut base size align).run w).1 = .error (.sizeOverflow Arithmetic.roundUp) := by
  simp only [cut, Act.run_self_bind, Checked.add_of_lt (ok.here_lt hp), Act.settle_ok,
    Act.run_pure_bind, Checked.roundUp_of_none h]
  rfl

/-- What a cut answers once the address is known. -/
theorem cut_answer (ok : Sound w.self) (hp : w.self.phase = .reserved base)
    (rounded : Word.roundUp? (base + w.self.cursor) align = some address)
    (hword : address - base + size < Word.limit) :
    ((cut base size align).run w).1 =
      if w.self.total < address - base + size then
        .error (.outOfBounds (address - base + size) w.self.total)
      else if 0 < size ∧ w.self.committed < address - base + size then
        ((commitTo base (address - base + size)).run w).1.map fun _ => ⟨address, size⟩
      else .ok ⟨address, size⟩ := by
  have hle : base ≤ address := Nat.le_trans (Nat.le_add_right _ _) (Word.le_of_roundUp? rounded)
  simp only [cut, Act.run_self_bind, Checked.add_of_lt (ok.here_lt hp), Act.settle_ok,
    Act.run_pure_bind, Checked.roundUp_of_some rounded, Checked.sub_of_le hle, Checked.add_of_lt hword,
    Nat.add_sub_cancel' hle]
  split
  · rfl
  · rcases Nat.eq_zero_or_pos size with hzero | hpos
    · simp [hzero]
    · simp only [Nat.ne_of_gt hpos, if_false, hpos, true_and]
      split
      · rcases hrun : (commitTo base (address - base + size)).run w with ⟨e | u, w₁⟩
        · rw [Act.run_bind_error hrun]
          rfl
        · rw [Act.run_bind_ok hrun]
          rfl
      · rfl

/-! ### One slice of a reserved region -/

/-- A slice of a reserved region is a cut and nothing else. -/
theorem goes_of_cut (ok : Sound r) (hp : r.phase = .reserved base)
    (aligned : Word.isPowerOfTwo align = true) {answer : Except ArenaError Span}
    (h : ((cut base size align).run { machine with self := r }).1 = answer) :
    ∃ r' made, Cuts size align base r answer r' made ∧
      r.Goes ⟨machine, .slice size align⟩ (answer.map .span) r' made := by
  have hbase : obtainBase.run { machine with self := r }
      = (.ok base, { machine with self := r }) := by
    simp only [obtainBase, Act.run_self_bind, hp, Act.run_pure]
  have hmeet := meet_slice_of_obtained size aligned hbase
  rcases hrun : (cut base size align).run { machine with self := r } with ⟨answer', w'⟩
  rw [hrun] at hmeet
  obtain rfl : answer' = answer := by rw [← h, hrun]
  have okw : Sound (World.mk machine r).self := ok
  obtain ⟨r', made, cuts, leads⟩ := cut_cuts okw hp hrun
  refine ⟨r', made, cuts, ?_, after_of_meet hmeet leads⟩
  unfold Region.answer
  rw [hmeet]

/-- A request that is too large changes nothing. -/
theorem goes_of_tooLarge (ok : Sound r) (hp : r.phase = .reserved base)
    (aligned : Word.isPowerOfTwo align = true) {err : ArenaError} (large : IsTooLarge err)
    (h : ((cut base size align).run { machine with self := r }).1 = .error err) :
    r.Goes ⟨machine, .slice size align⟩ (.error err) r [] := by
  obtain ⟨r', made, cuts, goes⟩ := goes_of_cut ok hp aligned h
  obtain ⟨rfl, rfl, -⟩ := cuts.of_error (by rintro call code rfl; exact large)
  exact goes

/-- In a reservation there is always room to round an offset up to a page, and the page ends in
the reservation. -/
theorem Paged.roundUp?_page (ok : Sound r) (paged : Paged r) (hp : r.phase = .reserved base)
    (hpos : 0 < stop) (htotal : stop ≤ r.total) :
    Word.roundUp? stop r.backend.pageSize = some (Word.ceil stop r.backend.pageSize) ∧
      Word.ceil stop r.backend.pageSize ≤ r.total := by
  have hend := ok.addressable base hp
  have hle := Word.ceil_le htotal paged.page_dvd_total
  rw [Word.roundUp?_of_pos paged.geometry.page hpos, if_pos (by omega)]
  exact ⟨rfl, hle⟩

/-- A request for which there is room, and for which no call fails that has to be made, gets
its bytes: the cursor goes to their end, and the boundary to the end of their last page unless
it is there already. -/
theorem goes_of_fits (ok : Sound r) (paged : Paged r) (hp : r.phase = .reserved base)
    (aligned : Word.isPowerOfTwo align = true)
    (rounded : Word.roundUp? (base + r.cursor) align = some address)
    (fits : address - base + size ≤ r.total) :
    let stop := address - base + size
    let whole := Word.ceil stop r.backend.pageSize
    (0 < size → r.committed < stop →
      (machine.kernel.mprotect (base + r.committed) (whole - r.committed) .readWrite).1 = true) →
    r.Goes ⟨machine, .slice size align⟩ (.ok (.span ⟨address, size⟩))
      (if 0 < size then { r with cursor := stop, committed := max r.committed whole } else r)
      (if 0 < size ∧ r.committed < stop then
        [.mprotect (base + r.committed) (whole - r.committed) .readWrite 0] else []) := by
  intro stop whole commits
  have okw : Sound (World.mk machine r).self := ok
  have hend := ok.addressable base hp
  have hanswer : ((cut base size align).run { machine with self := r }).1
      = .ok ⟨address, size⟩ := by
    rw [cut_answer okw hp rounded (show address - base + size < Word.limit by omega),
      if_neg (Nat.not_lt.mpr fits)]
    split
    · rename_i hgrows
      have hpage := paged.roundUp?_page ok hp (show 0 < stop by omega) fits
      have hok := (commitTo_ok_iff (w := { machine with self := r }) base
        (Nat.le_of_lt hgrows.2) fits hpage.1).mpr (by
          rw [Nat.min_eq_left hpage.2]
          exact commits hgrows.1 hgrows.2)
      rw [hok]
      rfl
    · rfl
  obtain ⟨r', made, cuts, goes⟩ := goes_of_cut ok hp aligned hanswer
  cases cuts with
  | empty rounded' fits' hzero =>
      rw [if_neg (by omega), if_neg (by omega)]
      exact goes
  | inside rounded' pos hinside =>
      have hwhole : whole ≤ r.committed := Word.ceil_le hinside paged.committed
      rw [if_pos pos, if_neg (by omega), Nat.max_eq_left hwhole]
      exact goes
  | grown rounded' pos past fits' grows =>
      cases grows with
      | @grown whole' hround =>
          have hcut := paged.boundary_eq_ceil fits hround
          have hpast : r.committed ≤ whole :=
            Nat.le_trans (Nat.le_of_lt past)
              (Word.le_ceil stop (Word.pos_of_isPowerOfTwo paged.geometry.page))
          rw [if_pos pos, if_pos ⟨pos, past⟩, Nat.max_eq_right hpast]
          rw [hcut] at goes
          exact goes

/-- A request for which there is room loses the region if its pages cannot be made accessible. -/
theorem goes_of_lost (ok : Sound r) (paged : Paged r) (hp : r.phase = .reserved base)
    (aligned : Word.isPowerOfTwo align = true)
    (rounded : Word.roundUp? (base + r.cursor) align = some address) (pos : 0 < size)
    (past : r.committed < address - base + size) (fits : address - base + size ≤ r.total) :
    let whole := Word.ceil (address - base + size) r.backend.pageSize
    (machine.kernel.mprotect (base + r.committed) (whole - r.committed) .readWrite).1 = false →
    ∃ errno result, r.Goes ⟨machine, .slice size align⟩
      (.error (.osFailure OsCall.mprotect errno)) r.abandoned
      [.mprotect (base + r.committed) (whole - r.committed) .readWrite (-errno),
        .munmap base r.total result] := by
  intro whole fails
  have okw : Sound (World.mk machine r).self := ok
  have hend := ok.addressable base hp
  have hpage := paged.roundUp?_page ok hp (show 0 < address - base + size by omega) fits
  rcases hanswer : ((cut base size align).run { machine with self := r }).1 with err | span
  · obtain ⟨r', made, cuts, goes⟩ := goes_of_cut ok hp aligned hanswer
    have same : ∀ {other}, Word.roundUp? (base + r.cursor) align = some other →
        other = address := fun h => Option.some.inj (h.symm.trans rounded)
    cases cuts with
    | unrounded hnone =>
        rw [rounded] at hnone
        cases hnone
    | oversized rounded' hover =>
        obtain rfl := same rounded'
        omega
    | unfit rounded' hunfit =>
        obtain rfl := same rounded'
        omega
    | ungrown rounded' pos' past' fits' grows =>
        obtain rfl := same rounded'
        cases grows with
        | unrounded hnone =>
            rw [hpage.1] at hnone
            cases hnone
        | lost hround =>
            rw [paged.boundary_eq_ceil fits hround] at goes
            exact ⟨_, _, goes⟩
  · -- The span would have been answered after the call.
    rw [cut_answer okw hp rounded (show address - base + size < Word.limit by omega),
      if_neg (Nat.not_lt.mpr fits), if_pos ⟨pos, past⟩] at hanswer
    obtain ⟨u, hcommit, -⟩ := ok_of_map hanswer
    have hdone := (commitTo_ok_iff (w := { machine with self := r }) base (Nat.le_of_lt past) fits
      hpage.1).mp hcommit
    rw [Nat.min_eq_left hpage.2] at hdone
    exact absurd (hdone.symm.trans fails) (by decide)

/-- A slice of a reserved region, told in sums and multiples over the natural numbers.  The end
of the bytes is `stop`, and `whole` the end of the page in which they end. -/
theorem goes_exactly (ok : Sound r) (paged : Paged r) (hp : r.phase = .reserved base)
    (aligned : Word.isPowerOfTwo align = true) (machine : Machine) (size : Nat) :
    let e : Episode := ⟨machine, .slice size align⟩
    let address := Word.ceil (base + r.cursor) align
    let stop := address - base + size
    let whole := Word.ceil stop r.backend.pageSize
    let committed := machine.kernel.mprotect (base + r.committed) (whole - r.committed) .readWrite
    if Word.limit ≤ address then r.Goes e (.error (.sizeOverflow Arithmetic.roundUp)) r []
    else if Word.limit ≤ stop then r.Goes e (.error (.sizeOverflow Arithmetic.add)) r []
    else if r.total < stop then r.Goes e (.error (.outOfBounds stop r.total)) r []
    else if 0 < size ∧ r.committed < stop ∧ committed.1 = false then
      ∃ errno result, r.Goes e (.error (.osFailure OsCall.mprotect errno)) r.abandoned
        [.mprotect (base + r.committed) (whole - r.committed) .readWrite (-errno),
          .munmap base r.total result]
    else
      r.Goes e (.ok (.span ⟨address, size⟩))
        (if 0 < size then { r with cursor := stop, committed := max r.committed whole } else r)
        (if 0 < size ∧ r.committed < stop then
          [.mprotect (base + r.committed) (whole - r.committed) .readWrite 0] else []) := by
  intro e address stop whole committed
  have okw : Sound (World.mk machine r).self := ok
  have hbase := ok.base_pos base hp
  have hround : Word.roundUp? (base + r.cursor) align
      = if address < Word.limit then some address else none :=
    Word.roundUp?_of_pos aligned (by omega)
  split
  · rename_i haddress
    rw [if_neg (Nat.not_lt.mpr haddress)] at hround
    exact goes_of_tooLarge ok hp aligned trivial (cut_of_unrounded okw hp hround)
  · rename_i haddress
    rw [if_pos (Nat.not_le.mp haddress)] at hround
    split
    · rename_i hover
      exact goes_of_tooLarge ok hp aligned trivial (cut_of_oversized okw hp hround hover)
    · rename_i hword
      split
      · rename_i hunfit
        have hanswer := cut_answer okw hp hround (Nat.not_le.mp hword)
        rw [if_pos hunfit] at hanswer
        exact goes_of_tooLarge ok hp aligned trivial hanswer
      · rename_i hfits
        have hfits := Nat.not_lt.mp hfits
        split
        · rename_i hlost
          obtain ⟨pos, past, fails⟩ := hlost
          exact goes_of_lost ok paged hp aligned hround pos past hfits fails
        · rename_i hkept
          refine goes_of_fits ok paged hp aligned hround hfits ?_
          intro pos past
          exact Bool.eq_true_of_not_eq_false fun fails => hkept ⟨pos, past, fails⟩

/-- Whether a request is turned down as too large. -/
def Refuses (r : Region) (e : Episode) : Prop :=
  ∃ err, r.answer e = .error err ∧ IsTooLarge err

theorem Goes.refuses_iff {e : Episode} {err : ArenaError} (h : r.Goes e (.error err) r' made) :
    r.Refuses e ↔ IsTooLarge err := by
  constructor
  · rintro ⟨err', hanswer, large⟩
    obtain rfl := Except.error.inj (hanswer.symm.trans h.1)
    exact large
  · intro large
    exact ⟨err, h.1, large⟩

theorem Goes.not_refuses {e : Episode} {reply : Reply} (h : r.Goes e (.ok reply) r' made) :
    ¬ r.Refuses e := by
  rintro ⟨err, hanswer, -⟩
  cases hanswer.symm.trans h.1

/-- There is room for the bytes exactly if there is room for them at the first address that will
do. -/
theorem room_iff (hpos : 0 < align) {bound : Nat} :
    (∃ start, align ∣ start ∧ base + r.cursor ≤ start ∧ start + size ≤ base + bound) ↔
      Word.ceil (base + r.cursor) align - base + size ≤ bound := by
  have hle := Word.le_ceil (base + r.cursor) hpos
  constructor
  · rintro ⟨start, hdvd, hlow, hfits⟩
    have hfirst := Word.ceil_le hlow hdvd
    omega
  · intro hfits
    exact ⟨_, Word.dvd_ceil _ _, hle, by omega⟩

/-- **A slice of a reserved region is what arithmetic says.**  Let `address` be the least
multiple of the alignment from the cursor on and `stop` the offset at which the bytes then
end, both without a bound, and `whole` the end of the page in which they end.  An address or
an end that is no word is an overflow, and an end that lies behind the reservation is out of
bounds.  All else is granted, unless pages have to be made accessible and the call for it
fails.  Cursor and boundary then move up to `stop` and `whole`, and only if bytes were asked
for.  One call is made if the boundary is not there yet, and none otherwise.

So a request is refused exactly if there is no room for it, and the second rounding neither
leaves the words nor the reservation. -/
theorem slice_exact (made : r₀.Made) (geometry : r₀.backend.toGeometry.Sound)
    (es : List Episode) (machine : Machine) (size align base : Nat) :
    let r := r₀.run es
    let e : Episode := ⟨machine, .slice size align⟩
    r.phase = .reserved base → Word.isPowerOfTwo align = true →
    ∃ address whole,
      let stop := address - base + size
      let committed := machine.kernel.mprotect (base + r.committed) (whole - r.committed) .readWrite
      IsLeast {m | align ∣ m ∧ base + r.cursor ≤ m} address ∧
      IsLeast {m | r.backend.pageSize ∣ m ∧ stop ≤ m} whole ∧
      (if Word.limit ≤ address then r.Goes e (.error (.sizeOverflow Arithmetic.roundUp)) r []
       else if Word.limit ≤ stop then r.Goes e (.error (.sizeOverflow Arithmetic.add)) r []
       else if r.total < stop then r.Goes e (.error (.outOfBounds stop r.total)) r []
       else if 0 < size ∧ r.committed < stop ∧ committed.1 = false then
        ∃ errno result, r.Goes e (.error (.osFailure OsCall.mprotect errno)) r.abandoned
          [.mprotect (base + r.committed) (whole - r.committed) .readWrite (-errno),
            .munmap base r.total result]
       else
        r.Goes e (.ok (.span ⟨address, size⟩))
          (if 0 < size then { r with cursor := stop, committed := max r.committed whole } else r)
          (if 0 < size ∧ r.committed < stop then
            [.mprotect (base + r.committed) (whole - r.committed) .readWrite 0] else [])) ∧
      (0 < size → stop ≤ r.total →
        Word.roundUp? stop r.backend.pageSize = some whole ∧ min whole r.total = whole) ∧
      (r.Refuses e ↔
        ¬ ∃ start, align ∣ start ∧ base + r.cursor ≤ start ∧ start + size ≤ base + r.total) := by
  intro r e hp aligned
  have life := run_continues made.sound es
  have ok : Sound r := life.sound made.sound
  have paged : Paged r := life.paged made.sound (made.paged geometry)
  have hbase := ok.base_pos base hp
  have hend := ok.addressable base hp
  have hpos := Word.pos_of_isPowerOfTwo aligned
  have goes := goes_exactly ok paged hp aligned machine size
  refine ⟨Word.ceil (base + r.cursor) align, _, Word.isLeast_ceil _ hpos,
    Word.isLeast_ceil _ (Word.pos_of_isPowerOfTwo paged.geometry.page), goes, ?_, ?_⟩
  · intro pos hfits
    obtain ⟨hround, hle⟩ := paged.roundUp?_page ok hp (Nat.add_pos_right _ pos) hfits
    exact ⟨hround, Nat.min_eq_left hle⟩
  · rw [room_iff hpos, Nat.not_le]
    have hlow := Word.le_ceil (base + r.cursor) hpos
    generalize Word.ceil (base + r.cursor) align = address at goes hlow ⊢
    by_cases haddress : Word.limit ≤ address
    · rw [if_pos haddress] at goes
      exact iff_of_true (goes.refuses_iff.mpr trivial) (by omega)
    rw [if_neg haddress] at goes
    by_cases hover : Word.limit ≤ address - base + size
    · rw [if_pos hover] at goes
      exact iff_of_true (goes.refuses_iff.mpr trivial) (by omega)
    rw [if_neg hover] at goes
    by_cases hunfit : r.total < address - base + size
    · rw [if_pos hunfit] at goes
      exact iff_of_true (goes.refuses_iff.mpr trivial) hunfit
    rw [if_neg hunfit] at goes
    split at goes
    · obtain ⟨errno, result, goes⟩ := goes
      exact iff_of_false (fun h => goes.refuses_iff.mp h) hunfit
    · exact iff_of_false goes.not_refuses hunfit

/-- After 100 bytes, 5000 more are asked for at a multiple of 64.  They begin at 128 and end in
the second page, for which one call is made; and nothing is refused. -/
theorem slice_exact_of_twoPages :
    let base := 0x100000000000
    let r := twoPages.run [⟨{}, .slice 100 16⟩]
    let e : Episode := ⟨{}, .slice 5000 64⟩
    twoPages.Made ∧ twoPages.backend.toGeometry.Sound ∧ r.phase = .reserved base ∧
      Word.isPowerOfTwo 64 = true ∧
      r.Goes e (.ok (.span ⟨base + 128, 5000⟩)) { r with cursor := 5128, committed := 8192 }
        [.mprotect (base + 4096) 4096 .readWrite 0] ∧
      ¬ r.Refuses e := by
  intro base r e
  have hp : r.phase = .reserved base := by decide
  have aligned : Word.isPowerOfTwo 64 = true := by decide
  obtain ⟨address, whole, first, last, goes, -, -⟩ :=
    slice_exact twoPages_made twoPages_geometry [⟨{}, .slice 100 16⟩] {} 5000 64 base hp aligned
  have haddress : address = base + 128 :=
    (first.unique (Word.isLeast_ceil _ (by decide))).trans (by decide)
  have hstop : address - base + 5000 = 5128 := by omega
  have hwhole : whole = 8192 := by
    rw [hstop] at last
    exact (last.unique (Word.isLeast_ceil _ (by decide))).trans (by decide)
  rw [hstop, haddress, hwhole, if_neg (by decide), if_neg (by decide), if_neg (by decide),
    if_neg (by decide), if_pos (by decide), if_pos (by decide)] at goes
  have granted : r.Goes e (.ok (.span ⟨base + 128, 5000⟩))
      { r with cursor := 5128, committed := 8192 }
      [.mprotect (base + 4096) 4096 .readWrite 0] := goes
  exact ⟨twoPages_made, twoPages_geometry, hp, aligned, granted, granted.not_refuses⟩

end Region

end PageArena
