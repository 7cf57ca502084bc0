/-
Rounding up, on words.

The machine adds a mask and clears its bits.  The sum has to be a word, and that asks for more
than the result being one: the sum may lie up to a mask above it.  It asks for no more after
all, as long as the alignment is a word itself.  The last multiple of a power of two that is a
word lies a whole alignment below the end of the words, so whenever the result is a word there
is room for the mask as well (`roundUp?_of_lt`).

So rounding is one question, whether the least multiple is a word, and its laws are those of
least multiples.  They hold at the end of the words too, where one side has an answer exactly
if the other has: a smaller value fails only if a larger one does, and rounding in two steps
fails only if rounding in one does.
-/
import Mathlib
import PageArena.Proofs.Arithmetic

namespace PageArena

namespace Word

variable {value bound align wider i : Nat}

theorem ceil_of_dvd (h : 0 < align) (hd : align ∣ value) : ceil value align = value :=
  Nat.le_antisymm (ceil_le (Nat.le_refl value) hd) (le_ceil value h)

/-- A value is its own least multiple exactly if it is one. -/
theorem ceil_eq_self_iff (h : 0 < align) : ceil value align = value ↔ align ∣ value := by
  constructor
  · intro heq
    rw [← heq]
    exact dvd_ceil value align
  · exact ceil_of_dvd h

/-- On the way to a multiple of the wider alignment every narrower one is passed first. -/
theorem ceil_le_ceil_of_dvd (h : 0 < wider) (hd : align ∣ wider) :
    ceil value align ≤ ceil value wider :=
  ceil_le (le_ceil value h) (Nat.dvd_trans hd (dvd_ceil value wider))

theorem ceil_ceil (hpos : 0 < align) (h : 0 < wider) (hd : align ∣ wider) :
    ceil (ceil value align) wider = ceil value wider :=
  Nat.le_antisymm (ceil_le (ceil_le_ceil_of_dvd h hd) (dvd_ceil value wider))
    (ceil_mono wider (le_ceil value hpos))

/-- Rounding a word up to a power of two that is a word answers the least multiple whenever
that is a word, of zero as well. -/
theorem roundUp?_of_lt (hi : i < 64) (value : Nat) :
    roundUp? value (2 ^ i)
      = if ceil value (2 ^ i) < limit then some (ceil value (2 ^ i)) else none := by
  rcases Nat.eq_zero_or_pos value with rfl | hpos
  · have halign := Nat.two_pow_pos i
    have hword : 2 ^ i < limit := Nat.pow_lt_pow_right (by decide) hi
    have hzero : ceil 0 (2 ^ i) = 0 := ceil_of_dvd halign (Nat.dvd_zero _)
    rw [roundUp?_two_pow, hzero, if_pos (show 0 + (2 ^ i - 1) < limit by omega),
      if_pos (show 0 < limit by decide)]
  · exact roundUp?_of_pos (isPowerOfTwo_iff.mpr ⟨i, rfl⟩) hpos

/-! ### The same with bits -/

/-- A number of the bits that are not in the mask is what clearing them leaves. -/
theorem toNat_and_not (v mask : BitVec 64) :
    (v &&& ~~~mask).toNat = v.toNat - (v.toNat &&& mask.toNat) := by
  have apart : (v &&& mask) &&& (v &&& ~~~mask) = 0#64 := by grind
  have whole : (v &&& mask) + (v &&& ~~~mask) = v := by
    rw [BitVec.add_eq_or_of_and_eq_zero _ _ apart, ← BitVec.and_or_distrib_left,
      BitVec.or_not_self, BitVec.and_allOnes]
  have hsum := BitVec.toNat_add_of_and_eq_zero apart
  rw [whole, BitVec.toNat_and] at hsum
  omega

/-- Rounding up as the machine does it with 64 bits, if the sum with the mask does not wrap. -/
def maskUp? (value align : BitVec 64) : Option (BitVec 64) :=
  if value.uaddOverflow (align - 1) then none
  else some ((value + (align - 1)) &&& ~~~(align - 1))

theorem roundUp?_toNat (value align : BitVec 64) (h : 0 < align.toNat) :
    roundUp? value.toNat align.toNat = (maskUp? value align).map BitVec.toNat := by
  have hone : (1 : BitVec 64) ≤ align := by
    rw [BitVec.le_def]
    exact h
  have hmask : (align - 1).toNat = align.toNat - 1 := BitVec.toNat_sub_of_le hone
  have hlimit : limit = 2 ^ 64 := rfl
  simp only [roundUp?, add?, ofNat?, maskUp?, ← hmask, clearLow]
  by_cases hover : value.uaddOverflow (align - 1)
  · have hsum : 2 ^ 64 ≤ value.toNat + (align - 1).toNat := by
      simpa [BitVec.uaddOverflow] using hover
    rw [if_neg (by omega), if_pos hover]
    rfl
  · have hsum : value.toNat + (align - 1).toNat < 2 ^ 64 := by
      simpa [BitVec.uaddOverflow] using hover
    rw [if_pos (by omega), if_neg hover, Option.map_some, Option.map_some, toNat_and_not,
      BitVec.toNat_add_of_not_uaddOverflow hover]

end Word

namespace Checked

variable {value i : Nat}

/-- Rounding up, with the least multiple as the only question. -/
theorem roundUp_eq (hi : i < 64) (value : Nat) :
    roundUp value (2 ^ i)
      = if Word.ceil value (2 ^ i) < Word.limit then .ok (Word.ceil value (2 ^ i))
        else .error (.sizeOverflow Arithmetic.roundUp) := by
  unfold roundUp
  rw [Word.roundUp?_of_lt hi]
  split
  · rfl
  · rfl

theorem roundUp_ok_iff (hi : i < 64) {result : Nat} :
    roundUp value (2 ^ i) = .ok result ↔
      Word.ceil value (2 ^ i) = result ∧ result < Word.limit := by
  rw [roundUp_eq hi]
  split
  · rename_i h
    rw [Except.ok.injEq]
    exact ⟨fun heq => ⟨heq, heq ▸ h⟩, And.left⟩
  · rename_i h
    refine iff_of_false (by simp) ?_
    rintro ⟨rfl, hlt⟩
    exact h hlt

/-- Two steps are one, up to the last multiple that is a word and beyond it. -/
theorem roundUp_roundUp {j : Nat} (hij : i ≤ j) (hj : j < 64) (value : Nat) :
    (roundUp value (2 ^ i)).bind (roundUp · (2 ^ j)) = roundUp value (2 ^ j) := by
  have hi : i < 64 := Nat.lt_of_le_of_lt hij hj
  have hdvd : 2 ^ i ∣ 2 ^ j := Nat.pow_dvd_pow 2 hij
  have hle : Word.ceil value (2 ^ i) ≤ Word.ceil value (2 ^ j) :=
    Word.ceil_le_ceil_of_dvd (Nat.two_pow_pos j) hdvd
  rw [roundUp_eq hi]
  by_cases h : Word.ceil value (2 ^ i) < Word.limit
  · rw [if_pos h]
    show roundUp (Word.ceil value (2 ^ i)) (2 ^ j) = _
    rw [roundUp_eq hj, roundUp_eq hj,
      Word.ceil_ceil (Nat.two_pow_pos i) (Nat.two_pow_pos j) hdvd]
  · rw [if_neg h, roundUp_eq hj, if_neg (by omega)]
    rfl

/-- **Rounding up finds the least multiple that is not below the value**, and reports an
overflow exactly if that is no word: for every word, and every power of two that is a word.
This is what adding the mask and clearing its bits comes to on 64 bits.  So a value passes the
test for a multiple exactly if rounding gives it back, what was rounded stays, a larger value
is not rounded to less, and rounding to a wider alignment forgets a narrower one that came
before, failures included. -/
theorem roundUp_finds_least (hv : value < Word.limit) (hi : i ≤ 63) :
    let align := 2 ^ i
    (∃ least, IsLeast {multiple | align ∣ multiple ∧ value ≤ multiple} least ∧
      roundUp? value align = some (if least < Word.limit then .ok least
        else .error (.sizeOverflow Arithmetic.roundUp))) ∧
    roundUp? value align = some (roundUp value align) ∧
    Word.roundUp? value align
      = (Word.maskUp? (BitVec.ofNat 64 value) (BitVec.ofNat 64 align)).map BitVec.toNat ∧
    (isMultiple? value align = some true ↔ roundUp value align = .ok value) ∧
    (∀ result, roundUp value align = .ok result → roundUp result align = .ok result) ∧
    (∀ larger result, value ≤ larger → roundUp larger align = .ok result →
      ∃ smaller ≤ result, roundUp value align = .ok smaller) ∧
    (∀ j, i ≤ j → j ≤ 63 →
      (roundUp value align).bind (roundUp · (2 ^ j)) = roundUp value (2 ^ j)) := by
  intro align
  have hpos : 0 < align := Nat.two_pow_pos i
  have hlt : i < 64 := Nat.lt_succ_of_le hi
  have hword : align < 2 ^ 64 := Nat.pow_lt_pow_right (by decide) hlt
  have defined : roundUp? value align = some (roundUp value align) :=
    if_pos (Word.isPowerOfTwo_iff.mpr ⟨i, rfl⟩)
  refine ⟨⟨_, Word.isLeast_ceil value hpos, ?_⟩, defined, ?_, ?_, ?_, ?_, ?_⟩
  · rw [defined, roundUp_eq hlt]
  · have hnat : (BitVec.ofNat 64 value).toNat = value := Nat.mod_eq_of_lt hv
    have halign : (BitVec.ofNat 64 align).toNat = align := Nat.mod_eq_of_lt hword
    rw [← Word.roundUp?_toNat _ _ (by rw [halign]; exact hpos), hnat, halign]
  · rw [isMultiple?, if_neg (Nat.ne_of_gt hpos), Option.some.injEq, Word.isMultiple_two_pow,
      ← Nat.dvd_iff_mod_eq_zero, roundUp_ok_iff hlt, Word.ceil_eq_self_iff hpos]
    exact ⟨fun h => ⟨h, hv⟩, And.left⟩
  · intro result h
    obtain ⟨rfl, hresult⟩ := (roundUp_ok_iff hlt).mp h
    exact (roundUp_ok_iff hlt).mpr ⟨Word.ceil_of_dvd hpos (Word.dvd_ceil _ _), hresult⟩
  · intro larger result hle h
    obtain ⟨rfl, hresult⟩ := (roundUp_ok_iff hlt).mp h
    have hmono := Word.ceil_mono align hle
    exact ⟨_, hmono, (roundUp_ok_iff hlt).mpr ⟨rfl, Nat.lt_of_le_of_lt hmono hresult⟩⟩
  · intro j hij hj
    exact roundUp_roundUp hij (Nat.lt_succ_of_le hj) value

/-- At the end of the words: the last multiple of 4096 is found, and of 8192 there is none
left, whether 4096 is rounded to before or not. -/
theorem roundUp_finds_last_page :
    let value := 0xffffffffffffe001
    let last := 0xfffffffffffff000
    value < Word.limit ∧ 12 ≤ 63 ∧ roundUp value (2 ^ 12) = .ok last ∧
      roundUp last (2 ^ 12) = .ok last ∧
      roundUp value (2 ^ 13) = .error (.sizeOverflow Arithmetic.roundUp) ∧
      (roundUp value (2 ^ 12)).bind (roundUp · (2 ^ 13)) = roundUp value (2 ^ 13) := by
  intro value last
  have hv : value < Word.limit := by decide
  have first : roundUp value (2 ^ 12) = .ok last := by decide
  obtain ⟨-, -, -, -, again, -, wider⟩ :=
    roundUp_finds_least hv (show 12 ≤ 63 by decide)
  exact ⟨hv, by decide, first, again last first, by decide, wider 13 (by decide) (by decide)⟩

end Checked

end PageArena
