/-
What the bit operations on words compute.

A power of two has a mask of low bits, and the bits of a value under that mask are its
remainder.  So clearing them rounds down, and none of them being set is divisibility.  This
is all that is needed of bits; what builds on it speaks of remainders.

`ceil` is rounding up as arithmetic has it, without a bound.  Rounding on words agrees with
it wherever adding the mask stays a word.
-/
import Mathlib
import PageArena.Word

namespace PageArena

namespace Word

/-- The test accepts the powers of two and nothing else. -/
theorem isPowerOfTwo_iff {n : Nat} : isPowerOfTwo n = true ↔ ∃ k, n = 2 ^ k := by
  constructor
  · intro h
    exact ⟨n.log2, by simpa [isPowerOfTwo, Nat.shiftLeft_eq] using h⟩
  · rintro ⟨k, rfl⟩
    simp [isPowerOfTwo, Nat.shiftLeft_eq]

/-- Clearing the bits below a power of two takes the remainder off. -/
theorem clearLow_two_pow (value k : Nat) :
    clearLow value (2 ^ k) = value - value % 2 ^ k := by
  rw [clearLow, Nat.and_two_pow_sub_one_eq_mod]

/-- No bit below a power of two is set in its multiples, and only in these. -/
theorem isMultiple_two_pow (value k : Nat) :
    isMultiple value (2 ^ k) = true ↔ value % 2 ^ k = 0 := by
  rw [isMultiple, Nat.and_two_pow_sub_one_eq_mod, beq_iff_eq]

/-! ### Rounding up -/

variable {value bound align address : Nat}

/-- The least multiple of an alignment that is not below the value. -/
def ceil (value align : Nat) : Nat := (value + (align - 1)) / align * align

theorem dvd_ceil (value align : Nat) : align ∣ ceil value align :=
  Nat.dvd_mul_left align _

theorem le_ceil (value : Nat) (h : 0 < align) : value ≤ ceil value align := by
  have hm := Nat.mod_lt (value + (align - 1)) h
  have hd := Nat.div_add_mod' (value + (align - 1)) align
  unfold ceil
  omega

theorem ceil_le (h : value ≤ bound) (hd : align ∣ bound) : ceil value align ≤ bound := by
  obtain ⟨q, rfl⟩ := hd
  rcases Nat.eq_zero_or_pos align with h0 | hpos
  · simp [ceil, h0]
  · have hq : (value + (align - 1)) / align ≤ q := by
      refine Nat.lt_succ_iff.mp ((Nat.div_lt_iff_lt_mul hpos).mpr ?_)
      rw [Nat.succ_mul, Nat.mul_comm q align]
      omega
    rw [ceil, Nat.mul_comm align q]
    exact Nat.mul_le_mul_right align hq

theorem ceil_mono (align : Nat) (h : value ≤ bound) : ceil value align ≤ ceil bound align :=
  Nat.mul_le_mul_right align (Nat.div_le_div_right (Nat.add_le_add_right h _))

/-- Rounding up never goes down, whatever the alignment is. -/
theorem le_of_roundUp? (h : roundUp? value align = some address) : value ≤ address := by
  simp only [roundUp?, add?, ofNat?, clearLow] at h
  split at h
  · have hle : (value + (align - 1)) &&& (align - 1) ≤ align - 1 := Nat.and_le_right
    simp only [Option.map_some, Option.some.injEq] at h
    omega
  · simp at h

/-- Rounding up to a power of two finds the least multiple, if the sum with the mask is a
word, and nothing otherwise. -/
theorem roundUp?_two_pow (value k : Nat) :
    roundUp? value (2 ^ k)
      = if value + (2 ^ k - 1) < limit then some (ceil value (2 ^ k)) else none := by
  simp only [roundUp?, add?, ofNat?]
  split
  · rw [Option.map_some, clearLow_two_pow, ceil, Nat.div_mul_self_eq_mod_sub_self]
  · rfl

theorem eq_ceil_of_roundUp? (hp : isPowerOfTwo align = true)
    (h : roundUp? value align = some address) : address = ceil value align := by
  obtain ⟨k, rfl⟩ := isPowerOfTwo_iff.mp hp
  rw [roundUp?_two_pow] at h
  split at h
  · exact (Option.some.inj h).symm
  · simp at h

theorem dvd_of_roundUp? (hp : isPowerOfTwo align = true)
    (h : roundUp? value align = some address) : align ∣ address := by
  rw [eq_ceil_of_roundUp? hp h]
  exact dvd_ceil value align

/-- Between a multiple of a power of two that is a word and the end of the words there is room
for another. -/
theorem add_le_limit (hp : isPowerOfTwo align = true) (hd : align ∣ value) (hpos : 0 < value)
    (h : value < limit) : value + align ≤ limit := by
  obtain ⟨k, rfl⟩ := isPowerOfTwo_iff.mp hp
  obtain ⟨q, rfl⟩ := hd
  have hlimit : limit = 2 ^ 64 := rfl
  have hle : 2 ^ k ≤ 2 ^ k * q := Nat.le_of_dvd hpos (Nat.dvd_mul_right _ _)
  have hk : k < 64 := (Nat.pow_lt_pow_iff_right (by decide)).mp (hlimit ▸ Nat.lt_of_le_of_lt hle h)
  have hsplit : limit = 2 ^ k * 2 ^ (64 - k) := by
    rw [hlimit, ← Nat.pow_add, Nat.add_sub_cancel' (Nat.le_of_lt hk)]
  rw [hsplit] at h ⊢
  have hq : q < 2 ^ (64 - k) := Nat.lt_of_mul_lt_mul_left h
  calc 2 ^ k * q + 2 ^ k = 2 ^ k * (q + 1) := (Nat.mul_succ _ _).symm
    _ ≤ 2 ^ k * 2 ^ (64 - k) := Nat.mul_le_mul_left _ hq

theorem pos_of_isPowerOfTwo (hp : isPowerOfTwo align = true) : 0 < align := by
  obtain ⟨k, rfl⟩ := isPowerOfTwo_iff.mp hp
  exact Nat.two_pow_pos k

/-- Rounding up without a bound finds the least multiple that is not below the value. -/
theorem isLeast_ceil (value : Nat) (h : 0 < align) :
    IsLeast {m | align ∣ m ∧ value ≤ m} (ceil value align) :=
  ⟨⟨dvd_ceil value align, le_ceil value h⟩, fun _ hm => ceil_le hm.2 hm.1⟩

theorem ceil_le_add_mask (value align : Nat) : ceil value align ≤ value + (align - 1) :=
  Nat.div_mul_le_self _ _

/-- Of a positive number nothing is lost to the mask: rounding up to a power of two answers
the least multiple whenever that is a word. -/
theorem roundUp?_of_pos (hp : isPowerOfTwo align = true) (hpos : 0 < value) :
    roundUp? value align
      = if ceil value align < limit then some (ceil value align) else none := by
  obtain ⟨k, rfl⟩ := isPowerOfTwo_iff.mp hp
  have hle := le_ceil value (Nat.two_pow_pos k)
  rw [roundUp?_two_pow]
  by_cases hc : ceil value (2 ^ k) < limit
  · have hroom := add_le_limit hp (dvd_ceil value _) (Nat.lt_of_lt_of_le hpos hle) hc
    rw [if_pos hc, if_pos (by omega)]
  · have hmask := ceil_le_add_mask value (2 ^ k)
    rw [if_neg hc, if_neg (by omega)]

end Word

end PageArena
