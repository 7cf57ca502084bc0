/-
When checked arithmetic answers, and what it complains of when it does not.

Each operation answers the result over the natural numbers as long as that is a word.  So a
proof that knows its bounds goes on with the result, and what is left is `omega`.
-/
import Mathlib
import PageArena.Error.Arena
import PageArena.Proofs.Word

namespace PageArena

namespace Checked

variable {a b result : Nat}

theorem add_of_lt (h : a + b < Word.limit) : add a b = .ok (a + b) := by
  simp [add, Word.add?, Word.ofNat?, Arithmetic.result, h]

theorem add_of_le (h : Word.limit ≤ a + b) :
    add a b = .error (.sizeOverflow Arithmetic.add) := by
  simp [add, Word.add?, Word.ofNat?, Arithmetic.result, Nat.not_lt.mpr h]

theorem sub_of_le (h : b ≤ a) : sub a b = .ok (a - b) := by
  simp [sub, Word.sub?, Arithmetic.result, h]

theorem mul_of_lt (h : a * b < Word.limit) : mul a b = .ok (a * b) := by
  simp [mul, Word.mul?, Word.ofNat?, Arithmetic.result, h]

theorem mul_of_le (h : Word.limit ≤ a * b) :
    mul a b = .error (.sizeOverflow Arithmetic.mul) := by
  simp [mul, Word.mul?, Word.ofNat?, Arithmetic.result, Nat.not_lt.mpr h]

theorem roundUp_of_some (h : Word.roundUp? a b = some result) : roundUp a b = .ok result := by
  simp [roundUp, Arithmetic.result, h]

theorem roundUp_of_none (h : Word.roundUp? a b = none) :
    roundUp a b = .error (.sizeOverflow Arithmetic.roundUp) := by
  simp [roundUp, Arithmetic.result, h]

theorem roundUp_eq_ok_iff : roundUp a b = .ok result ↔ Word.roundUp? a b = some result := by
  cases h : Word.roundUp? a b with
  | none => simp [roundUp_of_none h]
  | some n => simp [roundUp_of_some h]

theorem alignment_of_isPowerOfTwo (h : Word.isPowerOfTwo a = true) : alignment a = .ok () := by
  simp [alignment, h]

theorem alignment_of_not (h : Word.isPowerOfTwo a = false) :
    alignment a = .error (.invalidAlignment a) := by
  simp [alignment, h]

end Checked

end PageArena
