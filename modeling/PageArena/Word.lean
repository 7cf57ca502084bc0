/-
Machine words as natural numbers.

Sizes, offsets and addresses are words of 64 bits.  They are kept as natural numbers, and
the bound is checked where it matters: each operation here answers `none` exactly when its
mathematical result is no word.  Nothing ever wraps, so a statement about sizes is a
statement about `Nat`, and `omega` can read it.

An object in memory is smaller than half the words, so that any distance within it is a
signed word.  `hasRoom` says whether entries laid side by side stay below that.

Rounding goes the way hardware does it, by adding the mask of low bits and clearing them.
For a power of two, clearing the bits of its mask takes the remainder off.
-/

namespace PageArena

namespace Word

/-- The number of words, two to the 64: every word is below it. -/
def limit : Nat := 0x10000000000000000

/-- The value, if it is a word. -/
def ofNat? (n : Nat) : Option Nat :=
  if n < limit then some n else none

/-- The sum, if it is a word. -/
def add? (a b : Nat) : Option Nat :=
  ofNat? (a + b)

/-- The difference, if it is a word, that is, if nothing has to be borrowed. -/
def sub? (a b : Nat) : Option Nat :=
  if b ≤ a then some (a - b) else none

/-- The product, if it is a word. -/
def mul? (a b : Nat) : Option Nat :=
  ofNat? (a * b)

/-- The bound on the bytes of one object, two to the 63. -/
def objectLimit : Nat := 0x8000000000000000

/-- Whether one object can have room for so many entries of so many bytes each. -/
def hasRoom (entries bytes : Nat) : Bool :=
  entries * bytes < objectLimit

/-- Whether a number is a power of two, which is one shifted up by its own logarithm.  Zero
is none. -/
def isPowerOfTwo (n : Nat) : Bool :=
  n == 1 <<< n.log2

/-- The value without the bits that are set in the mask `align - 1`. -/
def clearLow (value align : Nat) : Nat :=
  value - (value &&& (align - 1))

/-- Round up to the next multiple of a power of two, if adding the mask stays a word. -/
def roundUp? (value align : Nat) : Option Nat :=
  (add? value (align - 1)).map (clearLow · align)

/-- Whether no bit of the mask `align - 1` is set in the value.  For a power of two this
is divisibility; the test means the same bits for every other alignment. -/
def isMultiple (value align : Nat) : Bool :=
  value &&& (align - 1) == 0

end Word

end PageArena
