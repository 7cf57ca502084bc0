/-
The bytes of an address space.

Memory is a function from addresses to bytes, and every change to it is a function on such
functions.  A change over a long range costs nothing when it is made; a byte is worked out
when it is read, by walking back through the changes to the last one that covers it.

The `_byteAt` equations say for each change which byte an address holds afterwards.  They
are all that is ever used of it.
-/

namespace PageArena

/-- What each address holds. -/
structure Memory where
  byteAt : Nat → UInt8

namespace Memory

/-- Memory in which every byte is zero. -/
def zero : Memory := ⟨fun _ => 0⟩

/-- The same byte over a whole range. -/
def fill (m : Memory) (start length : Nat) (byte : UInt8) : Memory :=
  ⟨fun a => if start ≤ a ∧ a < start + length then byte else m.byteAt a⟩

/-- A row of bytes from an address on. -/
def store (m : Memory) (start : Nat) (bytes : Array UInt8) : Memory :=
  ⟨fun a =>
    if start ≤ a then
      match bytes[a - start]? with
      | some byte => byte
      | none => m.byteAt a
    else m.byteAt a⟩

/-- The bytes of a range, in the order of their addresses. -/
def load (m : Memory) (start length : Nat) : Array UInt8 :=
  Array.ofFn fun i : Fin length => m.byteAt (start + i)

/-- The bytes of one range written over another, as they were before. -/
def transfer (m : Memory) (target source length : Nat) : Memory :=
  m.store target (m.load source length)

/-! ### The byte at an address after a change -/

@[simp] theorem zero_byteAt (a : Nat) : zero.byteAt a = 0 := rfl

theorem fill_byteAt (m : Memory) (start length : Nat) (byte : UInt8) (a : Nat) :
    (m.fill start length byte).byteAt a
      = if start ≤ a ∧ a < start + length then byte else m.byteAt a := rfl

theorem load_size (m : Memory) (start length : Nat) : (m.load start length).size = length := by
  simp [load]

theorem load_getElem? (m : Memory) (start length i : Nat) :
    (m.load start length)[i]? = if i < length then some (m.byteAt (start + i)) else none := by
  by_cases h : i < length
  · simp [load, h]
  · simp [load, h]

theorem store_byteAt (m : Memory) (start : Nat) (bytes : Array UInt8) (a : Nat) :
    (m.store start bytes).byteAt a
      = if start ≤ a ∧ a < start + bytes.size then bytes[a - start]?.getD 0
        else m.byteAt a := by
  simp only [store]
  by_cases h : start ≤ a
  · by_cases h' : a < start + bytes.size
    · have hi : a - start < bytes.size := by omega
      simp [h, h', hi]
    · have hi : bytes.size ≤ a - start := by omega
      simp [h, h', hi]
  · simp [h]

theorem transfer_byteAt (m : Memory) (target source length a : Nat) :
    (m.transfer target source length).byteAt a
      = if target ≤ a ∧ a < target + length then m.byteAt (source + (a - target))
        else m.byteAt a := by
  rw [transfer, store_byteAt, load_size]
  by_cases h : target ≤ a ∧ a < target + length
  · have hi : a - target < length := by omega
    simp [h, load_getElem?, hi]
  · simp [h]

end Memory

end PageArena
