/-
Numbered places for the things a caller holds.

Places are numbered from zero in the order in which they were taken, and a number is never
given twice.  A place is empty when the thing that should have gone there was not made, or
when it has been given up.
-/

namespace PageArena

/-- Numbered places. -/
structure Slots (α : Type) where
  cells : List (Option α) := []
  deriving Repr

namespace Slots

variable {α : Type}

/-- What is at a place. -/
def find? (s : Slots α) (i : Nat) : Option α := (s.cells[i]?).join

/-- The number of the next place to be taken. -/
def next (s : Slots α) : Nat := s.cells.length

/-- Takes the next place, for a thing or to leave it empty. -/
def push (s : Slots α) (x : Option α) : Slots α := ⟨s.cells ++ [x]⟩

/-- Sets what is at a place that was taken. -/
def put (s : Slots α) (i : Nat) (x : Option α) : Slots α := ⟨s.cells.set i x⟩

/-- The things that are held. -/
def held (s : Slots α) : List α := s.cells.filterMap id

/-- The numbers of all places, the highest first. -/
def descending (s : Slots α) : List Nat := (List.range s.next).reverse

/-! ### What is found where -/

theorem find?_push_next (s : Slots α) (x : Option α) : (s.push x).find? s.next = x := by
  simp [push, find?, next]

theorem find?_push_of_ne (s : Slots α) (x : Option α) {i : Nat} (h : i ≠ s.next) :
    (s.push x).find? i = s.find? i := by
  simp only [push, find?, next] at *
  by_cases hi : i < s.cells.length
  · simp [List.getElem?_append_left hi]
  · have h1 : (s.cells ++ [x])[i]? = none := by
      simp; omega
    have h2 : s.cells[i]? = none := by simp; omega
    rw [h1, h2]

theorem find?_put_self (s : Slots α) {i : Nat} (x : Option α) (h : i < s.next) :
    (s.put i x).find? i = x := by
  simp [put, find?, next] at *
  simp [h]

theorem find?_put_of_ne (s : Slots α) {i j : Nat} (x : Option α) (h : i ≠ j) :
    (s.put i x).find? j = s.find? j := by
  simp [put, find?, List.getElem?_set_ne h]

end Slots

end PageArena
