/-
Spans of time, counted in nanoseconds.

The text of a duration uses the largest unit of which it holds at least one, from seconds
down to nanoseconds, and writes the rest behind a point, without trailing zeros.
-/

namespace PageArena

/-- A span of time. -/
structure Duration where
  nanoseconds : Nat
  deriving DecidableEq, Repr

namespace Duration

/-- So many milliseconds. -/
def ofMilliseconds (n : Nat) : Duration := ⟨n * 1000000⟩

/-- So many seconds. -/
def ofSeconds (n : Nat) : Duration := ⟨n * 1000000000⟩

/-- The digits of a fraction that has so many places: padded on the left to all of them,
without the zeros at the end. -/
def fraction (part places : Nat) : List Char :=
  let digits := Nat.toDigits 10 part
  let padded := List.replicate (places - digits.length) '0' ++ digits
  (padded.reverse.dropWhile (· == '0')).reverse

/-- A count of units of so many nanoseconds, a power of ten with `places` zeros, with its
fraction and the unit's sign. -/
def inUnit (n unit places : Nat) (sign : String) : String :=
  let whole := toString (n / unit)
  match fraction (n % unit) places with
  | [] => whole ++ sign
  | digits => whole ++ "." ++ String.ofList digits ++ sign

/-- The duration in its largest unit, exactly. -/
def text (d : Duration) : String :=
  let n := d.nanoseconds
  if 1000000000 ≤ n then inUnit n 1000000000 9 "s"
  else if 1000000 ≤ n then inUnit n 1000000 6 "ms"
  else if 1000 ≤ n then inUnit n 1000 3 "µs"
  else inUnit n 1 0 "ns"

end Duration

end PageArena
