import WavePlot.Decimal.Literal

/-!
# The fewest digits that read back

Among the decimals that round to a given binary64 magnitude, `shortest` picks one with the
fewest significant digits and, of those, one nearest to the magnitude; a tie goes to the even
digit. For each count of digits only the two neighbours of the magnitude on that decimal grid
can qualify, and each is tried by reading it back. Seventeen digits always suffice.

All decimals here are whole multiples of `10 ^ -341`, seventeen places below the first digit of
the least positive number, so the search stays within the naturals.
-/

namespace WavePlot.Decimal

/-- How many digits always suffice. -/
def maxDigits : Nat := 17

/-- One, in the fine decimal units of the search. -/
def fineUnitsPerOne : Nat := Nat.pow 10 341

/-- A magnitude in fine decimal units, rounded down. -/
def fineUnits (units : Nat) : Nat := units * fineUnitsPerOne / unitsPerOne

/-- Whether `coefficient * 10 ^ place` fine units round to the magnitude. -/
def readsBack (units coefficient place : Nat) : Bool :=
  roundUnits (coefficient * Nat.pow 10 place * unitsPerOne) fineUnitsPerOne == units

/-- The neighbour of the magnitude among the multiples of `10 ^ place` fine units that is nearer
to it, where `coefficient` is the lower one; of two equally near ones the even one. -/
def nearer (units coefficient place : Nat) : Nat :=
  let twice := 2 * units * fineUnitsPerOne
  let middle := (2 * coefficient + 1) * Nat.pow 10 place * unitsPerOne
  if twice < middle then coefficient
  else if middle < twice then coefficient + 1
  else coefficient + coefficient % 2

/-- The multiple of `10 ^ place` fine units that reads back, the nearer one if two do. -/
def candidate? (units place : Nat) : Option Nat :=
  let lower := fineUnits units / Nat.pow 10 place
  if readsBack units lower place then
    if readsBack units (lower + 1) place then some (nearer units lower place) else some lower
  else if readsBack units (lower + 1) place then some (lower + 1)
  else none

/-- Tries the grids of the places above the last from the coarsest down; if none of them has a
candidate, the nearer neighbour on the last grid is taken untried. The answer is a coefficient and
its place. -/
def searchGrid (units last more : Nat) : Nat × Nat :=
  let places := (List.range' (last + 1) more).reverse
  match places.findSome? fun place => (candidate? units place).map (·, place) with
  | some found => found
  | none => (nearer units (fineUnits units / Nat.pow 10 last) last, last)

/-- Significant digits, the first not zero unless all are, and the position of the decimal
point counted from the left of the first digit. -/
structure Digits where
  digits : List Char
  point : Int
  deriving DecidableEq, Repr

/-- The digits of `coefficient * 10 ^ place` fine units, without the zeros at their end. -/
def Digits.ofCoefficient (coefficient place : Nat) : Digits :=
  let digits := Nat.toDigits 10 coefficient
  { digits := Text.dropEndWhile (· == '0') digits
    point := (digits.length : Int) + place - 341 }

/-- The shortest digits for a magnitude that is not zero. -/
def shortest (units : Nat) : Digits :=
  let last := digitCount (fineUnits units) - maxDigits
  let found := searchGrid units last (maxDigits - 1)
  .ofCoefficient found.1 found.2

end WavePlot.Decimal
