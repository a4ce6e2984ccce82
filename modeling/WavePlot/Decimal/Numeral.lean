import WavePlot.Decimal.Plain

/-!
# Integer numerals

An integer is read from an optional sign followed by digits. Reading and writing both stop at
`digitLimit` digits; on reading, leading zeros count and signs and underscores do not.
-/

namespace WavePlot.Decimal

/-- The most digits that an integer numeral may have. -/
def digitLimit : Nat := 4300

def integer? (text : String) : Option Int := do
  let plain ← plain? text.toList
  let (negative, digits) := splitSign plain
  if digits.length ≤ digitLimit then (natural? digits).map (signed negative) else none

/-- Whether an integer's numeral keeps within the digit limit. -/
def hasNumeral (n : Int) : Bool := decide (n.natAbs < Nat.pow 10 digitLimit)

end WavePlot.Decimal
