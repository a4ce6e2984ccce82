import WavePlot.Decimal.Plain
import WavePlot.Binary64.Basic

/-!
# Decimal literals

The grammar of a number: an optional sign, then digits with an optional point among or beside
them and an optional power of ten, or one of the words for an infinity and for not-a-number.
`Literal.value` is the binary64 number nearest to the literal, however many digits it has and
however large its exponent: `nearest` decides by the position of the leading digit whether the
power of ten is within reach before any power is computed.
-/

namespace WavePlot.Decimal

/-- What a number text denotes before rounding. -/
inductive Literal where
  | number (negative : Bool) (coefficient : Nat) (exponent : Int)
  | infinity (negative : Bool)
  | nan
  deriving DecidableEq, Repr

/-- The exponent part at the end of a literal; no exponent stands for zero. -/
def exponent? : List Char → Option Int
  | [] => some 0
  | mark :: rest =>
    if mark = 'e' || mark = 'E' then
      let (negative, digits) := splitSign rest
      (natural? digits).map (signed negative)
    else none

/-- The digits at the start of a text and what follows them. -/
def spanDigits (text : List Char) : List Char × List Char :=
  (text.takeWhile Char.isDigit, text.dropWhile Char.isDigit)

/-- The digits after a point at the start of a text, none if it has no point there, and what
follows them. -/
def spanFraction : List Char → List Char × List Char
  | '.' :: rest => spanDigits rest
  | text => ([], text)

/-- An unsigned literal in digits: its coefficient and its power of ten. -/
def unsigned? (body : List Char) : Option (Nat × Int) := do
  let (whole, rest) := spanDigits body
  let (fraction, rest) := spanFraction rest
  let coefficient ← natural? (whole ++ fraction)
  let exponent ← exponent? rest
  some (coefficient, exponent - fraction.length)

namespace Literal

/-- The literal that a plain text spells. -/
def ofPlain? (plain : List Char) : Option Literal :=
  let (negative, body) := splitSign plain
  let word := body.map Char.toLower
  if word = "inf".toList || word = "infinity".toList then some (.infinity negative)
  else if word = "nan".toList then some .nan
  else (unsigned? body).map fun (coefficient, exponent) => .number negative coefficient exponent

end Literal

def digitCount (n : Nat) : Nat := (Nat.toDigits 10 n).length

/-- The number nearest to `coefficient * 10 ^ exponent`. -/
def scaled (negative : Bool) (coefficient : Nat) (exponent : Int) : Binary64 :=
  if 0 ≤ exponent then .ofRatio negative (coefficient * Nat.pow 10 exponent.toNat) 1
  else .ofRatio negative coefficient (Nat.pow 10 (-exponent).toNat)

/-- The number nearest to `coefficient * 10 ^ exponent`, found without the power where the
position of the leading digit already settles it: below `10 ^ -324` everything rounds to zero,
from `10 ^ 309` on to an infinity. -/
def nearest (negative : Bool) (coefficient : Nat) (exponent : Int) : Binary64 :=
  let position := digitCount coefficient + exponent
  if coefficient = 0 || position ≤ -324 then .round negative 0 1
  else if 310 ≤ position then .infinite negative
  else scaled negative coefficient exponent

def Literal.value : Literal → Binary64
  | .number negative coefficient exponent => nearest negative coefficient exponent
  | .infinity negative => .infinite negative
  | .nan => .nan

/-- The binary64 number that a text denotes. -/
def real? (text : String) : Option Binary64 := do
  let plain ← plain? text.toList
  (Literal.ofPlain? plain).map Literal.value

end WavePlot.Decimal
