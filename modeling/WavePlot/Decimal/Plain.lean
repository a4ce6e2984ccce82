import WavePlot.Text.Blank
import WavePlot.Text.DecimalDigit

/-!
# Number text without its optional dress

Number text may stand between blanks, may use the digits of any script and may group its digits
with single underscores. `plain?` takes all that away and leaves the ASCII text that the number
grammars read; it fails where an underscore does not stand between two digits.
-/

namespace WavePlot.Decimal

open WavePlot.Text

/-- The text without its grouping underscores. An underscore is refused unless the character
before it, a digit if `afterDigit`, and the one after it are digits. -/
def ungroup (afterDigit : Bool) : List Char → Option (List Char)
  | [] => some []
  | c :: rest =>
    if c = '_' then
      if afterDigit && rest.head?.any Char.isDigit then ungroup false rest else none
    else
      (ungroup c.isDigit rest).map (c :: ·)

/-- Number text trimmed, in ASCII digits and without grouping. -/
def plain? (text : List Char) : Option (List Char) :=
  ungroup false (trim (text.map toAsciiDigit))

/-- An optional sign and what follows it; the flag says whether the sign is a minus. -/
def splitSign : List Char → Bool × List Char
  | '-' :: rest => (true, rest)
  | '+' :: rest => (false, rest)
  | text => (false, text)

/-- The value of one or more ASCII digits. -/
def natural? (digits : List Char) : Option Nat :=
  if !digits.isEmpty && digits.all Char.isDigit then some (Nat.ofDigitChars 10 digits 0) else none

def signed (negative : Bool) (magnitude : Nat) : Int :=
  if negative then -(magnitude : Int) else magnitude

end WavePlot.Decimal
