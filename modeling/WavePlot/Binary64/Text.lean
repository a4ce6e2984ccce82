import WavePlot.Decimal.Layout

/-!
# The text of a binary64 number

A finite number is written with the fewest digits that read back as it.
-/

namespace WavePlot

/-- Magnitudes from `10 ^ -4` up to `10 ^ 16` are positional; others have two exponent digits
or more. -/
def numberLayout : Decimal.Layout where
  leastPositional := -4
  leastExponential := 16
  exponentWidth := 2

namespace Binary64

/-- The digits of a magnitude; zero has the one digit zero before the point. -/
def digitsOf (units : Nat) : Decimal.Digits :=
  if units = 0 then ⟨['0'], 1⟩ else Decimal.shortest units

/-- The minus sign in front of a negative number. -/
def signText (negative : Bool) : List Char := if negative then ['-'] else []

def chars : Binary64 → List Char
  | .nan => ['n', 'a', 'n']
  | .infinite negative => signText negative ++ ['i', 'n', 'f']
  | .finite negative units _ => signText negative ++ numberLayout.write (digitsOf units)

def text (x : Binary64) : String := String.ofList x.chars

end Binary64

end WavePlot
