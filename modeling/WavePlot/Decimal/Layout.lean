import WavePlot.Decimal.Shortest

/-!
# Written forms of a number

Digits and the position of the point become text in one of two notations. Positional notation
has at least one digit on each side of the point. Exponent notation has one digit before the
point, no point after a lone digit, and a signed exponent of a least width.
-/

namespace WavePlot.Decimal

/-- Which exponents are written positionally, and how wide the others are written. -/
structure Layout where
  leastPositional : Int
  leastExponential : Int
  exponentWidth : Nat

/-- A natural in decimal with zeros in front up to the given width. -/
def padded (width n : Nat) : List Char := (Nat.toDigits 10 n).leftpad width '0'

/-- The digits with the point among them. -/
def positional (d : Digits) : List Char :=
  let before := d.point.toNat
  let whole := if before = 0 then ['0'] else (d.digits.take before).rightpad before '0'
  let fraction := List.replicate (-d.point).toNat '0' ++ d.digits.drop before
  whole ++ '.' :: (if fraction.isEmpty then ['0'] else fraction)

/-- One digit, the others behind a point, and the power of ten. -/
def exponential (exponentWidth : Nat) (d : Digits) : List Char :=
  let exponent := d.point - 1
  let mantissa :=
    match d.digits with
    | first :: second :: rest => first :: '.' :: second :: rest
    | lone => lone
  mantissa ++ 'e' :: (if exponent < 0 then '-' else '+') :: padded exponentWidth exponent.natAbs

def Layout.write (layout : Layout) (d : Digits) : List Char :=
  let exponent := d.point - 1
  if layout.leastPositional ≤ exponent && exponent < layout.leastExponential then positional d
  else exponential layout.exponentWidth d

end WavePlot.Decimal
