/-!
# Hexadecimal digits of a fixed width
-/

namespace WavePlot.Text

/-- The last `width` hexadecimal digits of a natural, in lower case. -/
def fixedHex : Nat → Nat → List Char
  | 0, _ => []
  | width + 1, n => fixedHex width (n / 16) ++ [(n % 16).digitChar]

end WavePlot.Text
