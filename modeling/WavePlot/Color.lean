import WavePlot.Text.Wide

/-!
# Colours

A short colour `#RGB` of three hexadecimal digits stands for the long one with every digit
doubled, in lower case. Any other text is kept as it is and left to gnuplot.
-/

namespace WavePlot.Color

def isHexDigit (c : Char) : Bool :=
  c.isDigit || ('a' ≤ c && c ≤ 'f') || ('A' ≤ c && c ≤ 'F')

/-- The long form of a short colour; any other text unchanged. -/
def expand (text : Wide) : Wide :=
  match text with
  | [.char '#', .char red, .char green, .char blue] =>
    if isHexDigit red && isHexDigit green && isHexDigit blue then
      let (r, g, b) := (red.toLower, green.toLower, blue.toLower)
      ['#', r, r, g, g, b, b].map .char
    else text
  | _ => text

end WavePlot.Color
