import WavePlot.Text.Hex
import WavePlot.Text.Printable
import WavePlot.Text.Wide

/-!
# Quoted text

A quoted text stands on one line between quotation marks and holds printable characters only,
so that any text can be named in a message. The mark is an apostrophe, unless the text has
apostrophes and no double quotation mark. The mark, the backslash and what is not printable are
written as escapes that begin with a backslash.
-/

namespace WavePlot.Text

/-- The mark that a quoted text stands between. -/
def quotationMark (text : Wide) : Char :=
  if text.contains (.char '\x27') && !text.contains (.char '\x22') then '\x22' else '\x27'

/-- One character between the given marks. -/
def escape (mark c : Char) : List Char :=
  if c = mark || c = '\\' then ['\\', c]
  else if c = '\n' then ['\\', 'n']
  else if c = '\r' then ['\\', 'r']
  else if c = '\t' then ['\\', 't']
  else if isPrintable c then [c]
  else if c.toNat < 0x100 then '\\' :: 'x' :: fixedHex 2 c.toNat
  else if c.toNat < 0x10000 then '\\' :: 'u' :: fixedHex 4 c.toNat
  else '\\' :: 'U' :: fixedHex 8 c.toNat

/-- One code point between the given marks. -/
def escapePoint (mark : Char) : CodePoint → List Char
  | .char c => escape mark c
  | .surrogate place => '\\' :: 'u' :: fixedHex 4 (surrogateNumber place)

/-- The quoted form of a text. -/
def quoteChars (text : Wide) : List Char :=
  let mark := quotationMark text
  mark :: text.flatMap (escapePoint mark) ++ [mark]

def quote (text : Wide) : String := String.ofList (quoteChars text)

end WavePlot.Text
