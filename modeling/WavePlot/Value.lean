import WavePlot.Binary64.Text
import WavePlot.Decimal.Numeral
import WavePlot.Text.Quoted

/-!
# Values offered to a setting

A setting can be offered a value of any of these kinds; which of them it takes is its own rule.
Every value has a shown text, and a quoted text in which strings stand between quotation marks.
Both are defined for all values, but an integer past the digit limit is never shown to anyone:
`hasNumerals` says that no such integer occurs, and whoever shows a value asks it first.
-/

namespace WavePlot

inductive Value where
  | real (x : Binary64)
  | integer (n : Int)
  | text (s : Wide)
  | flag (b : Bool)
  | absent
  | list (items : List Value)

namespace Value

mutual

/-- Whether every integer in the value, at any depth, keeps within the digit limit. -/
def hasNumerals : Value → Bool
  | .integer n => Decimal.hasNumeral n
  | .list items => allHaveNumerals items
  | _ => true

def allHaveNumerals : List Value → Bool
  | [] => true
  | v :: rest => hasNumerals v && allHaveNumerals rest

end

mutual

/-- The value as it is named in messages. -/
def quoted : Value → String
  | .real x => x.text
  | .integer n => toString n
  | .text s => Text.quote s
  | .flag b => if b then "True" else "False"
  | .absent => "None"
  | .list items => "[" ++ ", ".intercalate (quotedAll items) ++ "]"

def quotedAll : List Value → List String
  | [] => []
  | v :: rest => quoted v :: quotedAll rest

end

/-- The value as text: a string is itself, anything else is as in messages. -/
def shown : Value → Wide
  | .text s => s
  | v => v.quoted

def kindName : Value → String
  | .real _ => "float"
  | .integer _ => "int"
  | .text _ => "str"
  | .flag _ => "bool"
  | .absent => "NoneType"
  | .list _ => "list"

end Value

end WavePlot
