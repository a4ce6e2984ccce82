import WavePlot.Color
import WavePlot.Parameter.Basic
import WavePlot.Phase
import WavePlot.SettingError

/-!
# What parameters accept

Each parameter has a rule that checks a value offered to it and normalises it: a positive or a
finite number, a phase, a line width, a colour, or any text. The rule depends on the value alone.
A refused value is refused for the first of these causes that applies: an integer in it past the
digit limit, a wrong kind, an integer past the range of numbers, NaN, and last its size.
-/

namespace WavePlot

namespace Value

/-- What an integer has been rounded to, unless that is an infinity. -/
def inRange : Binary64 → Except SettingError Binary64
  | .infinite _ => .error .tooLarge
  | x => .ok x

/-- The number that any value can be taken for: a text that spells one, one or zero for a flag. -/
def toReal : Value → Except SettingError Binary64
  | .real x => .ok x
  | .integer n => inRange (.ofInt n)
  | .text s =>
    match s.string?.bind Decimal.real? with
    | some x => .ok x
    | none => .error (.misspelt s)
  | .flag b => .ok (Binary64.ofInt (if b then 1 else 0))
  | v => .error (.notNumeric v)

/-- The number that a value is; only numbers and integers are. -/
def number (name : String) (v : Value) : Except SettingError Binary64 :=
  if v.hasNumerals then
    match v with
    | .real x => .ok x
    | .integer n => (Value.integer n).toReal
    | v => .error (.notNumber name v)
  else .error .pastDigitLimit

/-- The finite number that a value is. -/
def finite (name : String) (v : Value) : Except SettingError Binary64 := do
  let x ← v.number name
  if x.isNaN then .error (.isNaN name)
  else if x.isInfinite then .error (.isInfinite name)
  else .ok x

/-- The finite number greater than zero that a value is. -/
def positive (name : String) (v : Value) : Except SettingError Binary64 := do
  let x ← v.number name
  if x.isNaN then .error (.isNaN name)
  else if !x.isPositive then .error (.notPositive name x)
  else if x.isInfinite then .error (.isInfinite name)
  else .ok x

/-- The line width that a value is: an integer of at least one. -/
def thickness (v : Value) : Except SettingError Int :=
  if v.hasNumerals then
    match v with
    | .integer n => if 1 ≤ n then .ok n else .error (.tooThin n)
    | v => .error (.notInteger v)
  else .error .pastDigitLimit

/-- The text of a value of any kind. -/
def toText (v : Value) : Except SettingError Wide :=
  if v.hasNumerals then .ok v.shown else .error .pastDigitLimit

end Value

namespace Parameter

/-- Checks and normalises a value offered to the parameter. -/
def accept : (p : Parameter) → Value → Except SettingError p.Carrier
  | .period, v => v.positive (name .period)
  | .amplitude, v => v.positive (name .amplitude)
  | .shift, v => (v.number (name .shift)).map Phase.reduce
  | .color, v => v.toText.map Color.expand
  | .lineWidth, v => v.thickness
  | .xRangeStart, v => v.finite (name .xRangeStart)
  | .xRangeEnd, v => v.finite (name .xRangeEnd)
  | .yRangeStart, v => v.finite (name .yRangeStart)
  | .yRangeEnd, v => v.finite (name .yRangeEnd)
  | .plotWidth, v => v.toText
  | .plotHeight, v => v.toText

end Parameter

end WavePlot
