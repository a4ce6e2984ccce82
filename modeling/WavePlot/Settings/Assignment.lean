import WavePlot.Settings.Basic

/-!
# Assignments on the command line

One word `--name=value` assigns one parameter. The name ends at the first equals sign and the
value is all that follows, read by the parameter's kind.
-/

namespace WavePlot

/-- The value that a text spells, for a parameter of the kind. -/
def Kind.read? : Kind → Wide → Option Value
  | .real, raw => (raw.string?.bind Decimal.real?).map .real
  | .integer, raw => (raw.string?.bind Decimal.integer?).map .integer
  | .text, raw => some (.text raw)

structure Assignment where
  parameter : Parameter
  value : Value

namespace Assignment

/-- A word's part before its first equals sign, and the part behind it if there is one. -/
def splitWord (word : Wide) : Wide × Option Wide :=
  match word.dropWhile (· != .char '=') with
  | [] => (word, none)
  | _ :: raw => (word.takeWhile (· != .char '='), some raw)

/-- The parameter that a word's part before the equals sign names, dashes included. -/
def parameter? : Wide → Option Parameter
  | .char '-' :: .char '-' :: name => Parameter.ofName? name
  | _ => none

def ofWord (word : Wide) : Except SettingError Assignment :=
  let (name, raw) := splitWord word
  match parameter? name, raw with
  | none, _ => .error (.unknownName name)
  | some _, none => .error (.noValue name)
  | some p, some raw =>
    match p.kind.read? raw with
    | some v => .ok ⟨p, v⟩
    | none => .error (.badValue name raw)

end Assignment

namespace Settings

/-- The settings after the assignment that a word spells. -/
def apply (s : Settings) (word : Wide) : Except SettingError Settings := do
  let a ← Assignment.ofWord word
  s.assign a.parameter a.value

/-- The default settings after the assignments of some words, in their order. -/
def ofWords (words : List Wide) : Except SettingError Settings :=
  words.foldlM apply default

end Settings

end WavePlot
