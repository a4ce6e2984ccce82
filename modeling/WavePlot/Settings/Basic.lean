import WavePlot.Parameter.Acceptance

/-!
# The settings of a plot

`Settings` holds one stored value for each parameter. A value assigned to a parameter is accepted
by the parameter's rule and put into its place. `get_put_self`, `get_put_of_ne` and `ext_get` are
all that is needed to reason about places.
-/

namespace WavePlot

def Kind.toValue : (k : Kind) → k.Carrier → Value
  | .real, x => .real x
  | .integer, n => .integer n
  | .text, s => .text s

@[ext]
structure Settings where
  period : Binary64
  amplitude : Binary64
  shift : Binary64
  color : Wide
  lineWidth : Int
  xRangeStart : Binary64
  xRangeEnd : Binary64
  yRangeStart : Binary64
  yRangeEnd : Binary64
  plotWidth : Wide
  plotHeight : Wide

namespace Settings

/-- The settings before anything is assigned: one wave of height one around the origin, two
full turns to each side. -/
def default : Settings where
  period := .round false Phase.fullTurn 1
  amplitude := .ofInt 1
  shift := .zero
  color := "#ffd500"
  lineWidth := 8
  xRangeStart := .round true (2 * Phase.fullTurn) 1
  xRangeEnd := .round false (2 * Phase.fullTurn) 1
  yRangeStart := .ofRatio true 3 2
  yRangeEnd := .ofRatio false 3 2
  plotWidth := "960"
  plotHeight := "600"

def get (s : Settings) : (p : Parameter) → p.Carrier
  | .period => s.period
  | .amplitude => s.amplitude
  | .shift => s.shift
  | .color => s.color
  | .lineWidth => s.lineWidth
  | .xRangeStart => s.xRangeStart
  | .xRangeEnd => s.xRangeEnd
  | .yRangeStart => s.yRangeStart
  | .yRangeEnd => s.yRangeEnd
  | .plotWidth => s.plotWidth
  | .plotHeight => s.plotHeight

def put (s : Settings) : (p : Parameter) → p.Carrier → Settings
  | .period, x => { s with period := x }
  | .amplitude, x => { s with amplitude := x }
  | .shift, x => { s with shift := x }
  | .color, x => { s with color := x }
  | .lineWidth, x => { s with lineWidth := x }
  | .xRangeStart, x => { s with xRangeStart := x }
  | .xRangeEnd, x => { s with xRangeEnd := x }
  | .yRangeStart, x => { s with yRangeStart := x }
  | .yRangeEnd, x => { s with yRangeEnd := x }
  | .plotWidth, x => { s with plotWidth := x }
  | .plotHeight, x => { s with plotHeight := x }

@[simp] theorem get_put_self (s : Settings) (p : Parameter) (x : p.Carrier) :
    (s.put p x).get p = x := by cases p <;> rfl

theorem get_put_of_ne (s : Settings) {p q : Parameter} (x : p.Carrier) (h : q ≠ p) :
    (s.put p x).get q = s.get q := by
  cases p <;> cases q <;> first | rfl | exact absurd rfl h

/-- Settings that agree on every parameter are the same. -/
theorem ext_get {s t : Settings} (h : ∀ p, s.get p = t.get p) : s = t :=
  Settings.ext (h .period) (h .amplitude) (h .shift) (h .color) (h .lineWidth) (h .xRangeStart)
    (h .xRangeEnd) (h .yRangeStart) (h .yRangeEnd) (h .plotWidth) (h .plotHeight)

def value (s : Settings) (p : Parameter) : Value := p.kind.toValue (s.get p)

/-- Every parameter with its stored value, in the order of the parameters. -/
def entries (s : Settings) : List (Parameter × Value) :=
  Parameter.all.map fun p => (p, s.value p)

/-- The settings after a value has been offered to a parameter. -/
def assign (s : Settings) (p : Parameter) (v : Value) : Except SettingError Settings :=
  (p.accept v).map (s.put p)

/-- The keyword that stands for the settings themselves and so sets no parameter. -/
def ownKeyword : Wide := "self"

/-- Why a keyword cannot be used, if it is no parameter's key. -/
def keywordError? (key : Wide) : Option SettingError :=
  if key = ownKeyword then some (.takenKeyword key)
  else if (Parameter.ofKey? key).isNone then some (.unknownKeyword key)
  else none

/-- The default settings after the values for some keywords. A keyword that no parameter has is
refused before any value is looked at, the first one given first; the values are then assigned in
the order of the parameters. -/
def ofKeywords (keywords : List (Wide × Value)) : Except SettingError Settings :=
  match keywords.findSome? fun keyword => keywordError? keyword.1 with
  | some e => .error e
  | none =>
    Parameter.all.foldlM (fun s p =>
      match keywords.lookup p.key with
      | some v => s.assign p v
      | none => .ok s) default

end Settings

end WavePlot
