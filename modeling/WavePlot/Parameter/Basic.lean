import WavePlot.Binary64.Basic
import WavePlot.Text.Wide

/-!
# The parameters of a plot

Eleven parameters describe a plot. Each has a name on the command line, a key under which a
caller sets it by keyword, and the kind of value it stores.
-/

namespace WavePlot

inductive Kind where
  | real
  | integer
  | text
  deriving DecidableEq, Repr

/-- The type of the stored values of a kind. -/
abbrev Kind.Carrier : Kind → Type
  | .real => Binary64
  | .integer => Int
  | .text => Wide

inductive Parameter where
  | period
  | amplitude
  | shift
  | color
  | lineWidth
  | xRangeStart
  | xRangeEnd
  | yRangeStart
  | yRangeEnd
  | plotWidth
  | plotHeight
  deriving DecidableEq, Repr

namespace Parameter

/-- All parameters, in the order in which they are listed and assigned. -/
def all : List Parameter :=
  [.period, .amplitude, .shift, .color, .lineWidth, .xRangeStart, .xRangeEnd, .yRangeStart,
    .yRangeEnd, .plotWidth, .plotHeight]

theorem mem_all (p : Parameter) : p ∈ all := by cases p <;> decide

/-- The name on the command line, without the two dashes. -/
def name : Parameter → String
  | .period => "period"
  | .amplitude => "amplitude"
  | .shift => "shift"
  | .color => "color"
  | .lineWidth => "lineWidth"
  | .xRangeStart => "xRangeStart"
  | .xRangeEnd => "xRangeEnd"
  | .yRangeStart => "yRangeStart"
  | .yRangeEnd => "yRangeEnd"
  | .plotWidth => "plotWidth"
  | .plotHeight => "plotHeight"

/-- The keyword for callers that set the parameter by key. -/
def key : Parameter → String
  | .period => "period"
  | .amplitude => "amplitude"
  | .shift => "shift"
  | .color => "color"
  | .lineWidth => "line_width"
  | .xRangeStart => "x_range_start"
  | .xRangeEnd => "x_range_end"
  | .yRangeStart => "y_range_start"
  | .yRangeEnd => "y_range_end"
  | .plotWidth => "plot_width"
  | .plotHeight => "plot_height"

/-- What the parameter stores. -/
abbrev kind : Parameter → Kind
  | .color | .plotWidth | .plotHeight => .text
  | .lineWidth => .integer
  | _ => .real

/-- The type of the stored values of a parameter. -/
abbrev Carrier (p : Parameter) : Type := p.kind.Carrier

def ofName? (name : Wide) : Option Parameter := all.find? fun p => p.name = name

def ofKey? (key : Wide) : Option Parameter := all.find? fun p => p.key = key

end Parameter

end WavePlot
