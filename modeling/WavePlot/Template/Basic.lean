import WavePlot.Settings.Basic

/-!
# Script templates

A template is text with placeholders: a name in capitals between braces, one for each parameter
and one for the output file. Filling a template replaces every placeholder in one pass from left
to right; what has been put in is not looked at again, and all other text is kept.

`segments` is the view behind it: the template as a sequence of plain characters and slots.
-/

namespace WavePlot

/-- What a template has a slot for. -/
inductive Placeholder where
  | setting (p : Parameter)
  | outputName
  deriving DecidableEq, Repr

namespace Placeholder

/-- All placeholders: those of the parameters in their order, then the output file. -/
def all : List Placeholder := Parameter.all.map .setting ++ [.outputName]

theorem mem_all (h : Placeholder) : h ∈ all := by
  cases h with
  | setting p => exact List.mem_append_left _ (List.mem_map.2 ⟨p, p.mem_all, rfl⟩)
  | outputName => exact List.mem_append_right _ (List.mem_singleton.2 rfl)

/-- The name between the braces. -/
def name : Placeholder → String
  | .setting .period => "PERIOD"
  | .setting .amplitude => "AMPLITUDE"
  | .setting .shift => "SHIFT"
  | .setting .color => "COLOR"
  | .setting .lineWidth => "LINE_WIDTH"
  | .setting .xRangeStart => "X_RANGE_START"
  | .setting .xRangeEnd => "X_RANGE_END"
  | .setting .yRangeStart => "Y_RANGE_START"
  | .setting .yRangeEnd => "Y_RANGE_END"
  | .setting .plotWidth => "PLOT_WIDTH"
  | .setting .plotHeight => "PLOT_HEIGHT"
  | .outputName => "OUTPUT_FILE_NAME"

/-- The placeholder as it stands in a template. -/
def marker (h : Placeholder) : Wide := .char '{' :: h.name ++ [.char '}']

end Placeholder

namespace Template

inductive Segment where
  | plain (c : CodePoint)
  | slot (h : Placeholder)
  deriving DecidableEq, Repr

/-- The first of some placeholders that stands at the start of a text. -/
def startingAt? (among : List Placeholder) (text : Wide) : Option Placeholder :=
  among.find? fun h => h.marker.isPrefixOf text

/-- The pieces of a template after its first `skipped` characters, with the placeholders tried in
the given order. -/
def segmentsAfter (among : List Placeholder) : Nat → Wide → List Segment
  | _, [] => []
  | skipped + 1, _ :: rest => segmentsAfter among skipped rest
  | 0, c :: rest =>
    match startingAt? among (c :: rest) with
    | some h => .slot h :: segmentsAfter among (h.marker.length - 1) rest
    | none => .plain c :: segmentsAfter among 0 rest

/-- The pieces of a template, with the placeholders tried in the given order. -/
def segmentsAmong (among : List Placeholder) (template : Wide) : List Segment :=
  segmentsAfter among 0 template

def segments (template : Wide) : List Segment := segmentsAmong Placeholder.all template

/-- What a piece becomes when each placeholder stands for a text. -/
def Segment.fill (texts : Placeholder → Wide) : Segment → Wide
  | .plain c => [c]
  | .slot h => texts h

/-- The template with every placeholder replaced by its text. Each text is looked up in a table, so
that it is made once however often its placeholder occurs. -/
def fill (texts : Placeholder → Wide) (template : Wide) : Wide :=
  let table := Placeholder.all.map fun h => (h, texts h)
  let text := fun h => (table.lookup h).getD []
  (segments template).flatMap (Segment.fill text)

/-- The table holds the text of every placeholder it was made for. -/
theorem lookup_texts {texts : Placeholder → Wide} {h : Placeholder} {hs : List Placeholder}
    (mem : h ∈ hs) : (hs.map fun h => (h, texts h)).lookup h = some (texts h) := by
  induction hs with
  | nil => cases mem
  | cons first rest ih =>
    rw [List.map_cons, List.lookup_cons]
    by_cases same : h = first
    · simp [same]
    · rw [beq_false_of_ne same]
      exact ih ((List.mem_cons.1 mem).resolve_left same)

/-- Filling replaces the slots among the template's segments and keeps the plain characters. -/
theorem fill_eq (texts : Placeholder → Wide) (template : Wide) :
    fill texts template = (segments template).flatMap (Segment.fill texts) := by
  have table : (fun h => ((Placeholder.all.map fun h => (h, texts h)).lookup h).getD []) = texts :=
    funext fun h => by rw [lookup_texts h.mem_all, Option.getD_some]
  unfold fill
  simp only [table]

end Template

namespace Settings

/-- The text that each placeholder stands for. The line width is shown as a numeral, which the
digit limit could forbid. -/
def placeholderTexts (s : Settings) (output : Wide) : Except SettingError (Placeholder → Wide) :=
  if Decimal.hasNumeral s.lineWidth then
    .ok fun
      | .setting p => (s.value p).shown
      | .outputName => output
  else .error .pastDigitLimit

def render (s : Settings) (template output : Wide) : Except SettingError Wide :=
  (s.placeholderTexts output).map fun texts => Template.fill texts template

end Settings

end WavePlot
