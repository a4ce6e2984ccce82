import WavePlot.CommandLine.Word

/-!
# Reading the command line

The words are grouped into items: an option that takes a value has it attached or in the operand
right behind it, and all words behind the separator are operands. The items are then taken one
by one from the left. The first operand is the output; later operands and unknown options are
leftovers, kept in their order for the plot parameters. The separator is left over as well,
unless it stands right before or right behind the output. The first mistake or request for help
ends the reading.
-/

namespace WavePlot.CommandLine

/-- One or two words that belong together. -/
inductive Item where
  | operand (word : Wide)
  | separator
  | unknown (word : Wide)
  | help
  | flag (f : Flag)
  /-- An option with its value; the value `--` is dropped and leaves nothing. -/
  | value (o : Valued) (value : Option Wide)
  | lacking (o : Valued)
  | surplus (option : String) (text : Wide)
  deriving DecidableEq, Repr

/-- The word that ends the options. -/
def separator : Wide := "--"

/-- Whether the word can be the value of the option before it. -/
def isOperand (word : Wide) : Bool := word != separator && Word.ofText word == .operand

def attachedValue (text : Wide) : Option Wide := if text = separator then none else some text

/-- The items that words form. -/
def items : List Wide → List Item
  | [] => []
  | word :: rest =>
    if word = separator then .separator :: rest.map .operand
    else
      match Word.ofText word with
      | .operand => .operand word :: items rest
      | .unknown => .unknown word :: items rest
      | .help => .help :: items rest
      | .flag f => .flag f :: items rest
      | .surplus option text => .surplus option text :: items rest
      | .valued o (some text) => .value o (attachedValue text) :: items rest
      | .valued o none =>
        match rest with
        | [] => [.lacking o]
        | next :: others =>
          if isOperand next then .value o (some next) :: items others
          else .lacking o :: items (next :: others)

inductive UsageError where
  | expectedArgument (o : Valued)
  | surplusArgument (option : String) (text : Wide)
  | missingOutput
  deriving DecidableEq, Repr

def UsageError.message : UsageError → String
  | .expectedArgument o => "argument " ++ o.name ++ ": expected one argument"
  | .surplusArgument option text =>
    "argument " ++ option ++ ": ignored explicit argument " ++ Text.quote text
  | .missingOutput => "the following arguments are required: output"

inductive Stop where
  | help
  | mistake (e : UsageError)
  deriving DecidableEq, Repr

/-- What has been read so far. -/
structure Progress where
  output : Option Wide := none
  /-- Whether the output was the last item. -/
  outputLast : Bool := false
  template : Option (Option Wide) := none
  gnuplot : Option Wide := some "gnuplot"
  scriptOnly : Bool := false
  showConfig : Bool := false
  leftovers : List Wide := []
  deriving DecidableEq, Repr

namespace Progress

def leave (p : Progress) (word : Wide) : Progress :=
  { p with outputLast := false, leftovers := p.leftovers ++ [word] }

def setValue (p : Progress) (value : Option Wide) : Valued → Progress
  | .template => { p with outputLast := false, template := some value }
  | .gnuplot => { p with outputLast := false, gnuplot := value }

def setFlag (p : Progress) : Flag → Progress
  | .scriptOnly => { p with outputLast := false, scriptOnly := true }
  | .showConfig => { p with outputLast := false, showConfig := true }

def step (p : Progress) : Item → Except Stop Progress
  | .operand word =>
    if p.output.isNone then .ok { p with output := some word, outputLast := true }
    else .ok (p.leave word)
  | .separator =>
    if p.output.isNone || p.outputLast then .ok { p with outputLast := false }
    else .ok (p.leave separator)
  | .unknown word => .ok (p.leave word)
  | .help => .error .help
  | .flag f => .ok (p.setFlag f)
  | .value o value => .ok (p.setValue value o)
  | .lacking o => .error (.mistake (.expectedArgument o))
  | .surplus option text => .error (.mistake (.surplusArgument option text))

end Progress

/-- A command line that has been read. -/
structure Invocation where
  output : Wide
  /-- The path of the template, if one was asked for; the inner `none` is a value that was
  dropped. -/
  template : Option (Option Wide)
  /-- The program that plots; `none` is a value that was dropped. -/
  gnuplot : Option Wide
  scriptOnly : Bool
  showConfig : Bool
  leftovers : List Wide
  deriving DecidableEq, Repr

/-- The invocation that a command line without early end amounts to. -/
def Progress.finish (p : Progress) : Except Stop Invocation :=
  match p.output with
  | none => .error (.mistake .missingOutput)
  | some output => .ok { p with output }

def read (words : List Wide) : Except Stop Invocation := do
  let progress ← (items words).foldlM Progress.step {}
  progress.finish

end WavePlot.CommandLine
