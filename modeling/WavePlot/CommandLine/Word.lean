import WavePlot.Settings.Assignment

/-!
# Words of the command line

Before the separator `--` each word is classified by its own text. An option is recognised by its
exact name, with or without a value attached behind an equals sign; `-h` may also carry further
letters. A word that merely looks like an option is unknown, unless it looks like a negative
number or has a space in it: then it is an operand, as is everything else.
-/

namespace WavePlot.CommandLine

/-- An option that takes a value. -/
inductive Valued where
  | template
  | gnuplot
  deriving DecidableEq, Repr

/-- An option that takes no value. -/
inductive Flag where
  | scriptOnly
  | showConfig
  deriving DecidableEq, Repr

def Valued.name : Valued → String
  | .template => "--template"
  | .gnuplot => "--gnuplot"

def Flag.name : Flag → String
  | .scriptOnly => "--script-only"
  | .showConfig => "--show-config"

def helpName : String := "-h/--help"

/-- An option as its exact name gives it. -/
inductive OptionName where
  | shortHelp
  | longHelp
  | valued (o : Valued)
  | flag (f : Flag)
  deriving DecidableEq, Repr

def OptionName.ofText? (name : Wide) : Option OptionName :=
  if name = "-h" then some .shortHelp
  else if name = "--help" then some .longHelp
  else if name = Valued.template.name then some (.valued .template)
  else if name = Valued.gnuplot.name then some (.valued .gnuplot)
  else if name = Flag.scriptOnly.name then some (.flag .scriptOnly)
  else if name = Flag.showConfig.name then some (.flag .showConfig)
  else none

/-- What a word is by its text. -/
inductive Word where
  | operand
  /-- It looks like an option and is none. -/
  | unknown
  | help
  | flag (f : Flag)
  | valued (o : Valued) (attached : Option Wide)
  /-- An option that takes no value has one attached. -/
  | surplus (option : String) (text : Wide)
  deriving DecidableEq, Repr

/-- What letters attached to `-h` are: more of the same letter ask for help, and the rest from
the first other letter on is surplus. -/
def Word.ofHelpLetters : Wide → Word
  | [.char 'h'] => .help
  | .char 'h' :: second :: rest => ofHelpLetters (second :: rest)
  | letters => .surplus helpName letters

/-- The word that is an option's name alone. -/
def OptionName.alone : OptionName → Word
  | .shortHelp | .longHelp => .help
  | .valued o => .valued o none
  | .flag f => .flag f

/-- The word that is an option's name with a value behind an equals sign. -/
def OptionName.attach (value : Wide) : OptionName → Word
  | .shortHelp => .ofHelpLetters value
  | .longHelp => .surplus helpName value
  | .valued o => .valued o (some value)
  | .flag f => .surplus f.name value

def dropFinalNewline : Wide → Wide
  | [] => []
  | [.char '\n'] => []
  | c :: rest => c :: dropFinalNewline rest

def isDecimalDigit : CodePoint → Bool := CodePoint.isCharWith Text.isDecimalDigit

/-- Whether the word is a minus sign with digits behind it, of any script, and at most one point,
which has a digit behind it; a line feed at the end does not matter. -/
def looksNegative (word : Wide) : Bool :=
  match dropFinalNewline word with
  | .char '-' :: body =>
    match body.dropWhile isDecimalDigit with
    | [] => !body.isEmpty
    | .char '.' :: fraction => !fraction.isEmpty && fraction.all isDecimalDigit
    | _ => false
  | _ => false

/-- A word with a dash in front that is no option's name, with or without a value. -/
def Word.ofDashed (word : Wide) : Word :=
  match word with
  | .char '-' :: .char 'h' :: letters => .ofHelpLetters letters
  | word => if looksNegative word || word.contains (.char ' ') then .operand else .unknown

def Word.ofText (word : Wide) : Word :=
  if word.head? != some (.char '-') || word = "-" then .operand
  else
    match OptionName.ofText? word with
    | some option => option.alone
    | none =>
      match Assignment.splitWord word with
      | (name, some value) =>
        match OptionName.ofText? name with
        | some option => option.attach value
        | none => .ofDashed word
      | (_, none) => .ofDashed word

end WavePlot.CommandLine
