import WavePlot.CommandLine.Help
import WavePlot.CommandLine.Invocation
import WavePlot.Gnuplot
import WavePlot.Template.Basic
import WavePlot.Template.Load

/-!
# A run of the program

A run reads its command line, settles the parameters, loads and fills the template, and prints
the script or hands it to gnuplot. What it needs of its surroundings is a `Host`; what can be
seen of it is a `Report`. Parameters are settled before anything is read or started.
-/

namespace WavePlot

/-- The surroundings of a run: how files are read, how scratch files are stored, and what starting
a program does. -/
structure Host where
  read : Template.Reader
  storage : Gnuplot.Storage
  launch : Gnuplot.Launcher

/-- Why there is no plot and no script. -/
inductive Failure where
  | setting (e : SettingError)
  | template (e : Template.LoadError)
  | plot (e : Gnuplot.Failure)
  /-- A path is needed whose value was dropped from the command line. -/
  | droppedPath

def droppedValueText : String := "expected str, bytes or os.PathLike object, not list"

def Gnuplot.Failure.message : Gnuplot.Failure → String
  | .system e => e.message
  | .unencodable e => e.message
  | .noProgram => droppedValueText

namespace Failure

def message : Failure → Wide
  | .setting e => e.message
  | .template e => e.message
  | .plot e => e.message
  | .droppedPath => droppedValueText

/-- What a failure is announced as; one that nobody expects is not announced. -/
def heading? : Failure → Option String
  | .setting e => if e.isParameterMistake then some "Config error: " else none
  | .template e => if e.isMissingResource then some "Template error: " else none
  | .plot (.system _) => some "File error: "
  | .plot _ | .droppedPath => none

end Failure

inductive Ending where
  /-- With a status, after the plot was tried. -/
  | status (code : Nat)
  /-- With a status, while the command line was being read. -/
  | usage (code : Nat)
  /-- By a failure that nobody expects. -/
  | fault (f : Failure)

/-- What can be seen of a run: how it ends, what it writes to standard output and to standard
error, which programs it starts, and which scratch files it leaves behind. -/
structure Report where
  ending : Ending
  output : Wide := ""
  errors : Wide := ""
  launches : List Gnuplot.Launch := []
  left : Gnuplot.Scratch := []

namespace Report

def fail (r : Report) (f : Failure) : Report :=
  match f.heading? with
  | some heading =>
    { r with ending := .status 2, errors := r.errors ++ heading ++ f.message ++ "\n" }
  | none => { r with ending := .fault f }

def ofUsageError (e : CommandLine.UsageError) : Report where
  ending := .usage 2
  errors := CommandLine.usageText ++ CommandLine.programName ++ ": error: " ++ e.message ++ "\n"

def ofStop : CommandLine.Stop → Report
  | .help => { ending := .usage 0, output := CommandLine.helpText }
  | .mistake e => ofUsageError e

end Report

/-- A line for each parameter. The settings of a run have no value past the digit limit. -/
def Settings.listing (s : Settings) : Wide :=
  s.entries.flatMap fun (p, v) => p.name ++ ": " ++ v.shown ++ "\n"

namespace CommandLine.Invocation

def loadTemplate (i : Invocation) (read : Template.Reader) : Except Failure String :=
  match i.template with
  | some none => .error .droppedPath
  | some (some path) => (Template.load read (some path)).mapError .template
  | none => (Template.load read none).mapError .template

/-- The script that the invocation amounts to under its settings. -/
def script (i : Invocation) (s : Settings) (read : Template.Reader) : Except Failure Wide := do
  let template ← i.loadTemplate read
  (s.render template i.output).mapError .setting

/-- The report so far when the parameters are settled: they are listed if that was asked for, out
of the way of a script on standard output. -/
def begin (i : Invocation) (s : Settings) : Report :=
  let listing : Wide := if i.showConfig then s.listing else ""
  if i.scriptOnly then { ending := .status 0, errors := listing }
  else { ending := .status 0, output := listing }

/-- The report after the script was handed to gnuplot. -/
def plot (i : Invocation) (host : Host) (r : Report) (script : Wide) : Report :=
  let handover := Gnuplot.run host.storage host.launch i.gnuplot script
  let r := { r with launches := handover.launches, left := handover.left }
  match handover.result with
  | .error e => r.fail (.plot e)
  | .ok 0 => { r with output := r.output ++ "Generated the plot in " ++ i.output ++ "\n" }
  | .ok status =>
    { r with
      ending := .status 1
      errors := r.errors ++ "warning: gnuplot seems to fail, return status: " ++ toString status
        ++ "\n" }

def run (i : Invocation) (host : Host) : Report :=
  match Settings.ofWords i.leftovers with
  | .error e => Report.fail { ending := .status 0 } (.setting e)
  | .ok s =>
    let r := i.begin s
    match i.script s host.read with
    | .error f => r.fail f
    | .ok script =>
      if i.scriptOnly then { r with output := r.output ++ script } else i.plot host r script

end CommandLine.Invocation

/-- The report of the program on the words of a command line. -/
def run (words : List Wide) (host : Host) : Report :=
  match CommandLine.read words with
  | .error stop => .ofStop stop
  | .ok invocation => invocation.run host

end WavePlot
