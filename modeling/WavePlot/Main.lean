import WavePlot.Run

/-!
# The command line program

The outer layer: it reads the template file, if one is asked for, runs the pure program and
writes what the report holds. It cannot start programs, so a plot that needs one ends with a
system error; the script itself is available with `--script-only`.
-/

namespace WavePlot

/-- The template path that a command line asks for. -/
def templatePath? (words : List Wide) : Option Wide :=
  match CommandLine.read words with
  | .ok invocation => invocation.template.join
  | .error _ => none

/-- What reading a path gives when the file at one path has been read before. -/
def readerOf (known : Wide) (octets : Except SystemError (List UInt8)) : Template.Reader :=
  fun path => if path = known then octets else .error (.noSuchFile path)

/-- The system error for a failed attempt to read the file at a path. -/
def readError (path : Wide) : IO.Error → SystemError
  | .noFileOrDirectory .. => .noSuchFile path
  | .permissionDenied .. => .numbered 13 path
  | .inappropriateType .. => .isDirectory path
  | e => .described (toString e)

/-- The octets of the file at a path. -/
def readOctets (path : Wide) : IO (Except SystemError (List UInt8)) := do
  match path.string? with
  | none => return .error (.noSuchFile path)
  | some name =>
    try
      let octets ← IO.FS.readBinFile name
      return .ok octets.toList
    catch e =>
      return .error (readError path e)

/-- The host of this program: one file that has been read, and no way to start programs. -/
def hostOf (read : Template.Reader) : Host where
  read := read
  storage := .ample "0"
  launch := fun program _ => .error (.numbered 38 program)

/-- The exit code of an ending. -/
def Ending.exitCode : Ending → UInt32
  | .status code | .usage code => code.toUInt32
  | .fault _ => 1

/-- What a stream is given of a text: a surrogate has no octets and is written as an escape. -/
def streamText (text : Wide) : String :=
  String.ofList <| text.flatMap fun
    | .char c => [c]
    | .surrogate place => '\\' :: 'u' :: Text.fixedHex 4 (surrogateNumber place)

/-- Writes a report and gives its exit code. -/
def writeReport (r : Report) : IO UInt32 := do
  IO.print (streamText r.output)
  IO.eprint (streamText r.errors)
  match r.ending with
  | .fault f => IO.eprintln (streamText f.message)
  | _ => pure ()
  return r.ending.exitCode

end WavePlot

/-- Runs the program on the words of its command line. -/
def main (arguments : List String) : IO UInt32 := do
  let words := arguments.map WavePlot.Wide.ofString
  match WavePlot.templatePath? words with
  | some path =>
    let octets ← WavePlot.readOctets path
    WavePlot.writeReport (WavePlot.run words (WavePlot.hostOf (WavePlot.readerOf path octets)))
  | none =>
    WavePlot.writeReport
      (WavePlot.run words (WavePlot.hostOf fun path => .error (.noSuchFile path)))
