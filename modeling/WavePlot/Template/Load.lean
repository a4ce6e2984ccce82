import WavePlot.SystemError
import WavePlot.Template.Builtin
import WavePlot.Text.Encodable
import WavePlot.Text.Newline
import WavePlot.Text.Utf8

/-!
# Loading a template

A template comes from a file, read as strict UTF-8 text with its line ends unified, or is the
built-in one. How octets are read from a path is a parameter.
-/

namespace WavePlot.Template

/-- How the octets of the file at a path are read. -/
abbrev Reader := Wide → Except SystemError (List UInt8)

inductive LoadError where
  | unreadable (path : Wide) (cause : SystemError)
  | undecodable (path : Wide) (cause : Text.Utf8.Failure)
  /-- The path has a surrogate that stands for no octet, so it is no path at all. -/
  | unencodable (cause : Text.EncodeFailure)
  /-- The path has a NUL character, so it is no path at all. -/
  | nulInPath

namespace LoadError

def message : LoadError → Wide
  | .unreadable path cause =>
    "Could not read the gnuplot template " ++ path ++ ": " ++ cause.message
  | .undecodable path cause =>
    "Could not read the gnuplot template " ++ path ++ ": " ++ cause.message
  | .unencodable cause => cause.message
  | .nulInPath => "embedded null byte"

/-- Whether the error is about a template that is missing or damaged. -/
def isMissingResource : LoadError → Bool
  | .unencodable _ | .nulInPath => false
  | _ => true

end LoadError

/-- The text of octets with its line ends unified. -/
def ofOctets (octets : List UInt8) : Except Text.Utf8.Failure String :=
  (Text.Utf8.decode octets).map fun text => String.ofList (Text.unifyNewlines text)

def loadFile (read : Reader) (path : Wide) : Except LoadError String :=
  match Text.nameFailure? path with
  | some cause => .error (.unencodable cause)
  | none =>
    if path.contains (.char '\x00') then .error .nulInPath
    else
      match read path with
      | .error cause => .error (.unreadable path cause)
      | .ok octets =>
        match ofOctets octets with
        | .error cause => .error (.undecodable path cause)
        | .ok text => .ok text

/-- The template in the file at a path; without a path, the built-in one. -/
def load (read : Reader) : Option Wide → Except LoadError String
  | none => .ok builtin
  | some path => loadFile read path

end WavePlot.Template
