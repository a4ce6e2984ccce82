import WavePlot.SystemError
import WavePlot.Text.Encodable

/-!
# Handing a script to gnuplot

A scratch file is created, the script is written to it, gnuplot is started on the file and waited
for, and the file is erased whatever came of it. How scratch files can be created and written, and
how a program behaves when it is started on a script, are parameters; starting a program gives an
exit status or a system error.
-/

namespace WavePlot.Gnuplot

/-- What comes of starting a program, by its name, on a script. -/
abbrev Launcher := (program script : Wide) → Except SystemError Int

/-- What comes of creating a scratch file, which is the stem that makes its name unique, and of
writing a text to it. -/
structure Storage where
  create : Except SystemError String
  write : Wide → Except SystemError Unit

/-- Scratch files that can always be created and written. -/
def Storage.ample (stem : String) : Storage := { create := .ok stem, write := fun _ => .ok () }

/-- The scratch files that exist, by their paths. -/
abbrev Scratch := List (String × Wide)

namespace Scratch

/-- Writes a file, in place of one that stood at the path. -/
def write (files : Scratch) (path : String) (text : Wide) : Scratch :=
  (path, text) :: files.filter (·.1 != path)

/-- The content of a file; one that does not exist has none. -/
def contents (files : Scratch) (path : String) : Wide := (files.lookup path).getD ""

def erase (files : Scratch) (path : String) : Scratch := files.filter (·.1 != path)

end Scratch

def scratchDirectory : String := "/tmp"

/-- The path of a scratch file, made unique by its stem. -/
def scratchPath (stem : String) : String :=
  scratchDirectory ++ "/triangle-wave-" ++ stem ++ ".plt"

/-- One start of a program: what it was started with. -/
structure Launch where
  program : Wide
  path : String
  script : Wide
  deriving DecidableEq, Repr

/-- Why there is no exit status. -/
inductive Failure where
  | system (e : SystemError)
  /-- The script cannot be encoded for the scratch file. -/
  | unencodable (e : Text.EncodeFailure)
  /-- The program's name was dropped from the command line. -/
  | noProgram
  deriving DecidableEq, Repr

/-- What comes of handing over a script: the programs started, the scratch files left behind, and
the exit status. -/
structure Handover where
  launches : List Launch
  left : Scratch
  result : Except Failure Int

/-- The scratch files after the script has been written to the one at the path. -/
def store (storage : Storage) (files : Scratch) (path : String) (script : Wide) :
    Except Failure Scratch :=
  match Text.encodeFailure? script with
  | some e => .error (.unencodable e)
  | none =>
    match storage.write script with
    | .error e => .error (.system e)
    | .ok () => .ok (files.write path script)

/-- Starts the program, if there is one, on the script by way of a scratch file. -/
def run (storage : Storage) (launch : Launcher) (program? : Option Wide) (script : Wide) :
    Handover :=
  match storage.create with
  | .error e => { launches := [], left := [], result := .error (.system e) }
  | .ok stem =>
    let path := scratchPath stem
    let created : Scratch := Scratch.write [] path ""
    match store storage created path script with
    | .error e => { launches := [], left := created.erase path, result := .error e }
    | .ok files =>
      match program? with
      | none => { launches := [], left := files.erase path, result := .error .noProgram }
      | some program =>
        let script := files.contents path
        { launches := [{ program, path, script }]
          left := files.erase path
          result := (launch program script).mapError .system }

end WavePlot.Gnuplot
