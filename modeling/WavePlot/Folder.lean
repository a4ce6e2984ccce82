import WavePlot.SystemError
import WavePlot.Text.Encodable

/-!
# A folder of files

A folder holds files and directories by their paths from it. Reading a path walks it name by
name from the folder, so each step finds a directory to go on from or ends with an error: a
missing name, a name that is too long, or a file with more path behind it.
-/

namespace WavePlot

/-- What stands in a folder at a path: the octets of a file, or a directory. -/
inductive Node where
  | file (octets : List UInt8)
  | directory

/-- A folder: what stands at which path from it. -/
structure Folder where
  nodes : List (List Wide × Node)

/-- A place that a path can lead to: one inside the folder, or a directory around it. -/
inductive Place where
  | inside (names : List Wide)
  | around

namespace Folder

/-- The names of a path, as the slashes divide it. -/
def names : Wide → List Wide
  | [] => [[]]
  | c :: rest =>
    if c = .char '/' then [] :: names rest
    else
      match names rest with
      | [] => [[c]]
      | first :: others => (c :: first) :: others

/-- The most octets that one name of a path may have. -/
def nameLimit : Nat := 255

/-- The number of octets at which a whole path is too long. -/
def pathLimit : Nat := 4096

/-- What stands at a path of names; a directory also stands above everything in it. -/
def node? (f : Folder) (path : List Wide) : Option Node :=
  if path.isEmpty then some .directory
  else
    match f.nodes.lookup path with
    | some node => some node
    | none => if f.nodes.any fun (other, _) => path.isPrefixOf other then some .directory else none

/-- What stands at a place. Nothing but directories is known of what is around the folder. -/
def look (f : Folder) : Place → Option Node
  | .inside path => f.node? path
  | .around => some .directory

/-- The place that a name leads to from a directory. -/
def next (f : Folder) (subject : Wide) (place : Place) (name : Wide) :
    Except SystemError Place :=
  if name = "" || name = "." then .ok place
  else if name = ".." then
    match place with
    | .inside (first :: rest) => .ok (.inside (first :: rest).dropLast)
    | _ => .ok .around
  else if nameLimit < Text.octetCount name then .error (.nameTooLong subject)
  else
    match place with
    | .around => .error (.noSuchFile subject)
    | .inside path =>
      if (f.node? (path ++ [name])).isSome then .ok (.inside (path ++ [name]))
      else .error (.noSuchFile subject)

/-- What stands at the end of the names, walked from a place. -/
def walk (f : Folder) (subject : Wide) (place : Place) : List Wide → Except SystemError Node
  | [] =>
    match f.look place with
    | some node => .ok node
    | none => .error (.noSuchFile subject)
  | name :: rest =>
    match f.look place with
    | some (.file _) => .error (.notDirectory subject)
    | _ => do
      let place ← f.next subject place name
      f.walk subject place rest

def read (f : Folder) (path : Wide) : Except SystemError (List UInt8) :=
  if path = "" then .error (.noSuchFile path)
  else if pathLimit ≤ Text.octetCount path then .error (.nameTooLong path)
  else
    let start := if path.head? = some (.char '/') then Place.around else .inside []
    match f.walk path start (names path) with
    | .ok (.file octets) => .ok octets
    | .ok .directory => .error (.isDirectory path)
    | .error e => .error e

end Folder

end WavePlot
