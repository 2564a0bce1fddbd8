import SchemaDiagram.FileTree
import SchemaDiagram.Program

namespace SchemaDiagram

/-- What a program finds around it: a file system, and the directory that it runs in. The standard input can
be read once, under whatever name, and what is written to the standard output comes before what the program
prints at its end. -/
structure Surroundings where
  tree : FileTree
  directory : FilePlace
  /-- What can still be read from the standard input. -/
  input : ByteArray := .empty
  printed : String := ""
  deriving Inhabited

namespace Surroundings

def locate? (s : Surroundings) (path : String) : Option FilePlace :=
  s.tree.locate? s.directory path

def device? (s : Surroundings) (place : FilePlace) : Option Device :=
  match s.tree.nodes.get? place with
  | some (.device device) => some device
  | _ => none

def readInput (s : Surroundings) : ByteArray × Surroundings :=
  (s.input, { s with input := .empty })

def readFile (s : Surroundings) (path : String) : Option ByteArray × Surroundings :=
  match s.locate? path with
  | none => (none, s)
  | some place =>
    if s.device? place = some .standardInput then (some s.readInput.1, s.readInput.2)
    else (s.tree.read? place, s)

/-- Writes a text to the file at a path, and tells whether that went well. -/
def writeFile (s : Surroundings) (path : String) (text : String) : Bool × Surroundings :=
  match s.locate? path with
  | none => (false, s)
  | some place =>
    if s.device? place = some .standardOutput then (true, { s with printed := s.printed ++ text })
    else
      match s.tree.write? place text.toUTF8 with
      | some tree => (true, { s with tree })
      | none => (false, s)

def host : Host (StateM Surroundings) where
  readFile path := modifyGet (·.readFile path)
  readInput := modifyGet readInput
  writeFile path text := modifyGet (·.writeFile path text)

/-- Runs the program on the words of a command line: how it ends, with all that it has printed, and the
surroundings then. -/
def run (s : Surroundings) (words : List String) : Outcome × Surroundings :=
  let (outcome, after) := (runProgram host words).run s
  ({ outcome with output := after.printed ++ outcome.output }, after)

end Surroundings

end SchemaDiagram
