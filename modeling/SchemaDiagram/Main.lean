import SchemaDiagram.Program

namespace SchemaDiagram

def processHost : Host IO where
  readFile path :=
    try return some (← IO.FS.readBinFile path)
    catch _ => return none
  readInput := do (← IO.getStdin).readBinToEnd
  writeFile path text :=
    try
      IO.FS.writeFile path text
      return true
    catch _ => return false

end SchemaDiagram

/-- Runs the program on the words of the command line. -/
def main (words : List String) : IO UInt32 := do
  let outcome ← SchemaDiagram.runProgram SchemaDiagram.processHost words
  IO.print outcome.output
  (← IO.getStdout).flush
  if let some complaint := outcome.complaint then
    IO.eprintln complaint
  return outcome.exitCode.toUInt32
