import SchemaDiagram.Token

namespace SchemaDiagram

/-- A line of a table body, cut into the field's name and the text that defines it. -/
structure FieldLine where
  name : String
  definition : String
  deriving DecidableEq, Repr, Inhabited

/-- A named block with its lines in order. -/
structure TableBlock where
  name : String
  lines : List FieldLine
  deriving DecidableEq, Repr, Inhabited

/-- The word that every table block begins with. -/
def tableKeyword : String := "Table"

/-- Reads one line of a body. The name ends at the first white space; the definition is all that
follows that one character. A blank line declares nothing. -/
def FieldLine.ofText? (line : List Char) : Option FieldLine :=
  match trim line with
  | [] => none
  | text@(_ :: _) =>
    some {
      name := String.ofList (text.takeWhile fun c => !isBlank c)
      definition := String.ofList ((text.dropWhile fun c => !isBlank c).drop 1) }

def FieldLine.ofBody (body : List Char) : List FieldLine :=
  (splitWhere (· == '\n') body).filterMap FieldLine.ofText?

def PlacedToken.isTableKeyword (t : PlacedToken) : Bool :=
  t.token == .word tableKeyword

/-- The first word that an opening brace follows, where the body after the brace begins, and the
tokens of the body and beyond. -/
def blockHead? : List PlacedToken → Option (String × Nat × List PlacedToken)
  | ⟨.word name, _, _⟩ :: ⟨.openBrace, _, stop⟩ :: rest => some (name, stop, rest)
  | _ :: rest => blockHead? rest
  | [] => none

/-- The block that a run of tokens between two keywords declares. The body ends at the first
closing brace, for braces do not nest. -/
def TableBlock.ofTokens? (source : List Char) (tokens : List PlacedToken) : Option TableBlock := do
  let (name, bodyStart, rest) ← blockHead? tokens
  let close ← rest.find? (·.token == .closeBrace)
  let body ← byteSlice? source bodyStart close.start
  return { name, lines := FieldLine.ofBody body }

/-- The blocks of a source text, in order. Reading never fails: what does not have the shape of a block is
passed over. -/
def parseBlocks (source : String) : List TableBlock :=
  (splitWhere PlacedToken.isTableKeyword (tokenize source).dropLast).filterMap
    (TableBlock.ofTokens? source.toList)

end SchemaDiagram
