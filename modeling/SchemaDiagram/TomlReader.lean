import SchemaDiagram.TomlNumber

namespace SchemaDiagram

namespace Toml

/-- How deep arrays and inline tables may be nested. -/
def nestingLimit : Nat := 79

mutual

/-- Reads a value and gives the text after it. The first number bounds the recursion, the second one is
how many arrays and inline tables may still be entered. -/
def readValue? : Nat → Nat → List Char → Option (TomlItem × List Char)
  | 0, _, _ => none
  | fuel + 1, depth, text =>
    match text with
    | '[' :: rest =>
      if depth = 0 then none
      else match skipFiller false rest with
        | ']' :: rest => some (.array [], rest)
        | rest => do
          let (items, rest) ← readItems? fuel (depth - 1) rest
          return (.array items, rest)
    | '{' :: rest =>
      if depth = 0 then none
      else match skipSpace rest with
        | '}' :: rest => some (.inlineTable [], rest)
        | rest => do
          let (entries, rest) ← readEntries? fuel (depth - 1) [] rest
          return (.inlineTable entries, rest)
    | 't' :: 'r' :: 'u' :: 'e' :: rest => some (.boolean true, rest)
    | 'f' :: 'a' :: 'l' :: 's' :: 'e' :: rest => some (.boolean false, rest)
    | c :: _ =>
      if c = '"' ∨ c = '\'' then
        (readString? text).map fun (s, rest) => (.string (String.ofList s), rest)
      else readNumeric? text
    | [] => none

/-- Reads the items of an array, of which there is at least one, and its end. A comma may stand after the
last item. -/
def readItems? : Nat → Nat → List Char → Option (List TomlItem × List Char)
  | 0, _, _ => none
  | fuel + 1, depth, text => do
    let (item, rest) ← readValue? fuel depth text
    match skipFiller false rest with
    | ']' :: rest => return ([item], rest)
    | ',' :: rest =>
      match skipFiller false rest with
      | ']' :: rest => return ([item], rest)
      | rest =>
        let (items, rest) ← readItems? fuel depth rest
        return (item :: items, rest)
    | _ => none

/-- Reads the entries of an inline table, of which there is at least one, and its end, and adds them to
those read before. -/
def readEntries? : Nat → Nat → TomlEntries → List Char → Option (TomlEntries × List Char)
  | 0, _, _, _ => none
  | fuel + 1, depth, entries, text => do
    let (path, key, rest) ← readKey? text
    let rest ← skipMark? '=' rest
    let (item, rest) ← readValue? fuel depth (skipSpace rest)
    let entries ← entries.add? path key item .headed
    match skipSpace rest with
    | '}' :: rest => return (entries, rest)
    | ',' :: rest => readEntries? fuel depth entries rest
    | _ => none

end

/-- A document read in part: what it holds so far, and the header under which its lines stand. -/
structure Document where
  entries : TomlEntries := []
  header : List String := []
  deriving Inhabited

namespace Document

/-- Adds what a line gives to the table that the last header opened. -/
def add? (d : Document) (path : List String) (key : String) (item : TomlItem) : Option Document :=
  (TomlEntries.alterAt? false (TomlEntries.add? path key item) d.header .headed d.entries).map
    fun entries => { d with entries }

def openHeader? (d : Document) (path : List String) (key : String)
    (openKey? : String → TomlEntries → Option TomlEntries) : Option Document :=
  (TomlEntries.alterAt? false (fun _ => openKey? key) path .headed d.entries).map
    fun entries => { entries, header := path ++ [key] }

end Document

def readHeader? (d : Document) (text : List Char) : Option (Document × List Char) := do
  let (path, key, rest) ← readKey? text
  let rest ← skipMark? ']' rest
  return (← d.openHeader? path key TomlEntries.openTable?, ← restOfLine? rest)

def readArrayHeader? (d : Document) (text : List Char) : Option (Document × List Char) := do
  let (path, key, rest) ← readKey? text
  let rest ← skipMark? ']' (← skipMark? ']' rest)
  return (← d.openHeader? path key TomlEntries.openNextTable?, ← restOfLine? rest)

def readKeyLine? (d : Document) (text : List Char) : Option (Document × List Char) := do
  let (path, key, rest) ← readKey? text
  let rest ← skipMark? '=' rest
  let (item, rest) ← readValue? (rest.length + 1) nestingLimit (skipSpace rest)
  return (← d.add? path key item, ← restOfLine? rest)

/-- Reads the lines of a document. The number bounds how many there are. -/
def readLines? : Nat → Document → List Char → Option Document
  | 0, _, _ => none
  | fuel + 1, d, text =>
    match skipSpace text with
    | [] => some d
    | '[' :: '[' :: rest => do
      let (d, rest) ← readArrayHeader? d rest
      readLines? fuel d rest
    | '[' :: rest => do
      let (d, rest) ← readHeader? d rest
      readLines? fuel d rest
    | c :: rest =>
      if c = '#' ∨ c = '\n' ∨ c = '\r' then do
        let rest ← restOfLine? (c :: rest)
        readLines? fuel d rest
      else do
        let (d, rest) ← readKeyLine? d (c :: rest)
        readLines? fuel d rest

/-- The entries of the document that a text is. A byte order mark may stand before it. -/
def ofString? (s : String) : Option TomlEntries :=
  let text := match s.toList with
    | c :: rest => if c.toNat = 0xFEFF then rest else c :: rest
    | [] => []
  (readLines? (text.length + 1) {} text).map (·.entries)

end Toml

end SchemaDiagram
