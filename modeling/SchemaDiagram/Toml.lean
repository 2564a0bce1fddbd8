import SchemaDiagram.OrderedMap

namespace SchemaDiagram

/-- How a table came to be. A table with a header of its own is closed to dotted keys; one that a dotted
key made is closed to headers; one that only headers of its subtables made is open to a header. -/
inductive TomlTableKind where
  | headed
  | implied
  | dotted
  deriving DecidableEq, Repr, Inhabited

/-- What a key of a document can stand for. -/
inductive TomlItem where
  | string (s : String)
  | integer (n : Int)
  | float (f : Float)
  | boolean (b : Bool)
  | datetime
  | array (items : List TomlItem)
  /-- A table written as a value, to which nothing can be added. -/
  | inlineTable (entries : List (String × TomlItem))
  | table (kind : TomlTableKind) (entries : List (String × TomlItem))
  /-- The tables of an array of tables, the last one first. -/
  | tableArray (tables : List (List (String × TomlItem)))
  deriving Inhabited

/-- The keys of a table with what they stand for. -/
abbrev TomlEntries := List (String × TomlItem)

namespace TomlEntries

/-- Changes the table that a path leads to. Tables that are missing on the way are made. With a dotted
path no table with a header of its own may lie on the way; of an array of tables the last one is
meant. -/
def alterAt? (isDotted : Bool) (change : TomlTableKind → TomlEntries → Option TomlEntries) :
    List String → TomlTableKind → TomlEntries → Option TomlEntries
  | [], kind, entries => change kind entries
  | key :: rest, _, entries =>
    match lookupEntry key entries with
    | none =>
      let kind := if isDotted then .dotted else .implied
      (alterAt? isDotted change rest kind []).map fun inner =>
        insertEntry key (.table kind inner) entries
    | some (.table kind inner) =>
      if isDotted && kind == .headed then none
      else
        (alterAt? isDotted change rest kind inner).map fun inner =>
          insertEntry key (.table kind inner) entries
    | some (.tableArray (last :: earlier)) =>
      (alterAt? isDotted change rest .headed last).map fun last =>
        insertEntry key (.tableArray (last :: earlier)) entries
    | some _ => none

/-- Adds a key to a table, unless the key is taken. A dotted path has to lead to a table that dotted keys
made. -/
def addKey? (isDotted : Bool) (key : String) (item : TomlItem) (kind : TomlTableKind)
    (entries : TomlEntries) : Option TomlEntries :=
  if isDotted && kind != .dotted then none
  else if (lookupEntry key entries).isSome then none
  else some (entries ++ [(key, item)])

/-- Adds what a key, dotted or not, stands for. The path is what stands before the last dot. -/
def add? (path : List String) (key : String) (item : TomlItem) (kind : TomlTableKind)
    (entries : TomlEntries) : Option TomlEntries :=
  alterAt? true (addKey? (!path.isEmpty) key item) path kind entries

/-- Opens the table of a header, unless it was opened before. -/
def openTable? (key : String) (entries : TomlEntries) : Option TomlEntries :=
  match lookupEntry key entries with
  | none => some (insertEntry key (.table .headed []) entries)
  | some (.table .implied inner) => some (insertEntry key (.table .headed inner) entries)
  | some _ => none

/-- Opens one more table of an array of tables. -/
def openNextTable? (key : String) (entries : TomlEntries) : Option TomlEntries :=
  match lookupEntry key entries with
  | none => some (insertEntry key (.tableArray [[]]) entries)
  | some (.tableArray tables) => some (insertEntry key (.tableArray ([] :: tables)) entries)
  | some _ => none

end TomlEntries

end SchemaDiagram
