import SchemaDiagram.TextScan

namespace SchemaDiagram

/-- Which end of a relationship is the many. -/
inductive Direction where
  /-- Many rows refer to one target row, written with a right angle bracket. -/
  | manyToOne
  /-- One row refers to many target rows, written with a left angle bracket. -/
  | oneToMany
  deriving DecidableEq, Repr, Inhabited

def Direction.toChar : Direction → Char
  | .manyToOne => '>'
  | .oneToMany => '<'

def Direction.ofChar? (c : Char) : Option Direction :=
  if c = '>' then some .manyToOne else if c = '<' then some .oneToMany else none

@[simp] theorem Direction.ofChar?_toChar (d : Direction) : ofChar? d.toChar = some d := by
  cases d <;> rfl

structure Reference where
  direction : Direction
  table : String
  field : String
  deriving DecidableEq, Repr, Inhabited

namespace FieldDefinition

def isPrimaryKey (definition : String) : Bool :=
  hasInfix ['[', 'p', 'k', ']'] definition.toList

def isNullable (definition : String) : Bool :=
  hasInfix ['[', 'n', 'u', 'l', 'l', ']'] definition.toList

/-- Reads a note that begins right here: the text up to the next closing bracket, without the white
space that it begins with, unless nothing is left. -/
def noteHere? (text : List Char) : Option (List Char) := do
  let rest ← List.isPrefixOf? ['[', 'n', 'o', 't', 'e', ':'] text
  let (note, _) ← splitAtFirst? ']' (trimStart rest)
  if note.isEmpty then none else some note

/-- The text of the first note that is not empty. -/
def note? (definition : String) : Option String :=
  (firstReading? noteHere? definition.toList).map String.ofList

/-- The longest run of identifier characters, if there is one here, and what follows it. -/
def identifier? (text : List Char) : Option (List Char × List Char) :=
  match text.takeWhile isIdentifierChar with
  | [] => none
  | name@(_ :: _) => some (name, text.dropWhile isIdentifierChar)

def expect? (mark : Char) : List Char → Option (List Char)
  | [] => none
  | c :: rest => if c = mark then some rest else none

def direction? : List Char → Option (Direction × List Char)
  | [] => none
  | c :: rest => (Direction.ofChar? c).map fun d => (d, rest)

/-- Reads a reference annotation that begins right here. -/
def referenceHere? (text : List Char) : Option Reference := do
  let text ← List.isPrefixOf? ['[', 'r', 'e', 'f', ':'] text
  let (direction, text) ← direction? (trimStart text)
  let (table, text) ← identifier? (trimStart text)
  let text ← expect? '.' text
  let (field, text) ← identifier? text
  let _ ← expect? ']' text
  return { direction, table := String.ofList table, field := String.ofList field }

/-- The first reference annotation that is written in full. Brackets with any other content are passed
over. -/
def reference? (definition : String) : Option Reference :=
  firstReading? referenceHere? definition.toList

/-- The text without its bracketed groups. The flag tells whether the text begins inside a group.
An opening bracket that is never closed is kept, with all that follows it. -/
def outsideGroups : Bool → List Char → List Char
  | _, [] => []
  | true, c :: rest => outsideGroups (decide (c ≠ ']')) rest
  | false, c :: rest =>
    if c = '[' ∧ ']' ∈ rest then outsideGroups true rest else c :: outsideGroups false rest

/-- The declared type: what is left of the definition without annotations and outer white space. -/
def declaredType (definition : String) : String :=
  String.ofList (trim (outsideGroups false definition.toList))

end FieldDefinition

end SchemaDiagram
