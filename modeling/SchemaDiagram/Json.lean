import SchemaDiagram.ShortestDecimal

namespace SchemaDiagram

/-- A JSON value, with the members of an object in the order they are written in. -/
inductive Json where
  | null
  | bool (b : Bool)
  | int (n : Int)
  | float (f : Float)
  | string (s : String)
  | array (items : List Json)
  | object (members : List (String × Json))
  /-- A literal of the right form that stands for no value: a number beyond the doubles, or a string
  with half a surrogate pair. -/
  | unrepresentable
  deriving Inhabited

namespace Json

/-- The value of a double. What is no number has no JSON form but null. -/
def ofFloat (f : Float) : Json :=
  if f.isFinite then .float f else .null

/-- The value of a text that may be absent. -/
def ofText? (s : Option String) : Json :=
  match s with
  | none => .null
  | some s => .string s

def hexDigit (n : Nat) : Char :=
  if n < 10 then Char.ofNat (n + 48) else Char.ofNat (n + 87)

def escapeChar (c : Char) : List Char :=
  if c = '"' then ['\\', '"']
  else if c = '\\' then ['\\', '\\']
  else if c = '\n' then ['\\', 'n']
  else if c = '\r' then ['\\', 'r']
  else if c = '\t' then ['\\', 't']
  else if c.toNat = 8 then ['\\', 'b']
  else if c.toNat = 12 then ['\\', 'f']
  else if c.toNat < 32 then ['\\', 'u', '0', '0', hexDigit (c.toNat / 16), hexDigit (c.toNat % 16)]
  else [c]

def quote (s : String) : String :=
  String.ofList ('"' :: s.toList.flatMap escapeChar ++ ['"'])

def floatText (f : Float) : String :=
  if f.isFinite then finiteText f else "null"

def scalarText : Json → String
  | .bool true => "true"
  | .bool false => "false"
  | .int n => toString n
  | .float f => floatText f
  | .string s => quote s
  | _ => "null"

mutual

def compact : Json → String
  | .array items => "[" ++ ",".intercalate (compactItems items) ++ "]"
  | .object members => "\x7b" ++ ",".intercalate (compactMembers members) ++ "\x7d"
  | value => scalarText value

def compactItems : List Json → List String
  | [] => []
  | item :: rest => compact item :: compactItems rest

def compactMembers : List (String × Json) → List String
  | [] => []
  | (name, value) :: rest => (quote name ++ ":" ++ compact value) :: compactMembers rest

end

def indentation (depth : Nat) : String := String.ofList ('\n' :: List.replicate (2 * depth) ' ')

/-- The parts of an array or object between its brackets, each on a line of its own. -/
def indented (opening closing : String) (depth : Nat) (parts : List String) : String :=
  if parts.isEmpty then opening ++ closing
  else
    opening ++ indentation (depth + 1) ++ ("," ++ indentation (depth + 1)).intercalate parts
      ++ indentation depth ++ closing

mutual

/-- The text of a value that begins at the depth, each item and member on a line of its own. -/
def prettyAt (depth : Nat) : Json → String
  | .array items => indented "[" "]" depth (prettyItems (depth + 1) items)
  | .object members => indented "\x7b" "\x7d" depth (prettyMembers (depth + 1) members)
  | value => scalarText value

def prettyItems (depth : Nat) : List Json → List String
  | [] => []
  | item :: rest => prettyAt depth item :: prettyItems depth rest

def prettyMembers (depth : Nat) : List (String × Json) → List String
  | [] => []
  | (name, value) :: rest =>
    (quote name ++ ": " ++ prettyAt depth value) :: prettyMembers depth rest

end

/-- The text of a value over several lines, indented by two spaces a level. -/
def pretty (value : Json) : String := prettyAt 0 value

/-- The members with one more, sorted by name. A member of the same name is replaced. -/
def insertMember (name : String) (value : Json) : List (String × Json) → List (String × Json)
  | [] => [(name, value)]
  | (other, old) :: rest =>
    if name = other then (name, value) :: rest
    else if name < other then (name, value) :: (other, old) :: rest
    else (other, old) :: insertMember name value rest

mutual

/-- The value with the members of every object sorted by name. Of several members with one name the
last counts. -/
def sorted : Json → Json
  | .array items => .array (sortedItems items)
  | .object members => .object (sortedMembers [] members)
  | value => value

def sortedItems : List Json → List Json
  | [] => []
  | item :: rest => sorted item :: sortedItems rest

def sortedMembers (done : List (String × Json)) : List (String × Json) → List (String × Json)
  | [] => done
  | (name, value) :: rest => sortedMembers (insertMember name (sorted value) done) rest

end

mutual

/-- Whether every literal in the value stands for something, and arrays and objects are nested no
deeper than allowed. -/
def isStorable : Nat → Json → Bool
  | _, .unrepresentable => false
  | depth, .array items => depth != 0 && areStorable (depth - 1) items
  | depth, .object members => depth != 0 && areStorableMembers (depth - 1) members
  | _, _ => true

def areStorable : Nat → List Json → Bool
  | _, [] => true
  | depth, item :: rest => isStorable depth item && areStorable depth rest

def areStorableMembers : Nat → List (String × Json) → Bool
  | _, [] => true
  | depth, (_, value) :: rest => isStorable depth value && areStorableMembers depth rest

end

/-- How deep arrays and objects may be nested in a value that is read on its own. -/
def depthLimit : Nat := 127

/-- The stored form of a value that was read, if it has one. -/
def storable? (value : Json) : Option Json :=
  if isStorable depthLimit value then some value.sorted else none

end Json

end SchemaDiagram
