import SchemaDiagram.JsonEncoding
import SchemaDiagram.JsonReader

namespace SchemaDiagram

namespace Json

def text? : Json → Option String
  | .string s => some s
  | _ => none

def float? : Json → Option Float
  | .int n => some (Float.ofInt n)
  | .float f => some f
  | _ => none

def texts? : Json → Option (List String)
  | .array items => items.mapM text?
  | _ => none

def atMostOne? (name : String) (members : List (String × Json)) : Option (Option Json) :=
  match members.filter (·.1 == name) with
  | [] => some none
  | [(_, value)] => some (some value)
  | _ => none

/-- The only member of the name. Members that are not asked for may stand beside it, but no second one of
its name. -/
def member? (name : String) (members : List (String × Json)) : Option Json :=
  (atMostOne? name members).bind id

/-- The word of a choice: a text, or an object whose only member has the word for a name and null for a
value. -/
def choice? : Json → Option String
  | .string word => some word
  | .object [(word, .null)] => some word
  | _ => none

end Json

def Direction.ofWord? (word : String) : Option Direction :=
  match word.toList with
  | [c] => Direction.ofChar? c
  | _ => none

def Direction.ofJson? (value : Json) : Option Direction := value.choice?.bind ofWord?

def ActionKind.ofJson? (value : Json) : Option ActionKind := value.choice?.bind ofWord?

/-- Reads a position. Like every record, it may also be given as an array of its parts in order. -/
def Position.ofJson? : Json → Option (Position Float)
  | .object members => do
    let x ← (Json.member? "x" members).bind Json.float?
    let y ← (Json.member? "y" members).bind Json.float?
    return { x, y }
  | .array [x, y] => return { x := ← x.float?, y := ← y.float? }
  | _ => none

/-- Reads a layout. A name that stands twice keeps its first place and takes its last position. -/
def Positions.ofJson? : Json → Option (Positions Float)
  | .object members => do
    let entries ← members.mapM fun (name, value) => do
      let position ← Position.ofJson? value
      return (name, position)
    return OrderedMap.ofList entries
  | _ => none

def Positions.ofNullableJson? : Json → Option (Option (Positions Float))
  | .null => some none
  | value => (Positions.ofJson? value).map some

/-- Reads a saved diagram. The layout may be left out. -/
def SavedDiagram.ofJson? : Json → Option SavedDiagram
  | .object members => do
    let content ← (Json.member? "content" members).bind Json.text?
    let positions ← Json.atMostOne? "positions" members
    return { content, positions := ← Positions.ofNullableJson? (positions.getD .null) }
  | .array [content] => return { content := ← content.text?, positions := none }
  | .array [content, positions] =>
    return { content := ← content.text?, positions := ← Positions.ofNullableJson? positions }
  | _ => none

def HistoryEntry.ofJson? : Json → Option HistoryEntry
  | .object members => do
    let source ← (Json.member? "source" members).bind Json.text?
    let positions ← (Json.member? "positions" members).bind Positions.ofJson?
    let action ← (Json.member? "action" members).bind ActionKind.ofJson?
    return { source, positions, action }
  | .array [source, positions, action] =>
    return {
      source := ← source.text?
      positions := ← Positions.ofJson? positions
      action := ← ActionKind.ofJson? action }
  | _ => none

end SchemaDiagram
