import SchemaDiagram.History
import SchemaDiagram.Json

namespace SchemaDiagram

def Direction.word (d : Direction) : String := String.ofList [d.toChar]

def Field.toJson (f : Field) : Json :=
  .object [
    ("name", .string f.name),
    ("raw_definition", .string f.definition),
    ("is_primary_key", .bool f.isPrimaryKey),
    ("is_foreign_key", .bool f.isForeignKey),
    ("has_error", .bool f.hasError),
    ("error_message", .string f.errorMessage),
    ("note", .ofText? f.note)]

def Table.toJson (name : String) (table : Table) : Json :=
  .object [("name", .string name), ("fields", .array (table.map Field.toJson))]

def Relationship.toJson (r : Relationship) : Json :=
  .object [
    ("from_table", .string r.fromTable),
    ("from_field", .string r.fromField),
    ("to_table", .string r.toTable),
    ("to_field", .string r.toField),
    ("direction", .string r.direction.word)]

/-- The JSON form of a schema, its tables in order. -/
def Schema.toJson (schema : Schema) : Json :=
  .object [
    ("tables", .object (schema.tables.entries.map fun (name, table) => (name, table.toJson name))),
    ("relationships", .array (schema.relationships.map Relationship.toJson))]

def Position.toJson (p : Position Float) : Json :=
  .object [("x", .ofFloat p.x), ("y", .ofFloat p.y)]

def Positions.toJson (positions : Positions Float) : Json :=
  .object (positions.entries.map fun (name, position) => (name, position.toJson))

def HistoryEntry.toJson (entry : HistoryEntry) : Json :=
  .object [
    ("source", .string entry.source),
    ("positions", entry.positions.toJson),
    ("action", .string entry.action.word)]

/-- What is saved of a diagram: its text, and its layout if there is one. -/
structure SavedDiagram where
  content : String
  positions : Option (Positions Float)
  deriving Inhabited

def SavedDiagram.toJson (saved : SavedDiagram) : Json :=
  .object [
    ("content", .string saved.content),
    ("positions", match saved.positions with
      | none => .null
      | some positions => positions.toJson)]

end SchemaDiagram
