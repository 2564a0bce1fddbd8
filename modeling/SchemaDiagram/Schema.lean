import SchemaDiagram.FieldDefinition
import SchemaDiagram.Block
import SchemaDiagram.OrderedMap

namespace SchemaDiagram

inductive ReferenceError where
  | tableMissing (table : String)
  | fieldMissing (table field : String)
  | notPrimaryKey (field : String)
  | typeMismatch (fromType toType table field : String)
  deriving DecidableEq, Repr, Inhabited

def ReferenceError.message : ReferenceError → String
  | .tableMissing table => s!"Referenced table '{table}' does not exist"
  | .fieldMissing table field => s!"Referenced field '{field}' does not exist in table '{table}'"
  | .notPrimaryKey field => s!"Referenced field '{field}' is not a primary key"
  | .typeMismatch fromType toType table field =>
    s!"Type mismatch: '{fromType}' cannot reference '{toType}' in {table}.{field}"

structure Field where
  name : String
  definition : String
  isPrimaryKey : Bool
  isForeignKey : Bool
  /-- The last fault found in the references of the field. It stands for both `has_error` and `error_message`,
  as they are written out: there is an error just if there is a fault, and the message is the text of the
  fault, empty without one. -/
  fault : Option ReferenceError
  note : Option String
  deriving DecidableEq, Repr, Inhabited

namespace Field

/-- The field that a line declares, before its references are resolved. -/
def ofLine (line : FieldLine) : Field where
  name := line.name
  definition := line.definition
  isPrimaryKey := FieldDefinition.isPrimaryKey line.definition
  isForeignKey := false
  fault := none
  note := FieldDefinition.note? line.definition

def declaredType (f : Field) : String := FieldDefinition.declaredType f.definition

def isNullable (f : Field) : Bool := FieldDefinition.isNullable f.definition

def hasError (f : Field) : Bool := f.fault.isSome

/-- The text of the fault, empty if there is none. -/
def errorMessage (f : Field) : String :=
  match f.fault with
  | none => ""
  | some fault => fault.message

end Field

/-- A table is its fields in order. Its name is its key in the schema. Two fields may share a name;
looking up a name finds the first of them. -/
abbrev Table := List Field

namespace Table

def ofBlock (block : TableBlock) : Table := block.lines.map Field.ofLine

def field? (table : Table) (name : String) : Option Field :=
  table.find? (·.name == name)

def modifyField (name : String) (change : Field → Field) : Table → Table
  | [] => []
  | f :: rest => if f.name == name then change f :: rest else f :: modifyField name change rest

end Table

/-- A reference that was resolved: its two ends, and which of them is the many. -/
structure Relationship where
  fromTable : String
  fromField : String
  toTable : String
  toField : String
  direction : Direction
  deriving DecidableEq, Repr, Inhabited

/-- Whether one of the two ends is the field of the table. -/
def Relationship.touches (r : Relationship) (table field : String) : Bool :=
  (r.fromTable == table && r.fromField == field) || (r.toTable == table && r.toField == field)

/-- Tables by name, in the order of their first declaration, and the relationships found so far. -/
structure Schema where
  tables : OrderedMap String Table := .empty
  relationships : List Relationship := []
  deriving Inhabited, DecidableEq

namespace Schema

def empty : Schema where

def table? (schema : Schema) (name : String) : Option Table := schema.tables.get? name

def field? (schema : Schema) (table field : String) : Option Field :=
  (schema.table? table).bind (·.field? field)

def modifyField (schema : Schema) (table field : String) (change : Field → Field) : Schema :=
  { schema with tables := schema.tables.modify table (Table.modifyField field change) }

def tableNames (schema : Schema) : List String := schema.tables.keys

/-- Every relationship of which one end is the field of the table. -/
def relationshipsOf (schema : Schema) (table field : String) : List Relationship :=
  schema.relationships.filter (·.touches table field)

/-- Every field at fault with the name of its table, in order. -/
def errors (schema : Schema) : List (String × Field) :=
  schema.tables.entries.flatMap fun (name, table) =>
    (table.filter Field.hasError).map fun f => (name, f)

/-- The tables of the blocks, with no reference resolved. A block whose name was seen before replaces
the fields and leaves the table in its place. -/
def ofBlocks (blocks : List TableBlock) : Schema where
  tables := OrderedMap.ofList (blocks.map fun block => (block.name, Table.ofBlock block))

end Schema

end SchemaDiagram
