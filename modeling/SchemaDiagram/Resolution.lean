import SchemaDiagram.Schema

namespace SchemaDiagram

/-- A field line that refers to a field of some table. -/
structure ReferenceSite where
  table : String
  line : FieldLine
  target : Reference
  deriving DecidableEq, Repr, Inhabited

/-- The lines of the block that refer to something, in order. -/
def TableBlock.sites (block : TableBlock) : List ReferenceSite :=
  block.lines.filterMap fun line =>
    (FieldDefinition.reference? line.definition).map fun target => { table := block.name, line, target }

namespace ReferenceSite

/-- The relationship that the site stands for, if its target exists and is a primary key. -/
def link (schema : Schema) (site : ReferenceSite) : Except ReferenceError Relationship :=
  match schema.table? site.target.table with
  | none => .error (.tableMissing site.target.table)
  | some table =>
    match table.field? site.target.field with
    | none => .error (.fieldMissing site.target.table site.target.field)
    | some field =>
      if field.isPrimaryKey then
        .ok {
          fromTable := site.table
          fromField := site.line.name
          toTable := site.target.table
          toField := site.target.field
          direction := site.target.direction }
      else .error (.notPrimaryKey site.target.field)

/-- The fault of a site whose target exists and has another type than the site declares. -/
def typeFault? (schema : Schema) (site : ReferenceSite) : Option ReferenceError := do
  let target ← schema.field? site.target.table site.target.field
  let fromType := FieldDefinition.declaredType site.line.definition
  if fromType = target.declaredType then none
  else some (.typeMismatch fromType target.declaredType site.target.table site.target.field)

end ReferenceSite

namespace Field

def asForeignKey (f : Field) : Field := { f with isForeignKey := true }

def withFault (fault : ReferenceError) (f : Field) : Field := { f with fault := some fault }

end Field

namespace Schema

/-- Marks the field that refers as a foreign key and attaches the fault or adds the relationship.
A site whose field is not in the schema has no effect. -/
def resolveSite (schema : Schema) (site : ReferenceSite) : Schema :=
  match schema.field? site.table site.line.name with
  | none => schema
  | some _ =>
    match site.link schema with
    | .ok relationship =>
      { schema.modifyField site.table site.line.name Field.asForeignKey with
        relationships := schema.relationships ++ [relationship] }
    | .error fault =>
      schema.modifyField site.table site.line.name (Field.withFault fault ∘ Field.asForeignKey)

/-- Attaches a type mismatch to the field that refers. -/
def checkType (schema : Schema) (site : ReferenceSite) : Schema :=
  match site.typeFault? schema with
  | none => schema
  | some fault => schema.modifyField site.table site.line.name (Field.withFault fault)

/-- Resolves every reference of the blocks, and then compares the types of all of them, so that a mismatch
has the last word. A fault is attached to the field that refers and never stops the walk. -/
def resolve (schema : Schema) (blocks : List TableBlock) : Schema :=
  let sites := blocks.flatMap TableBlock.sites
  sites.foldl checkType (sites.foldl resolveSite schema)

def ofResolvedBlocks (blocks : List TableBlock) : Schema :=
  (ofBlocks blocks).resolve blocks

/-- The schema of a source text. -/
def ofSource (source : String) : Schema :=
  ofResolvedBlocks (parseBlocks source)

end Schema

end SchemaDiagram
