import SchemaDiagram.Resolution

namespace SchemaDiagram

structure SqlColumn where
  name : String
  type : String
  isPrimaryKey : Bool
  isNotNull : Bool
  deriving DecidableEq, Repr, Inhabited

/-- A foreign key line of a statement: the referring column, and the column that it refers to. -/
structure SqlForeignKey where
  column : String
  otherTable : String
  otherColumn : String
  deriving DecidableEq, Repr, Inhabited

/-- The statement of a table: its columns first, and its foreign keys after them. -/
structure SqlStatement where
  table : String
  columns : List SqlColumn
  foreignKeys : List SqlForeignKey
  deriving DecidableEq, Repr, Inhabited

/-- Whether a type counts as a whole number: it holds these three letters in some letter
case. No character beyond the basic alphabet turns into one of them alone when made small. -/
def isIntegerType (type : String) : Bool :=
  hasInfix ['i', 'n', 't'] (type.toList.map Char.toLower)

namespace SqlColumn

/-- The column of a field. A field at fault is never said to be not null. -/
def ofField (f : Field) : SqlColumn where
  name := f.name
  type := f.declaredType
  isPrimaryKey := f.isPrimaryKey
  isNotNull := !f.hasError && !f.isNullable

/-- The line of a column. Whole number keys count themselves up. -/
def render (c : SqlColumn) : String :=
  "  " ++ c.name ++ " " ++ c.type
    ++ (if c.isPrimaryKey then " PRIMARY KEY" else "")
    ++ (if c.isPrimaryKey && isIntegerType c.type then " AUTO_INCREMENT" else "")
    ++ (if c.isNotNull then " NOT NULL" else "")

end SqlColumn

namespace SqlForeignKey

/-- The foreign key of a field, if a relationship touches the field. The first such relationship
counts, and its other end is the one that is not in the table. -/
def ofField? (schema : Schema) (table : String) (f : Field) : Option SqlForeignKey :=
  if f.isForeignKey then
    (schema.relationshipsOf table f.name).head?.map fun r =>
      if r.toTable == table then ⟨f.name, r.fromTable, r.fromField⟩
      else ⟨f.name, r.toTable, r.toField⟩
  else none

def render (k : SqlForeignKey) : String :=
  "  FOREIGN KEY (" ++ k.column ++ ") REFERENCES " ++ k.otherTable ++ "(" ++ k.otherColumn ++ ")"

end SqlForeignKey

namespace SqlStatement

def ofTable (schema : Schema) (name : String) (table : Table) : SqlStatement where
  table := name
  columns := table.map SqlColumn.ofField
  foreignKeys := table.filterMap (SqlForeignKey.ofField? schema name)

def bodyLines (s : SqlStatement) : List String :=
  s.columns.map SqlColumn.render ++ s.foreignKeys.map SqlForeignKey.render

def render (s : SqlStatement) : String :=
  "CREATE TABLE " ++ s.table ++ " (\n" ++ ",\n".intercalate s.bodyLines ++ "\n);\n\n"

end SqlStatement

namespace Schema

def sqlStatements (schema : Schema) : List SqlStatement :=
  schema.tables.entries.map fun (name, table) => SqlStatement.ofTable schema name table

def toSql (schema : Schema) : String :=
  String.join (schema.sqlStatements.map SqlStatement.render)

end Schema

/-- The data definition text of a source text. -/
def exportSql (source : String) : String :=
  (Schema.ofSource source).toSql

end SchemaDiagram
