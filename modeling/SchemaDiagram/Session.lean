import SchemaDiagram.Editor
import SchemaDiagram.SqlExport

namespace SchemaDiagram

/-- The JSON text of the schema of a source text. -/
def parseSchema (source : String) : String :=
  (Schema.ofSource source).toJson.compact

/-- An editing session of a front end, with standard settings and saved in memory. -/
abbrev Session := Editor MemoryStore

namespace Session

def start : Session := Editor.new MemoryStore.empty EditorSettings.standard

def schemaText (s : Session) : String := s.schema.toJson.compact

def positionsText (s : Session) : String := s.positions.toJson.compact

/-- The JSON text of the position at which a table is to be drawn now. -/
def livePositionText (s : Session) (table : String) : String :=
  match s.livePosition? table with
  | none => Json.null.compact
  | some position => position.toJson.compact

def sqlText (s : Session) : String := s.schema.toSql

end Session

end SchemaDiagram
