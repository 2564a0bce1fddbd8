import SchemaDiagram.Proofs.BlockGrammar
import SchemaDiagram.Proofs.ForeignKeyClauses

namespace SchemaDiagram

section EarlierNames

end EarlierNames

section Names

end Names

namespace SqlForeignKey

/-- How the foreign key line of a column begins. -/
def opening (column : String) : String := "  FOREIGN KEY (" ++ column ++ ") "

end SqlForeignKey

namespace Schema

section Resolved

variable {source name : String} {table : Table}

end Resolved

end Schema

end SchemaDiagram
