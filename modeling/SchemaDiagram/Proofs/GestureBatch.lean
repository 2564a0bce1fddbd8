import SchemaDiagram.Proofs.DragLocks

namespace SchemaDiagram

namespace Editor

variable {σ : Type}

variable [KeyValueStore σ]

section Moves

variable {e : Editor σ}

end Moves

end Editor

end SchemaDiagram
