import SchemaDiagram.History
import SchemaDiagram.Layout

namespace SchemaDiagram

/-- The settings of an editor. Times are milliseconds. -/
structure EditorSettings where
  /-- The quiet time after the last change of the text before it is committed. -/
  debounceMs : Nat
  historyCapacity : Nat
  grid : Grid Float
  /-- The margin and the gaps of a reset layout. -/
  resetPadding : Float
  diagramKey : String
  locksKey : String
  deriving Inhabited

def EditorSettings.standard : EditorSettings where
  debounceMs := 300
  historyCapacity := History.standardCapacity
  grid := Grid.standard
  resetPadding := ((30 : Nat) : Float)
  diagramKey := "diagram"
  locksKey := "lockedTables"

end SchemaDiagram
