import SchemaDiagram.Positions

namespace SchemaDiagram

inductive ActionKind where
  | edit
  | move
  deriving DecidableEq, Repr, Inhabited

namespace ActionKind

def label : ActionKind → String
  | .edit => "Edit"
  | .move => "Move"

def word : ActionKind → String
  | .edit => "edit"
  | .move => "move"

def ofWord? (word : String) : Option ActionKind :=
  if word = "edit" then some .edit else if word = "move" then some .move else none

end ActionKind

structure HistoryEntry where
  source : String
  positions : Positions Float
  action : ActionKind
  deriving Inhabited

/-- Same text and same layout, whatever led to them. -/
def HistoryEntry.sameState (a b : HistoryEntry) : Bool :=
  a.source == b.source && a.positions.same b.positions

/-- The log of undoable states in the order in which they were reached, the index of the current state (none
while the log is empty), and the number of states that are kept. -/
structure History where
  entries : List HistoryEntry := []
  index : Option Nat := none
  capacity : Nat
  deriving Inhabited

namespace History

/-- An empty log. At least one state is kept. -/
def withCapacity (capacity : Nat) : History where
  capacity := max capacity 1

/-- The number of states that are kept unless the settings say otherwise. -/
def standardCapacity : Nat := 100

def size (h : History) : Nat := h.entries.length

def current? (h : History) : Option HistoryEntry :=
  h.index.bind fun i => h.entries[i]?

/-- The entries up to the current one. -/
def upToCurrent (h : History) : List HistoryEntry :=
  match h.index with
  | none => []
  | some i => h.entries.take (i + 1)

/-- Whether the entry is in the state that the log is in already. -/
def isCurrent (h : History) (entry : HistoryEntry) : Bool :=
  h.current?.any fun current => current.sameState entry

/-- Puts an entry after the current one, drops what could be redone, and drops the oldest entry if
there are too many. Tells whether the entry was taken; the state that the log is in already is
not. -/
def record (h : History) (entry : HistoryEntry) : History × Bool :=
  if h.isCurrent entry then (h, false)
  else
    let grown := h.upToCurrent ++ [entry]
    let kept := if h.capacity < grown.length then grown.drop 1 else grown
    ({ h with entries := kept, index := some (kept.length - 1) }, true)

def canUndo (h : History) : Bool :=
  h.index.any fun i => 0 < i

def canRedo (h : History) : Bool :=
  h.index.any fun i => i + 1 < h.entries.length

def undo? (h : History) : Option (HistoryEntry × History) :=
  if h.canUndo then
    let back := { h with index := h.index.map (· - 1) }
    back.current?.map fun entry => (entry, back)
  else none

def redo? (h : History) : Option (HistoryEntry × History) :=
  if h.canRedo then
    let forward := { h with index := h.index.map (· + 1) }
    forward.current?.map fun entry => (entry, forward)
  else none

def status (h : History) : String :=
  match h.index, h.current? with
  | some i, some entry => s!"{entry.action.label} {i + 1} of {h.entries.length}"
  | _, _ => "No changes"

end History

end SchemaDiagram
