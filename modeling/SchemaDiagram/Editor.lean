import SchemaDiagram.Debouncer
import SchemaDiagram.EditorSettings
import SchemaDiagram.JsonDecoding
import SchemaDiagram.NameSet
import SchemaDiagram.Resolution
import SchemaDiagram.Store

namespace SchemaDiagram

inductive EditorError where
  | tableLocked (table : String)
  | unknownTable (table : String)
  | gestureInProgress
  | storage (error : StorageError)
  deriving DecidableEq, Repr, Inhabited

def EditorError.message : EditorError → String
  | .tableLocked table => s!"Table '{table}' is locked"
  | .unknownTable table => s!"Unknown table '{table}'"
  | .gestureInProgress => "A drag or pan gesture is already in progress"
  | .storage error => error.message

/-- What the pointer is doing. Positions on the way are kept here and reach the layout only when the
gesture ends. -/
inductive Gesture where
  | drag (table : String) (start current : Position Float)
  | pan (shift : Position Float)
  deriving Inhabited

/-- An editing session: the text, the schema that it declares, the layout, the log of states, and the store
that everything is saved to. -/
structure Editor (σ : Type) where
  settings : EditorSettings
  store : σ
  source : String
  schema : Schema
  positions : Positions Float
  history : History
  pendingEdit : Debouncer String
  gesture : Option Gesture
  locks : NameSet

namespace Editor

variable {σ : Type}

/-- The layout with a place on the grid for each table that has none. -/
def placed (settings : EditorSettings) (positions : Positions Float) (schema : Schema) :
    Positions Float :=
  positions.placeNew schema settings.grid

/-- Where the table is to be drawn now, an unfinished gesture included. -/
def livePosition? (e : Editor σ) (table : String) : Option (Position Float) :=
  let stored := e.positions.get? table
  match e.gesture with
  | some (.drag name _ current) => if name == table then some current else stored
  | some (.pan shift) =>
    if e.schema.tables.contains table then stored.map (·.offset shift) else stored
  | none => stored

def isLocked (e : Editor σ) (table : String) : Bool := e.locks.contains table

def hasPendingEdit (e : Editor σ) : Bool := e.pendingEdit.isPending

def entry (e : Editor σ) (action : ActionKind) : HistoryEntry :=
  { source := e.source, positions := e.positions, action }

def record (e : Editor σ) (action : ActionKind) : Editor σ :=
  { e with history := (e.history.record (e.entry action)).1 }

def saved (e : Editor σ) : SavedDiagram :=
  { content := e.source, positions := some e.positions }

/-- Takes a text, with the schema that it declares and places for its tables. -/
def withSource (e : Editor σ) (text : String) : Editor σ :=
  let schema := Schema.ofSource text
  { e with source := text, schema, positions := placed e.settings e.positions schema }

def cancelEdit (e : Editor σ) : Editor σ :=
  { e with pendingEdit := e.pendingEdit.cancel }

/-- Holds a change of the text back until none has followed for the quiet time. -/
def edit (e : Editor σ) (text : String) (now : Nat) : Editor σ :=
  { e with pendingEdit := e.pendingEdit.schedule text now }

def beginDrag (e : Editor σ) (table : String) : Except EditorError (Editor σ) :=
  if e.gesture.isSome then .error .gestureInProgress
  else if e.isLocked table then .error (.tableLocked table)
  else if !e.schema.tables.contains table then .error (.unknownTable table)
  else
    match e.positions.get? table with
    | none => .error (.unknownTable table)
    | some start => .ok { e with gesture := some (.drag table start start) }

/-- Moves the table that is dragged, and tells whether there is one. -/
def dragTo (e : Editor σ) (position : Position Float) : Editor σ × Bool :=
  match e.gesture with
  | some (.drag table start _) => ({ e with gesture := some (.drag table start position) }, true)
  | _ => (e, false)

def beginPan (e : Editor σ) : Except EditorError (Editor σ) :=
  if e.gesture.isSome then .error .gestureInProgress
  else .ok { e with gesture := some (.pan ⟨((0 : Nat) : Float), ((0 : Nat) : Float)⟩) }

/-- Pans further, and tells whether a pan is going on. -/
def panBy (e : Editor σ) (shift : Position Float) : Editor σ × Bool :=
  match e.gesture with
  | some (.pan sum) => ({ e with gesture := some (.pan (sum.offset shift)) }, true)
  | _ => (e, false)

def cancelGesture (e : Editor σ) : Editor σ := { e with gesture := none }

/-- The layout after the gesture, and whether it has changed. -/
def gestureResult (e : Editor σ) : Positions Float × Bool :=
  match e.gesture with
  | some (.drag table start current) =>
    if current == start then (e.positions, false) else e.positions.set table current
  | some (.pan shift) => Positions.translate shift e.schema.tableNames e.positions
  | none => (e.positions, false)

variable [KeyValueStore σ]

/-- The names that are stored as locked; none if that cannot be read. -/
def storedLocks (store : σ) (key : String) : NameSet :=
  match KeyValueStore.load store key with
  | .ok (some value) =>
    match value.texts? with
    | some names => NameSet.ofList names
    | none => NameSet.empty
  | _ => NameSet.empty

theorem storedLocks_congr {τ : Type} [KeyValueStore τ] {store : σ} {other : τ} {key : String}
    (h : KeyValueStore.load store key = KeyValueStore.load other key) :
    storedLocks store key = storedLocks other key := by
  unfold storedLocks
  rw [h]

/-- An editor without text, with the locks that the store knows of. -/
def new (store : σ) (settings : EditorSettings) : Editor σ where
  settings := settings
  store := store
  source := ""
  schema := Schema.empty
  positions := OrderedMap.empty
  history := History.withCapacity settings.historyCapacity
  pendingEdit := { window := settings.debounceMs }
  gesture := none
  locks := storedLocks store settings.locksKey

/-- Saves the text and the layout. That the store refuses does not matter to the editor. -/
def persist (e : Editor σ) : Editor σ :=
  { e with store := (KeyValueStore.save e.store e.settings.diagramKey e.saved.toJson.sorted).1 }

def commitSource (e : Editor σ) (text : String) : Editor σ :=
  ((e.withSource text).record .edit).persist

/-- Commits the text handed out, if one was, and tells whether one was. -/
def commitHandedOut (e : Editor σ) (handedOut : Debouncer String × Option String) :
    Editor σ × Bool :=
  match handedOut with
  | (pendingEdit, some text) => (({ e with pendingEdit }).commitSource text, true)
  | (pendingEdit, none) => ({ e with pendingEdit }, false)

/-- Commits the change that waits, if its quiet time is over, and tells whether it was. -/
def tick (e : Editor σ) (now : Nat) : Editor σ × Bool :=
  e.commitHandedOut (e.pendingEdit.poll now)

def flushEdit (e : Editor σ) : Editor σ × Bool :=
  e.commitHandedOut e.pendingEdit.flush

/-- Replaces the whole text at once. A change that waits is lost. -/
def replaceSource (e : Editor σ) (text : String) : Editor σ :=
  e.cancelEdit.commitSource text

/-- Takes a layout; if it has changed, it is the next state and is saved. Tells whether it has. -/
def commitPositions (e : Editor σ) (result : Positions Float × Bool) : Editor σ × Bool :=
  let e := { e with positions := result.1 }
  if result.2 then ((e.record .move).persist, true) else (e, false)

def endGesture (e : Editor σ) : Editor σ × Bool :=
  e.cancelGesture.commitPositions e.gestureResult

def resetLayout (e : Editor σ) : Editor σ × Bool :=
  e.commitPositions
    (e.positions.stackVertically e.schema TextMetrics.standard e.settings.resetPadding)

/-- Locks the table, or unlocks it if it was locked, and tells whether it is locked now. -/
def toggleLock (e : Editor σ) (table : String) : Editor σ × Bool :=
  let locks := e.locks.toggle table
  let store := (KeyValueStore.save e.store e.settings.locksKey locks.toJson).1
  ({ e with locks, store }, !e.isLocked table)

/-- Takes the text and the layout of an entry of the log, and saves them. -/
def apply (e : Editor σ) (entry : HistoryEntry) : Editor σ :=
  let e := { e.cancelEdit.cancelGesture with positions := entry.positions }
  (e.withSource entry.source).persist

/-- Goes to the state that was found in the log, if one was, and tells whether one was. -/
def goTo (e : Editor σ) : Option (HistoryEntry × History) → Editor σ × Bool
  | some (entry, history) => (({ e with history }).apply entry, true)
  | none => (e, false)

def undo (e : Editor σ) : Editor σ × Bool := e.goTo e.history.undo?

def redo (e : Editor σ) : Editor σ × Bool := e.goTo e.history.redo?

def adopt (e : Editor σ) (saved : SavedDiagram) : Editor σ :=
  let e := { e.cancelEdit with positions := saved.positions.getD e.positions }
  (e.withSource saved.content).record .edit

/-- Loads what was saved, and tells whether there was something. -/
def restore (e : Editor σ) : Except EditorError (Editor σ × Bool) :=
  match KeyValueStore.load e.store e.settings.diagramKey with
  | .error error => .error (.storage error)
  | .ok none => .ok (e, false)
  | .ok (some value) =>
    match SavedDiagram.ofJson? value with
    | none => .error (.storage .json)
    | some saved => if saved.content.isEmpty then .ok (e, false) else .ok (e.adopt saved, true)

end Editor

end SchemaDiagram
