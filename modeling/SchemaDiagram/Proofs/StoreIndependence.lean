import SchemaDiagram.EditorEvent

namespace SchemaDiagram

/-- A store that holds nothing and takes nothing. -/
structure NoStore where

instance : KeyValueStore NoStore where
  load _ _ := .ok none
  save store _ _ := (store, .error .unavailable)
  remove store _ := (store, .ok ())

namespace Editor

/-- All that there is of an editor beside its store and its settings, and where each table is drawn. -/
structure Sight where
  source : String
  schema : Schema
  positions : Positions Float
  history : History
  pendingEdit : Debouncer String
  gesture : Option Gesture
  livePosition? : String → Option (Position Float)
  locks : NameSet

section Detached

variable {σ : Type}

def sight (e : Editor σ) : Sight where
  source := e.source
  schema := e.schema
  positions := e.positions
  history := e.history
  pendingEdit := e.pendingEdit
  gesture := e.gesture
  livePosition? := e.livePosition?
  locks := e.locks

/-- The editor in the same state with no store to save to. -/
def detached (e : Editor σ) : Editor NoStore := { e with store := {} }

theorem sight_detached (e : Editor σ) : e.detached.sight = e.sight := rfl

/-- The result of a request with no store behind it. -/
def detachedResult {α : Type} (result : Editor σ × α) : Editor NoStore × α :=
  (result.1.detached, result.2)

theorem detachedResult_dragTo (e : Editor σ) (position : Position Float) :
    detachedResult (e.dragTo position) = e.detached.dragTo position := by
  obtain ⟨_, _, _, _, _, _, _, gesture, _⟩ := e
  cases gesture with
  | none => rfl
  | some gesture => cases gesture <;> rfl

theorem detachedResult_panBy (e : Editor σ) (shift : Position Float) :
    detachedResult (e.panBy shift) = e.detached.panBy shift := by
  obtain ⟨_, _, _, _, _, _, _, gesture, _⟩ := e
  cases gesture with
  | none => rfl
  | some gesture => cases gesture <;> rfl

theorem map_detached_beginDrag (e : Editor σ) (table : String) :
    (e.beginDrag table).map detached = e.detached.beginDrag table := by
  have hgesture : e.detached.gesture = e.gesture := rfl
  have hlocked : e.detached.isLocked table = e.isLocked table := rfl
  have hschema : e.detached.schema = e.schema := rfl
  have hpositions : e.detached.positions = e.positions := rfl
  unfold beginDrag
  rw [hgesture, hlocked, hschema, hpositions]
  split
  · rfl
  · split
    · rfl
    · split
      · rfl
      · cases e.positions.get? table <;> rfl

theorem map_detached_beginPan (e : Editor σ) : e.beginPan.map detached = e.detached.beginPan := by
  have hgesture : e.detached.gesture = e.gesture := rfl
  unfold beginPan
  rw [hgesture]
  split <;> rfl

theorem detachedResult_unlessRefused (e : Editor σ) (result : Except EditorError (Editor σ)) :
    detachedResult (e.unlessRefused result) = e.detached.unlessRefused (result.map detached) := by
  cases result <;> rfl

variable [KeyValueStore σ]

theorem detachedResult_commitHandedOut (e : Editor σ)
    (handedOut : Debouncer String × Option String) :
    detachedResult (e.commitHandedOut handedOut) = e.detached.commitHandedOut handedOut := by
  obtain ⟨pendingEdit, text⟩ := handedOut
  cases text <;> rfl

theorem detachedResult_commitPositions (e : Editor σ) (result : Positions Float × Bool) :
    detachedResult (e.commitPositions result) = e.detached.commitPositions result := by
  obtain ⟨positions, changed⟩ := result
  cases changed <;> rfl

theorem detachedResult_goTo (e : Editor σ) (found : Option (HistoryEntry × History)) :
    detachedResult (e.goTo found) = e.detached.goTo found := by
  cases found <;> rfl

/-- An editor listens to its store when it is opened and when it restores. Every other request is answered and
carried out as without a store. -/
theorem detachedResult_handle (e : Editor σ) {event : EditorEvent} (h : event ≠ .restore) :
    detachedResult (e.handle event) = e.detached.handle event := by
  cases event with
  | edit text now => rfl
  | tick now => exact congrArg flagged (detachedResult_commitHandedOut e (e.pendingEdit.poll now))
  | flushEdit => exact congrArg flagged (detachedResult_commitHandedOut e e.pendingEdit.flush)
  | replaceSource text => rfl
  | beginDrag table =>
    simp only [handle, detachedResult_unlessRefused, map_detached_beginDrag]
  | dragTo position => exact congrArg flagged (detachedResult_dragTo e position)
  | beginPan => simp only [handle, detachedResult_unlessRefused, map_detached_beginPan]
  | panBy shift => exact congrArg flagged (detachedResult_panBy e shift)
  | endGesture =>
    exact congrArg flagged (detachedResult_commitPositions e.cancelGesture e.gestureResult)
  | cancelGesture => rfl
  | resetLayout => exact congrArg flagged (detachedResult_commitPositions e _)
  | toggleLock table => rfl
  | undo => exact congrArg flagged (detachedResult_goTo e e.history.undo?)
  | redo => exact congrArg flagged (detachedResult_goTo e e.history.redo?)
  | restore => exact absurd rfl h

/-- The replies to a run of requests, each with what is seen after it. -/
def transcript (e : Editor σ) : List EditorEvent → List (EditorReply × Sight)
  | [] => []
  | event :: rest =>
    ((e.handle event).2, (e.handle event).1.sight) :: (e.handle event).1.transcript rest

theorem transcript_detached (e : Editor σ) {events : List EditorEvent}
    (h : ∀ event ∈ events, event ≠ .restore) : e.detached.transcript events = e.transcript events := by
  induction events generalizing e with
  | nil => rfl
  | cons event rest ih =>
    have hstep := detachedResult_handle e (h event List.mem_cons_self)
    have hrest := ih (e.handle event).1 fun other hm => h other (List.mem_cons_of_mem event hm)
    simp only [transcript, ← hstep, detachedResult, sight_detached, hrest]

end Detached

section TwoStores

variable {σ τ : Type} [KeyValueStore σ] [KeyValueStore τ]

theorem detached_new_congr {settings : EditorSettings} {store : σ} {other : τ}
    (h : KeyValueStore.load store settings.locksKey = KeyValueStore.load other settings.locksKey) :
    (new store settings).detached = (new other settings).detached := by
  simp only [new, detached, storedLocks_congr h]

/-- Over two stores that answer alike when they are asked for the locks, and then take or refuse each
value that they are to save as they please, the same requests get the same replies and leave the same
text, schema, layout, log, waiting edit, gesture, drawn positions and locks, each time. -/
theorem transcript_eq_of_load_eq {settings : EditorSettings} {store : σ} {other : τ}
    (h : KeyValueStore.load store settings.locksKey = KeyValueStore.load other settings.locksKey)
    {events : List EditorEvent} (he : ∀ event ∈ events, event ≠ .restore) :
    (new store settings).sight = (new other settings).sight ∧
      (new store settings).transcript events = (new other settings).transcript events := by
  have hnew := detached_new_congr h
  refine ⟨?_, ?_⟩
  · rw [← sight_detached, hnew, sight_detached]
  · rw [← transcript_detached _ he, hnew, transcript_detached _ he]

/-- One store takes all that it is given and the other one nothing: a lock is lifted, a drag is committed,
and the log is walked, over both alike. -/
theorem transcript_eq_of_load_eq_refusing :
    let memory := MemoryStore.empty.save "lockedTables" (.array [.string "b"])
    let refusing : UnreliableStore := { memory, saveError := some .io }
    let events : List EditorEvent :=
      [.replaceSource "Table a \x7b id int \x7d Table b \x7b id int \x7d", .beginDrag "b", .toggleLock "b",
        .beginDrag "b", .dragTo ⟨((7 : Nat) : Float), ((9 : Nat) : Float)⟩, .endGesture, .undo, .redo,
        .edit "Table c \x7b \x7d" 5, .tick 305]
    let e := (new memory EditorSettings.standard).run events
    let f := (new refusing EditorSettings.standard).run events
    (KeyValueStore.load memory EditorSettings.standard.locksKey =
        KeyValueStore.load refusing EditorSettings.standard.locksKey ∧
      (∀ event ∈ events, event ≠ .restore) ∧
      (e.store.load "diagram").isSome = true ∧ (f.store.memory.load "diagram").isSome = false ∧
      e.history.entries.length = 3 ∧ e.positions.keys = ["a", "b", "c"]) ∧
    (new memory EditorSettings.standard).sight = (new refusing EditorSettings.standard).sight ∧
      (new memory EditorSettings.standard).transcript events =
        (new refusing EditorSettings.standard).transcript events := by
  intro memory refusing events e f
  have hload : KeyValueStore.load memory EditorSettings.standard.locksKey =
      KeyValueStore.load refusing EditorSettings.standard.locksKey := rfl
  have he : ∀ event ∈ events, event ≠ .restore := by simp [events]
  exact ⟨⟨hload, he, by decide +kernel⟩, transcript_eq_of_load_eq hload he⟩

end TwoStores

end Editor

end SchemaDiagram
