import SchemaDiagram.Proofs.QueuedText
import SchemaDiagram.Proofs.UndoRedo

namespace SchemaDiagram

namespace EditorEvent

/-- Whether the reply tells that the request has failed. The flag of a lock tells how the lock stands. -/
def hasFailed : EditorEvent → EditorReply → Bool
  | _, .done => false
  | _, .refused _ => true
  | .toggleLock _, .flag _ => false
  | _, .flag b => !b

def endsGesture : EditorEvent → Bool
  | .endGesture => true
  | _ => false

theorem eq_false_of_hasFailed {event : EditorEvent} {b : Bool} (h : event.hasFailed (.flag b) = true) :
    b = false := by
  cases b with
  | false => rfl
  | true => cases event <;> cases h

end EditorEvent

namespace Editor

variable {σ : Type}

/-- What a program that works in place leaves behind, and its reply. A request that can be refused is given by
the editor that it leads to, so that a refusal has no editor to show. The same requests are written out here as
programs that work on the editor in place, where what was written before a failure stays. -/
def leaves {α : Type} (reply : α → EditorReply) :
    EStateM.Result EditorError (Editor σ) α → Editor σ × EditorReply
  | .ok a e => (e, reply a)
  | .error error e => (e, .refused error)

def beginDragInPlace (table : String) : EStateM EditorError (Editor σ) Unit := do
  if (← get).gesture.isSome then throw .gestureInProgress
  if (← get).isLocked table then throw (.tableLocked table)
  let e ← get
  match if e.schema.tables.contains table then e.positions.get? table else none with
  | none => throw (.unknownTable table)
  | some start => set { e with gesture := some (.drag table start start) }

def beginPanInPlace : EStateM EditorError (Editor σ) Unit := do
  if (← get).gesture.isSome then throw .gestureInProgress
  modify fun e => { e with gesture := some (.pan ⟨((0 : Nat) : Float), ((0 : Nat) : Float)⟩) }

/-- Takes over what was saved, one field after the other. -/
def adoptInPlace (saved : SavedDiagram) : EStateM EditorError (Editor σ) Unit := do
  modify cancelEdit
  modify fun e => { e with source := saved.content }
  if let some positions := saved.positions then
    modify fun e => { e with positions }
  modify fun e => { e with schema := Schema.ofSource e.source }
  modify fun e => { e with positions := placed e.settings e.positions e.schema }
  modify fun e => e.record .edit

theorem adoptInPlace_run (e : Editor σ) (saved : SavedDiagram) :
    (adoptInPlace saved).run e = .ok () (e.adopt saved) := by
  unfold adoptInPlace adopt
  cases saved.positions <;> rfl

theorem dragTo_of_not {e : Editor σ} {position : Position Float} (h : (e.dragTo position).2 = false) :
    (e.dragTo position).1 = e := by
  unfold dragTo at h ⊢
  split at h
  next => cases h
  next => rfl

theorem panBy_of_not {e : Editor σ} {shift : Position Float} (h : (e.panBy shift).2 = false) :
    (e.panBy shift).1 = e := by
  unfold panBy at h ⊢
  split at h
  next => cases h
  next => rfl

theorem unlessRefused_of_hasFailed {e : Editor σ} {result : Except EditorError (Editor σ)}
    {event : EditorEvent} (h : event.hasFailed (e.unlessRefused result).2 = true) :
    (e.unlessRefused result).1 = e := by
  cases result with
  | error error => rfl
  | ok next => cases h

variable [KeyValueStore σ]

def restoreInPlace : EStateM EditorError (Editor σ) Bool := do
  match KeyValueStore.load (← get).store (← get).settings.diagramKey with
  | .error error => throw (.storage error)
  | .ok none => return false
  | .ok (some value) =>
    match SavedDiagram.ofJson? value with
    | none => throw (.storage .json)
    | some saved =>
      if saved.content.isEmpty then return false
      adoptInPlace saved
      return true

/-- Moves the index, then takes over the entry that is found there, one field after the other. The index of a
sound log never leaves it, so that an entry is always found. -/
def goToInPlace (index : Nat) : EStateM EditorError (Editor σ) Bool := do
  modify fun e => { e with history := { e.history with index := some index } }
  match (← get).history.current? with
  | none => return false
  | some entry =>
    modify cancelEdit
    modify cancelGesture
    modify fun e => { e with source := entry.source }
    modify fun e => { e with positions := entry.positions }
    modify fun e => { e with schema := Schema.ofSource e.source }
    modify fun e => { e with positions := placed e.settings e.positions e.schema }
    modify persist
    return true

def undoInPlace : EStateM EditorError (Editor σ) Bool := do
  match (← get).history.index with
  | some (i + 1) => goToInPlace i
  | _ => return false

def redoInPlace : EStateM EditorError (Editor σ) Bool := do
  let history := (← get).history
  match history.index with
  | some i => if i + 1 < history.entries.length then goToInPlace (i + 1) else return false
  | none => return false

/-- Each test comes before the only thing that is written. -/
theorem beginDragInPlace_run (e : Editor σ) (table : String) :
    leaves (fun _ => .done) ((beginDragInPlace table).run e) = e.handle (.beginDrag table) := by
  simp only [beginDragInPlace, handle, beginDrag, EStateM.run_bind, EStateM.run_get]
  cases e.gesture.isSome with
  | true => rfl
  | false =>
    simp only [Bool.false_eq_true, if_false, EStateM.run_bind, EStateM.run_get]
    cases e.isLocked table with
    | true => rfl
    | false =>
      simp only [Bool.false_eq_true, if_false, EStateM.run_bind, EStateM.run_get]
      cases e.schema.tables.contains table with
      | false => rfl
      | true =>
        simp only [if_true, Bool.not_true, Bool.false_eq_true, if_false]
        cases e.positions.get? table <;> rfl

theorem beginPanInPlace_run (e : Editor σ) :
    leaves (fun _ => .done) (beginPanInPlace.run e) = e.handle .beginPan := by
  simp only [beginPanInPlace, handle, beginPan, EStateM.run_bind, EStateM.run_get]
  cases e.gesture.isSome <;> rfl

/-- What was saved is read and judged as a whole before the first field is written. -/
theorem restoreInPlace_run (e : Editor σ) :
    leaves .flag (restoreInPlace.run e) = e.handle .restore := by
  simp only [restoreInPlace, handle, restore, EStateM.run_bind, EStateM.run_get]
  cases KeyValueStore.load e.store e.settings.diagramKey with
  | error error => rfl
  | ok found =>
    cases found with
    | none => rfl
    | some value =>
      dsimp only
      cases SavedDiagram.ofJson? value with
      | none => rfl
      | some saved =>
        dsimp only
        cases saved.content.isEmpty with
        | true => rfl
        | false =>
          simp only [Bool.false_eq_true, if_false, EStateM.run_bind, adoptInPlace_run]
          rfl

theorem goToInPlace_run {e : Editor σ} {i : Nat} {entry : HistoryEntry}
    (h : e.history.entries[i]? = some entry) :
    leaves .flag ((goToInPlace i).run e) =
      flagged (e.goTo (some (entry, { e.history with index := some i }))) := by
  have hfound : ({ e.history with index := some i } : History).current? = some entry :=
    History.current?_eq_some_iff.mpr ⟨i, rfl, h⟩
  simp only [goToInPlace, EStateM.run_bind, EStateM.run_modify, EStateM.run_get, hfound]
  rfl

theorem undoInPlace_run {e : Editor σ} (hw : e.history.WellFormed) :
    leaves .flag (undoInPlace.run e) = e.handle .undo := by
  simp only [undoInPlace, handle, undo, EStateM.run_bind, EStateM.run_get]
  cases hi : e.history.index with
  | none =>
    have hnone : e.history.undo? = none := by simp [History.undo?, History.canUndo, hi]
    rw [hnone]
    rfl
  | some j =>
    cases j with
    | zero =>
      have hnone : e.history.undo? = none := by simp [History.undo?, History.canUndo, hi]
      rw [hnone]
      rfl
    | succ i =>
      -- Only here the log must be sound: the program has moved before it looks for the entry.
      have hlt : i + 1 < e.history.entries.length := hw.index_lt (i + 1) hi
      have hentry : e.history.entries[i]? = some e.history.entries[i] :=
        List.getElem?_eq_getElem (by omega)
      rw [History.undo?_of_index hi hentry]
      exact goToInPlace_run hentry

theorem redoInPlace_run (e : Editor σ) : leaves .flag (redoInPlace.run e) = e.handle .redo := by
  simp only [redoInPlace, handle, redo, EStateM.run_bind, EStateM.run_get]
  cases hi : e.history.index with
  | none =>
    have hnone : e.history.redo? = none := by simp [History.redo?, History.canRedo, hi]
    rw [hnone]
    rfl
  | some i =>
    dsimp only
    split
    next hlt =>
      have hentry : e.history.entries[i + 1]? = some e.history.entries[i + 1] :=
        List.getElem?_eq_getElem hlt
      rw [History.redo?_of_index hi hentry]
      exact goToInPlace_run hentry
    next hend =>
      have hnone : e.history.redo? = none := by simp [History.redo?, History.canRedo, hi, hend]
      rw [hnone]
      rfl

theorem goTo_of_not {e : Editor σ} {found : Option (HistoryEntry × History)}
    (h : (e.goTo found).2 = false) : (e.goTo found).1 = e := by
  cases found with
  | none => rfl
  | some found => cases h

/-- The flag says whether any table has moved, so that without it the layout is the one before. -/
theorem commitPositions_of_not {e : Editor σ} {result : Positions Float × Bool}
    (hr : Positions.IsChange e.positions result) (h : (e.commitPositions result).2 = false) :
    (e.commitPositions result).1 = e := by
  unfold commitPositions at h ⊢
  split at h
  next => cases h
  next hf => rw [if_neg hf, hr.unchanged (Bool.eq_false_iff.mpr hf)]

theorem handle_of_asksForText_of_hasFailed {e : Editor σ} {event : EditorEvent}
    (hasks : event.asksForText = true) (h : event.hasFailed (e.handle event).2 = true) :
    (e.handle event).1 = e := by
  rcases handle_of_asksForText e hasks with ⟨_, _, _, _, he⟩ | ⟨_, he⟩
  · rw [he] at h
    cases EditorEvent.eq_false_of_hasFailed h
  · rw [he]

theorem handle_of_hasFailed (e : Editor σ) {event : EditorEvent}
    (h : event.hasFailed (e.handle event).2 = true) :
    (e.handle event).1 = if event.endsGesture then e.cancelGesture else e := by
  cases event with
  | edit text now => cases h
  | tick now => exact handle_of_asksForText_of_hasFailed rfl h
  | flushEdit => exact handle_of_asksForText_of_hasFailed rfl h
  | replaceSource text => cases h
  | beginDrag table => exact unlessRefused_of_hasFailed h
  | dragTo position => exact dragTo_of_not (EditorEvent.eq_false_of_hasFailed h)
  | beginPan => exact unlessRefused_of_hasFailed h
  | panBy shift => exact panBy_of_not (EditorEvent.eq_false_of_hasFailed h)
  | endGesture =>
    have hr : Positions.IsChange e.cancelGesture.positions e.gestureResult := isChange_gestureResult e
    exact commitPositions_of_not hr (EditorEvent.eq_false_of_hasFailed h)
  | cancelGesture => cases h
  | resetLayout =>
    have hr := Positions.isChange_stackVertically e.positions e.schema TextMetrics.standard
      e.settings.resetPadding
    exact commitPositions_of_not hr (EditorEvent.eq_false_of_hasFailed h)
  | toggleLock table => cases h
  | undo => exact goTo_of_not (EditorEvent.eq_false_of_hasFailed h)
  | redo => exact goTo_of_not (EditorEvent.eq_false_of_hasFailed h)
  | restore =>
    rcases handle_restore_cases e with ⟨_, _, he⟩ | ⟨_, he⟩
    · rw [he]
      rfl
    · rw [he] at h
      cases h

/-- The requests of a run without those that fail, unless they end a gesture. -/
def effective (e : Editor σ) : List EditorEvent → List EditorEvent
  | [] => []
  | event :: rest =>
    let others := (e.handle event).1.effective rest
    if event.hasFailed (e.handle event).2 && !event.endsGesture then others else event :: others

/-- A run goes as if what has failed on the way had never been asked. -/
theorem run_effective (e : Editor σ) (events : List EditorEvent) :
    e.run (e.effective events) = e.run events := by
  induction events generalizing e with
  | nil => rfl
  | cons event rest ih =>
    unfold effective
    split
    next h =>
      obtain ⟨hfailed, hends⟩ := Bool.and_eq_true_iff.mp h
      have hsame := handle_of_hasFailed e hfailed
      rw [if_neg (by simpa using hends)] at hsame
      have hrest := ih (e.handle event).1
      rw [run_cons, ← hrest, hsame]
    next => exact ih (e.handle event).1

/-- In every state that an editor can come to, a request that has failed leaves the editor as it was, less the
gesture that it was to end. So do the programs that write to the editor in place, which come to what the
requests come to. -/
theorem failed_requests_change_nothing {settings : EditorSettings} {e : Editor σ}
    (h : Reachable settings e) :
    (∀ event : EditorEvent, event.hasFailed (e.handle event).2 = true →
      (e.handle event).1 = if event.endsGesture then e.cancelGesture else e) ∧
    (∀ table, leaves (fun _ => .done) ((beginDragInPlace table).run e) = e.handle (.beginDrag table)) ∧
    leaves (fun _ => .done) (beginPanInPlace.run e) = e.handle .beginPan ∧
    leaves .flag (restoreInPlace.run e) = e.handle .restore ∧
    leaves .flag (undoInPlace.run e) = e.handle .undo ∧
    leaves .flag (redoInPlace.run e) = e.handle .redo := by
  have hw : e.history.WellFormed := h.settled.log_wellFormed
  exact ⟨fun _ hf => handle_of_hasFailed e hf, beginDragInPlace_run e, beginPanInPlace_run e,
    restoreInPlace_run e, undoInPlace_run hw, redoInPlace_run e⟩

/-- A store that refuses to be read, asked while a table is dragged and a text waits; then the drag ends where
it began. -/
theorem failed_requests_change_nothing_midDrag :
    let store : UnreliableStore := { memory := MemoryStore.empty, loadError := some .io }
    let e := (Editor.new store EditorSettings.standard).run
      [.replaceSource "Table a \x7b id int \x7d", .beginDrag "a", .edit "Table b \x7b \x7d" 5]
    (Reachable EditorSettings.standard e ∧ EditorEvent.restore.hasFailed (e.handle .restore).2 = true ∧
      EditorEvent.endGesture.hasFailed (e.handle .endGesture).2 = true) ∧
    (e.handle .restore).1 = e ∧ (e.handle .endGesture).1 = e.cancelGesture := by
  intro store e
  have hr : Reachable EditorSettings.standard e := Reachable.run (.start store) _
  have hrestore : EditorEvent.restore.hasFailed (e.handle .restore).2 = true := by decide +kernel
  have hend : EditorEvent.endGesture.hasFailed (e.handle .endGesture).2 = true := by decide +kernel
  obtain ⟨hunchanged, _⟩ := failed_requests_change_nothing hr
  exact ⟨⟨hr, hrestore, hend⟩, hunchanged .restore hrestore, hunchanged .endGesture hend⟩

end Editor

end SchemaDiagram
