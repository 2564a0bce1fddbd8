import Mathlib.Data.List.Induction
import SchemaDiagram.Proofs.GestureCommit
import SchemaDiagram.Proofs.RequestOutcome

namespace SchemaDiagram

/-- Whether the request flips the lock of the table. -/
def EditorEvent.flipsLock (table : String) : EditorEvent → Bool
  | .toggleLock name => name == table
  | _ => false

theorem NameSet.contains_toggle (s : NameSet) (name other : String) :
    (s.toggle name).contains other = ((name == other) ^^ s.contains other) := by
  by_cases h : name = other
  · subst h
    simp [contains_toggle_self]
  · have hother : (other == name) = false := beq_false_of_ne (Ne.symm h)
    have hname : (name == other) = false := beq_false_of_ne h
    unfold toggle
    split <;> simp [hother, hname, bne]

namespace Editor

variable {σ : Type}

/-- The second editor has the same locks, and the pointer is doing the same. -/
structure KeepsPointer (e next : Editor σ) : Prop where
  locks : next.locks = e.locks
  gesture : next.gesture = e.gesture

theorem drags_iff {e : Editor σ} {table : String} :
    e.drags table = true ↔ ∃ start current, e.gesture = some (.drag table start current) := by
  unfold drags
  split
  next name start current hg =>
    rw [beq_iff_eq, hg]
    constructor
    · rintro rfl
      exact ⟨start, current, rfl⟩
    · rintro ⟨_, _, he⟩
      cases he
      rfl
  next hno =>
    constructor
    · intro h
      cases h
    · rintro ⟨start, current, hg⟩
      exact absurd hg (hno table start current)

theorem KeepsPointer.drags {e next : Editor σ} (h : e.KeepsPointer next) (table : String) :
    next.drags table = e.drags table := by
  unfold Editor.drags
  rw [h.gesture]

theorem locks_unlessRefused {e : Editor σ} {result : Except EditorError (Editor σ)}
    (hr : ∀ next, result = .ok next → e.OnlyGesture next) : (e.unlessRefused result).1.locks = e.locks := by
  cases result with
  | error error => rfl
  | ok next => exact (hr next rfl).sameSurroundings.locks

theorem drags_beginDrag {e next : Editor σ} {table name : String} (h : e.beginDrag name = .ok next)
    (hd : next.drags table = true) : name = table := by
  obtain ⟨_, start, _, rfl⟩ := exists_of_beginDrag h
  exact beq_iff_eq.mp hd

theorem drags_dragTo (e : Editor σ) (position : Position Float) (table : String) :
    (e.dragTo position).1.drags table = e.drags table := by
  unfold dragTo
  split
  next hg => simp [drags, hg]
  next => rfl

theorem not_drags_of_beginPan {e next : Editor σ} (h : e.beginPan = .ok next) (table : String) :
    next.drags table = false := by
  unfold beginPan at h
  split at h
  · cases h
  · cases h
    rfl

theorem drags_panBy (e : Editor σ) (shift : Position Float) (table : String) :
    (e.panBy shift).1.drags table = e.drags table := by
  unfold panBy
  split
  next hg => simp [drags, hg]
  next => rfl

variable [KeyValueStore σ]

theorem keepsPointer_commitHandedOut (e : Editor σ) (handedOut : Debouncer String × Option String) :
    e.KeepsPointer (e.commitHandedOut handedOut).1 := by
  unfold commitHandedOut
  split <;> exact ⟨rfl, rfl⟩

theorem keepsPointer_commitPositions (e : Editor σ) (result : Positions Float × Bool) :
    e.KeepsPointer (e.commitPositions result).1 := by
  unfold commitPositions
  split <;> exact ⟨rfl, rfl⟩

theorem keepsPointer_restore (e : Editor σ) : e.KeepsPointer (e.handle .restore).1 := by
  rcases handle_restore_cases e with ⟨_, _, he⟩ | ⟨saved, he⟩
  · rw [he]
    exact ⟨rfl, rfl⟩
  · rw [he]
    exact ⟨rfl, rfl⟩

theorem locks_goTo (e : Editor σ) (found : Option (HistoryEntry × History)) :
    (e.goTo found).1.locks = e.locks := by
  cases found <;> rfl

theorem drags_of_goTo {e : Editor σ} {found : Option (HistoryEntry × History)} {table : String}
    (h : (e.goTo found).1.drags table = true) : e.drags table = true := by
  cases found with
  | none => exact h
  | some found => cases h

theorem isLocked_handle (e : Editor σ) (event : EditorEvent) (table : String) :
    (e.handle event).1.isLocked table = (event.flipsLock table ^^ e.isLocked table) := by
  -- One request flips a lock, and all others leave the locks as they are.
  have hkeep : (e.handle event).1.locks = e.locks → event.flipsLock table = false →
      (e.handle event).1.isLocked table = (event.flipsLock table ^^ e.isLocked table) := by
    intro hlocks hflips
    rw [hflips, Bool.false_xor, isLocked, hlocks, isLocked]
  cases event with
  | edit text now => exact hkeep rfl rfl
  | tick now => exact hkeep (keepsPointer_commitHandedOut e _).locks rfl
  | flushEdit => exact hkeep (keepsPointer_commitHandedOut e _).locks rfl
  | replaceSource text => exact hkeep rfl rfl
  | beginDrag name => exact hkeep (locks_unlessRefused fun _ hn => onlyGesture_beginDrag hn) rfl
  | dragTo position => exact hkeep (onlyGesture_dragTo e position).sameSurroundings.locks rfl
  | beginPan => exact hkeep (locks_unlessRefused fun _ hn => onlyGesture_beginPan hn) rfl
  | panBy shift => exact hkeep (onlyGesture_panBy e shift).sameSurroundings.locks rfl
  | endGesture => exact hkeep (keepsPointer_commitPositions e.cancelGesture _).locks rfl
  | cancelGesture => exact hkeep rfl rfl
  | resetLayout => exact hkeep (keepsPointer_commitPositions e _).locks rfl
  | toggleLock name => exact NameSet.contains_toggle e.locks name table
  | undo => exact hkeep (locks_goTo e _) rfl
  | redo => exact hkeep (locks_goTo e _) rfl
  | restore => exact hkeep (keepsPointer_restore e).locks rfl

/-- A drag after a request went on before it, or the request has begun it. -/
theorem drags_of_handle {e : Editor σ} {event : EditorEvent} {table : String}
    (h : (e.handle event).1.drags table = true) :
    e.drags table = true ∨ event = .beginDrag table ∧ ∃ next, e.beginDrag table = .ok next := by
  cases event with
  | edit text now => exact .inl h
  | tick now => exact .inl ((keepsPointer_commitHandedOut e _).drags table ▸ h)
  | flushEdit => exact .inl ((keepsPointer_commitHandedOut e _).drags table ▸ h)
  | replaceSource text => exact .inl h
  | beginDrag name =>
    simp only [handle] at h
    cases hb : e.beginDrag name with
    | error error =>
      rw [hb] at h
      exact .inl h
    | ok next =>
      rw [hb] at h
      obtain rfl := drags_beginDrag hb h
      exact .inr ⟨rfl, next, hb⟩
  | dragTo position => exact .inl (drags_dragTo e position table ▸ h)
  | beginPan =>
    simp only [handle] at h
    cases hb : e.beginPan with
    | error error =>
      rw [hb] at h
      exact .inl h
    | ok next =>
      rw [hb] at h
      have hno := not_drags_of_beginPan hb table
      exact absurd h (by simpa [unlessRefused] using hno)
  | panBy shift => exact .inl (drags_panBy e shift table ▸ h)
  | endGesture =>
    have hno : e.cancelGesture.drags table = false := rfl
    rw [← (keepsPointer_commitPositions e.cancelGesture e.gestureResult).drags table] at hno
    exact absurd h (by simpa [handle, flagged, endGesture] using hno)
  | cancelGesture => cases h
  | resetLayout => exact .inl ((keepsPointer_commitPositions e _).drags table ▸ h)
  | toggleLock name => exact .inl h
  | undo => exact .inl (drags_of_goTo h)
  | redo => exact .inl (drags_of_goTo h)
  | restore => exact .inl ((keepsPointer_restore e).drags table ▸ h)

theorem isLocked_run (e : Editor σ) (events : List EditorEvent) (table : String) :
    (e.run events).isLocked table =
      (decide (events.countP (·.flipsLock table) % 2 = 1) ^^ e.isLocked table) := by
  induction events generalizing e with
  | nil => simp
  | cons event rest ih =>
    rw [run_cons, ih, isLocked_handle, List.countP_cons]
    cases event.flipsLock table with
    | false => simp
    | true =>
      by_cases hodd : rest.countP (·.flipsLock table) % 2 = 1
      · have heven : ¬ (rest.countP (·.flipsLock table) + 1) % 2 = 1 := by omega
        simp [hodd, heven]
      · have hnext : (rest.countP (·.flipsLock table) + 1) % 2 = 1 := by omega
        simp [hodd, hnext]

/-- In a run from the editor, a drag of the table was begun after the first requests, when the table was
not locked, and it has gone on during all the others. -/
structure DragsSince (e : Editor σ) (before : List EditorEvent) (table : String)
    (during : List EditorEvent) : Prop where
  unlocked : (e.run before).isLocked table = false
  begun : ∃ next, (e.run before).beginDrag table = .ok next
  ongoing : ∀ part, part <+: during →
    (e.run (before ++ .beginDrag table :: part)).drags table = true

theorem exists_dragsSince {e : Editor σ} {table : String} (hno : e.drags table = false)
    {events : List EditorEvent} (hd : (e.run events).drags table = true) :
    ∃ before during, events = before ++ .beginDrag table :: during ∧ e.DragsSince before table during := by
  induction events using List.reverseRecOn with
  | nil =>
    rw [run_nil, hno] at hd
    cases hd
  | append_singleton events event ih =>
    have hlast : (e.run (events ++ [event])) = ((e.run events).handle event).1 := by
      rw [run_append, run_cons, run_nil]
    rw [hlast] at hd
    rcases drags_of_handle hd with hbefore | ⟨rfl, hbegun⟩
    · obtain ⟨before, during, rfl, hs⟩ := ih hbefore
      refine ⟨before, during ++ [event], by simp, hs.unlocked, hs.begun, ?_⟩
      intro part hpart
      rcases List.prefix_concat_iff.mp hpart with rfl | hearlier
      · rw [← hlast] at hd
        simpa using hd
      · exact hs.ongoing part hearlier
    · obtain ⟨next, hnext⟩ := hbegun
      refine ⟨events, [], rfl, (exists_of_beginDrag hnext).1, ⟨next, hnext⟩, ?_⟩
      intro part hpart
      obtain rfl := List.prefix_nil.mp hpart
      rw [hlast]
      exact hd

theorem DragsSince.isLocked_iff {e : Editor σ} {before during : List EditorEvent} {table : String}
    (h : e.DragsSince before table during) :
    (e.run (before ++ .beginDrag table :: during)).isLocked table = true ↔
      during.countP (·.flipsLock table) % 2 = 1 := by
  have hbeginning : (EditorEvent.beginDrag table).flipsLock table = false := rfl
  rw [run_append, run_cons, isLocked_run, isLocked_handle, h.unlocked, hbeginning, Bool.false_xor,
    Bool.xor_false, decide_eq_true_iff]

/-- The end of a drag moves no table but the one that is dragged. -/
theorem get?_endGesture_of_drags {e : Editor σ} {table name : String} (hd : e.drags table = true)
    (hne : name ≠ table) : e.endGesture.1.positions.get? name = e.positions.get? name := by
  obtain ⟨start, current, hg⟩ := drags_iff.mp hd
  rw [positions_endGesture]
  exact get?_gestureResult_drag hg (Ne.symm hne)

/-- The table of a drag was not locked when the drag began, and it is locked now just if its lock has been
flipped an odd number of times since. The end of the drag moves no locked table, unless it is this one
and was locked in that way. -/
theorem dragged_isLocked_iff (store : σ) (settings : EditorSettings) {events : List EditorEvent}
    {table : String} (hd : ((new store settings).run events).drags table = true) :
    let e := (new store settings).run events
    ∃ before during, events = before ++ .beginDrag table :: during ∧
      (new store settings).DragsSince before table during ∧
      (e.isLocked table = true ↔ during.countP (·.flipsLock table) % 2 = 1) ∧
      ∀ name, e.isLocked name = true →
        e.endGesture.1.positions.get? name = e.positions.get? name ∨
          name = table ∧ during.countP (·.flipsLock table) % 2 = 1 := by
  intro e
  have hno : (new store settings).drags table = false := rfl
  obtain ⟨before, during, rfl, hs⟩ := exists_dragsSince hno hd
  refine ⟨before, during, rfl, hs, hs.isLocked_iff, ?_⟩
  intro name hlocked
  by_cases hname : name = table
  · subst hname
    exact .inr ⟨rfl, hs.isLocked_iff.mp hlocked⟩
  · exact .inl (get?_endGesture_of_drags hd hname)

/-- The lock of the dragged table is flipped twice, and that of another one once. -/
theorem dragged_isLocked_iff_flippedTwice :
    let e := draggingTable [.toggleLock "a", .dragTo ⟨((7 : Nat) : Float), ((9 : Nat) : Float)⟩,
      .toggleLock "b", .replaceSource "Table b \x7b id int \x7d", .toggleLock "a"]
    e.drags "a" = true ∧ e.isLocked "a" = false ∧ e.isLocked "b" = true ∧
      e.endGesture.1.positions.get? "b" = e.positions.get? "b" := by
  intro e
  have hd : e.drags "a" = true := by decide +kernel
  have hb : e.isLocked "b" = true := by decide +kernel
  obtain ⟨before, during, hevents, _, hiff, hstay⟩ :=
    dragged_isLocked_iff MemoryStore.empty EditorSettings.standard hd
  refine ⟨hd, by decide +kernel, hb, ?_⟩
  rcases hstay "b" hb with hsame | ⟨hname, _⟩
  · exact hsame
  · exact absurd hname (by decide)

/-- A table that is locked in the middle of its drag is moved by the end of the drag all the same. -/
theorem locked_table_dragged :
    let e := draggingTable [.dragTo ⟨((7 : Nat) : Float), ((9 : Nat) : Float)⟩, .toggleLock "a"]
    Reachable EditorSettings.standard e ∧ e.drags "a" = true ∧ e.isLocked "a" = true ∧
      e.endGesture.2 = true ∧
      (e.positions.get? "a").map (·.x) = some ((50 : Nat) : Float) ∧
      (e.endGesture.1.positions.get? "a").map (·.x) = some ((7 : Nat) : Float) := by
  intro e
  exact ⟨reachable_draggingTable _, by decide +kernel⟩

end Editor

end SchemaDiagram
