import SchemaDiagram.EditorEvent
import SchemaDiagram.Proofs.EditorCoherence

namespace SchemaDiagram

namespace Editor

variable {σ : Type}

theorem Settled.unlessRefused {e : Editor σ} (h : e.Settled)
    {result : Except EditorError (Editor σ)} (hr : ∀ next, result = .ok next → e.Keeps next) :
    (e.unlessRefused result).1.Settled := by
  cases result with
  | error error => exact h
  | ok next => exact h.of_keeps (hr next rfl)

variable [KeyValueStore σ]

/-- The states that an editor can come to. Between two requests the store may turn into any other one:
what it holds and what it refuses is not up to the editor. -/
inductive Reachable (settings : EditorSettings) : Editor σ → Prop where
  | start (store : σ) : Reachable settings (new store settings)
  | handle {e : Editor σ} (event : EditorEvent) :
      Reachable settings e → Reachable settings (e.handle event).1
  | interfere {e : Editor σ} (store : σ) :
      Reachable settings e → Reachable settings { e with store }

theorem Reachable.run {settings : EditorSettings} {e : Editor σ} (h : Reachable settings e)
    (events : List EditorEvent) : Reachable settings (e.run events) := by
  induction events generalizing e with
  | nil => exact h
  | cons event rest ih => exact ih (h.handle event)

theorem Settled.handle {e : Editor σ} (h : e.Settled) (event : EditorEvent) :
    (e.handle event).1.Settled := by
  cases event with
  | edit text now => exact h.of_keeps (keeps_edit e text now)
  | tick now => exact h.commitHandedOut (e.pendingEdit.poll now)
  | flushEdit => exact h.commitHandedOut e.pendingEdit.flush
  | replaceSource text => exact settled_commitSource (h.of_keeps (keeps_cancelEdit e)).log text
  | beginDrag table => exact h.unlessRefused fun _ hn => (onlyGesture_beginDrag hn).keeps
  | dragTo position => exact h.of_keeps (onlyGesture_dragTo e position).keeps
  | beginPan => exact h.unlessRefused fun _ hn => (onlyGesture_beginPan hn).keeps
  | panBy shift => exact h.of_keeps (onlyGesture_panBy e shift).keeps
  | endGesture =>
    exact (h.of_keeps (onlyGesture_cancelGesture e).keeps).commitPositions (isChange_gestureResult e)
  | cancelGesture => exact h.of_keeps (onlyGesture_cancelGesture e).keeps
  | resetLayout =>
    exact h.commitPositions (Positions.isChange_stackVertically e.positions e.schema
      TextMetrics.standard e.settings.resetPadding)
  | toggleLock table => exact h.of_keeps (keeps_toggleLock e table)
  | undo => exact h.goTo fun _ _ hu => History.movesTo_of_undo? h.log_wellFormed hu
  | redo => exact h.goTo fun _ _ hr => History.movesTo_of_redo? h.log_wellFormed hr
  | restore =>
    simp only [Editor.handle]
    split
    next result hr => exact h.restore hr
    next => exact h

theorem Settled.run {e : Editor σ} (h : e.Settled) (events : List EditorEvent) :
    (e.run events).Settled := by
  induction events generalizing e with
  | nil => exact h
  | cons event rest ih => exact ih (h.handle event)

theorem Reachable.settled {settings : EditorSettings} {e : Editor σ} (h : Reachable settings e) :
    e.Settled := by
  induction h with
  | start store => exact settled_new store settings
  | handle event _ ih => exact ih.handle event
  | interfere store _ ih => exact ih.of_keeps ⟨rfl, rfl, rfl, rfl⟩

/-- Whatever is asked of an editor and whatever its store does, the text, the schema, the layout and
the log fit together. -/
theorem coherent_of_reachable {settings : EditorSettings} {e : Editor σ}
    (h : Reachable settings e) : e.Coherent :=
  h.settled.coherent

/-- An editor that cannot save, after a drag that began in another text and was taken back. -/
def afterStrayDrag : Editor UnreliableStore :=
  (new { saveError := some .io } EditorSettings.standard).run
    [.replaceSource "Table a \x7b id int \x7d", .beginDrag "a",
      .dragTo ⟨((7 : Nat) : Float), ((9 : Nat) : Float)⟩,
      .replaceSource "Table b \x7b id int \x7d", .endGesture, .undo]

theorem coherent_of_reachable_afterStrayDrag :
    (afterStrayDrag.source = "Table b \x7b id int \x7d" ∧
      afterStrayDrag.history.entries.length = 3 ∧ afterStrayDrag.positions.keys = ["a", "b"]) ∧
    Reachable EditorSettings.standard afterStrayDrag ∧ afterStrayDrag.Coherent := by
  have hr : Reachable EditorSettings.standard afterStrayDrag := Reachable.run (.start _) _
  exact ⟨by decide +kernel, hr, coherent_of_reachable hr⟩

end Editor

end SchemaDiagram
