import SchemaDiagram.Editor
import SchemaDiagram.Proofs.HistoryLog
import SchemaDiagram.Proofs.LayoutCoverage

namespace SchemaDiagram

/-- A sound log whose entries have a place for every table of their own text, so that going back and forward in
it needs no new places. -/
structure History.Covered (h : History) : Prop where
  wellFormed : h.WellFormed
  covers : ∀ entry ∈ h.entries, entry.positions.Covers (Schema.ofSource entry.source)

theorem Schema.ofSource_empty : ofSource "" = empty := by decide +kernel

namespace Editor

variable {σ : Type}

/-- What holds of an editor at rest. -/
structure Coherent (e : Editor σ) : Prop where
  schema : e.schema = Schema.ofSource e.source
  covers : e.positions.Covers e.schema
  /-- Before the first record there is no text and no layout. -/
  fresh : e.history.entries = [] → e.source = "" ∧ e.positions.entries = []
  /-- The log is where the editor is. -/
  current : e.history.entries ≠ [] → ∃ current, e.history.current? = some current ∧
    current.source = e.source ∧ current.positions.Agrees e.positions
  log_covers : ∀ entry ∈ e.history.entries, entry.positions.Covers (Schema.ofSource entry.source)

/-- What holds of an editor whose state is still to be recorded. -/
structure Consistent (e : Editor σ) : Prop where
  schema : e.schema = Schema.ofSource e.source
  covers : e.positions.Covers e.schema
  log : e.history.Covered

/-- Coherence as every operation keeps it: the log must be sound for the next record. -/
structure Settled (e : Editor σ) : Prop where
  coherent : e.Coherent
  log_wellFormed : e.history.WellFormed

/-- The second editor has the same text, schema, layout and log. -/
structure Keeps (e next : Editor σ) : Prop where
  source : next.source = e.source
  schema : next.schema = e.schema
  positions : next.positions = e.positions
  history : next.history = e.history

theorem Keeps.refl (e : Editor σ) : e.Keeps e := ⟨rfl, rfl, rfl, rfl⟩

theorem Settled.of_keeps {e next : Editor σ} (h : e.Settled) (hk : e.Keeps next) :
    next.Settled := by
  obtain ⟨hc, hw⟩ := h
  refine ⟨⟨?_, ?_, ?_, ?_, ?_⟩, ?_⟩
  · rw [hk.schema, hk.source]
    exact hc.schema
  · rw [hk.schema, hk.positions]
    exact hc.covers
  · rw [hk.history, hk.source, hk.positions]
    exact hc.fresh
  · rw [hk.history, hk.source, hk.positions]
    exact hc.current
  · rw [hk.history]
    exact hc.log_covers
  · rw [hk.history]
    exact hw

theorem Settled.log {e : Editor σ} (h : e.Settled) : e.history.Covered :=
  ⟨h.log_wellFormed, h.coherent.log_covers⟩

theorem keeps_cancelEdit (e : Editor σ) : e.Keeps e.cancelEdit := ⟨rfl, rfl, rfl, rfl⟩

theorem keeps_edit (e : Editor σ) (text : String) (now : Nat) : e.Keeps (e.edit text now) :=
  ⟨rfl, rfl, rfl, rfl⟩

/-- Nothing but the gesture may be different. -/
def OnlyGesture (e next : Editor σ) : Prop := ∃ gesture, next = { e with gesture }

theorem OnlyGesture.refl (e : Editor σ) : e.OnlyGesture e := ⟨e.gesture, rfl⟩

theorem OnlyGesture.keeps {e next : Editor σ} (h : e.OnlyGesture next) : e.Keeps next := by
  obtain ⟨gesture, rfl⟩ := h
  exact ⟨rfl, rfl, rfl, rfl⟩

/-- What a drag that is begun finds, and what it changes. -/
theorem exists_of_beginDrag {e next : Editor σ} {table : String} (h : e.beginDrag table = .ok next) :
    e.isLocked table = false ∧ ∃ start, e.positions.get? table = some start ∧
      next = { e with gesture := some (.drag table start start) } := by
  unfold beginDrag at h
  split at h
  · cases h
  · split at h
    · cases h
    next hlocked =>
      split at h
      · cases h
      · split at h
        · cases h
        next start hstart =>
          cases h
          exact ⟨Bool.eq_false_iff.mpr hlocked, start, hstart, rfl⟩

theorem onlyGesture_beginDrag {e next : Editor σ} {table : String}
    (h : e.beginDrag table = .ok next) : e.OnlyGesture next := by
  obtain ⟨_, start, _, rfl⟩ := exists_of_beginDrag h
  exact ⟨_, rfl⟩

theorem onlyGesture_cancelGesture (e : Editor σ) : e.OnlyGesture e.cancelGesture := ⟨none, rfl⟩

theorem onlyGesture_dragTo (e : Editor σ) (position : Position Float) :
    e.OnlyGesture (e.dragTo position).1 := by
  unfold dragTo
  split
  · exact ⟨_, rfl⟩
  · exact .refl e

theorem onlyGesture_beginPan {e next : Editor σ} (h : e.beginPan = .ok next) : e.OnlyGesture next := by
  unfold beginPan at h
  split at h
  · cases h
  · cases h
    exact ⟨_, rfl⟩

theorem onlyGesture_panBy (e : Editor σ) (shift : Position Float) :
    e.OnlyGesture (e.panBy shift).1 := by
  unfold panBy
  split
  · exact ⟨_, rfl⟩
  · exact .refl e

/-- A text that is taken has a place for each of its tables, whatever the layout was before. -/
theorem consistent_withSource {e : Editor σ} (hl : e.history.Covered) (text : String) :
    (e.withSource text).Consistent where
  schema := rfl
  covers := Positions.covers_placeNew e.positions (Schema.ofSource text) e.settings.grid
  log := hl

/-- The record brings the log to where the editor is, also when the log does not take the entry. -/
theorem Consistent.settled_record {e : Editor σ} (h : e.Consistent) (action : ActionKind) :
    (e.record action).Settled := by
  have hw := h.log.wellFormed
  obtain ⟨current, hcurrent, ha⟩ := History.exists_current_record hw (e.entry action)
  refine ⟨⟨h.schema, h.covers, ?_, ?_, ?_⟩, History.wellFormed_record hw _⟩
  · intro hempty
    exact absurd hempty (History.entries_ne_nil_of_current? hcurrent)
  · intro _
    exact ⟨current, hcurrent, ha.source, ha.positions⟩
  · intro entry hm
    rcases History.mem_of_mem_record hw hm with hold | hnew
    · exact h.log.covers entry hold
    · subst hnew
      have hc := h.covers
      rw [h.schema] at hc
      exact hc

theorem settled_adopt {e : Editor σ} (hl : e.history.Covered) (saved : SavedDiagram) :
    (e.adopt saved).Settled := by
  have hc := consistent_withSource
    (e := { e.cancelEdit with positions := saved.positions.getD e.positions }) hl saved.content
  exact hc.settled_record .edit

theorem isChange_gestureResult (e : Editor σ) : Positions.IsChange e.positions e.gestureResult := by
  unfold gestureResult
  split
  next table start current _ =>
    split
    · exact .refl e.positions
    · exact Positions.isChange_set e.positions table current
  next shift _ => exact Positions.isChange_translate shift e.schema.tables.keys_nodup e.positions
  next => exact .refl e.positions

variable [KeyValueStore σ]

theorem keeps_persist (e : Editor σ) : e.Keeps e.persist := ⟨rfl, rfl, rfl, rfl⟩

theorem keeps_toggleLock (e : Editor σ) (table : String) : e.Keeps (e.toggleLock table).1 :=
  ⟨rfl, rfl, rfl, rfl⟩

theorem settled_new (store : σ) (settings : EditorSettings) : (new store settings).Settled where
  coherent := by
    refine ⟨Schema.ofSource_empty.symm, ?_, ?_, ?_, ?_⟩
    · intro name hm
      cases hm
    · intro _
      exact ⟨rfl, rfl⟩
    · intro hne
      exact absurd rfl hne
    · intro entry hm
      cases hm
  log_wellFormed := History.wellFormed_withCapacity settings.historyCapacity

theorem settled_commitSource {e : Editor σ} (hl : e.history.Covered) (text : String) :
    (e.commitSource text).Settled :=
  ((consistent_withSource hl text).settled_record .edit).of_keeps (keeps_persist _)

theorem Settled.commitHandedOut {e : Editor σ} (h : e.Settled)
    (handedOut : Debouncer String × Option String) : (e.commitHandedOut handedOut).1.Settled := by
  unfold Editor.commitHandedOut
  split
  next pendingEdit text => exact settled_commitSource (e := { e with pendingEdit }) h.log text
  next pendingEdit => exact h.of_keeps ⟨rfl, rfl, rfl, rfl⟩

/-- A layout that is reported as changed is recorded, and one that is not is the layout in the log. -/
theorem Settled.commitPositions {e : Editor σ} (h : e.Settled) {result : Positions Float × Bool}
    (hr : Positions.IsChange e.positions result) : (e.commitPositions result).1.Settled := by
  unfold Editor.commitPositions
  split
  next =>
    have hc : ({ e with positions := result.1 } : Editor σ).Consistent :=
      ⟨h.coherent.schema, hr.covers h.coherent.covers, h.log⟩
    exact (hc.settled_record .move).of_keeps (keeps_persist _)
  next hf => exact h.of_keeps ⟨rfl, rfl, hr.unchanged (Bool.eq_false_iff.mpr hf), rfl⟩

/-- The tables of an entry have their places in the entry, so that applying it places none. -/
theorem positions_apply {e : Editor σ} {entry : HistoryEntry}
    (hc : entry.positions.Covers (Schema.ofSource entry.source)) :
    (e.apply entry).positions = entry.positions :=
  Positions.placeNew_of_covers e.settings.grid hc

theorem Settled.apply {e : Editor σ} (h : e.Settled) {entry : HistoryEntry} {history : History}
    (hm : e.history.MovesTo entry history) : ({ e with history }.apply entry).Settled := by
  have hentry := h.coherent.log_covers entry hm.mem
  have hp : ({ e with history }.apply entry).positions = entry.positions := positions_apply hentry
  refine ⟨⟨rfl, ?_, ?_, ?_, ?_⟩, hm.wellFormed⟩
  · rw [hp]
    exact hentry
  · intro hempty
    exact absurd hempty (History.entries_ne_nil_of_current? hm.current)
  · intro _
    refine ⟨entry, hm.current, rfl, ?_⟩
    rw [hp]
    exact .refl entry.positions
  · intro other ho
    change other ∈ history.entries at ho
    rw [hm.entries] at ho
    exact h.coherent.log_covers other ho

theorem Settled.goTo {e : Editor σ} (h : e.Settled) {found : Option (HistoryEntry × History)}
    (hf : ∀ entry history, found = some (entry, history) → e.history.MovesTo entry history) :
    (e.goTo found).1.Settled := by
  cases found with
  | none => exact h
  | some found =>
    obtain ⟨entry, history⟩ := found
    exact h.apply (hf entry history rfl)

/-- What is restored is what is saved and can be read, if there is a text in it. -/
theorem exists_of_restore {e : Editor σ} {result : Editor σ × Bool} (h : e.restore = .ok result) :
    result = (e, false) ∨ ∃ value saved,
      KeyValueStore.load e.store e.settings.diagramKey = .ok (some value) ∧
        SavedDiagram.ofJson? value = some saved ∧ result = (e.adopt saved, true) := by
  unfold Editor.restore at h
  split at h
  · cases h
  · cases h
    exact .inl rfl
  next value hvalue =>
    split at h
    · cases h
    next saved hsaved =>
      split at h
      · cases h
        exact .inl rfl
      · cases h
        exact .inr ⟨value, saved, hvalue, hsaved, rfl⟩

theorem Settled.restore {e : Editor σ} (h : e.Settled) {result : Editor σ × Bool}
    (hr : e.restore = .ok result) : result.1.Settled := by
  rcases exists_of_restore hr with rfl | ⟨_, saved, _, _, rfl⟩
  · exact h
  · exact settled_adopt h.log saved

end Editor

end SchemaDiagram
