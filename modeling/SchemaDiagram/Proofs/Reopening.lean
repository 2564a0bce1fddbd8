import SchemaDiagram.Proofs.Autosave

namespace SchemaDiagram

namespace History

theorem record_withCapacity (capacity : Nat) (entry : HistoryEntry) :
    ((withCapacity capacity).record entry).1 =
      { entries := [entry], index := some 0, capacity := max capacity 1 } := by
  have hnot : (withCapacity capacity).isCurrent entry = false := rfl
  rw [record_of_not_isCurrent (wellFormed_withCapacity capacity) hnot]
  simp [keptBefore, upToCurrent, withCapacity]

end History

namespace Editor

/-- The store knows the locks of the editor. -/
def LocksInStep (e : Editor MemoryStore) : Prop :=
  storedLocks e.store e.settings.locksKey = e.locks

theorem storedLocks_save (store : MemoryStore) (key : String) (locks : NameSet) :
    storedLocks (store.save key locks.toJson) key = locks := by
  have hload : KeyValueStore.load (store.save key locks.toJson) key = .ok (some locks.toJson) := by
    show Except.ok ((store.save key locks.toJson).load key) = _
    rw [MemoryStore.load_save, if_pos rfl]
  unfold storedLocks
  simp only [hload, NameSet.texts?_toJson, NameSet.ofList_names]

/-- Locks are saved at once, and saving the diagram does not touch them. -/
theorem LocksInStep.outcome {e next : Editor MemoryStore}
    (hk : e.settings.diagramKey ≠ e.settings.locksKey) (h : e.LocksInStep) {committed : Bool}
    (ho : Outcome e committed next) : next.LocksInStep := by
  cases ho with
  | rest _ hs =>
    unfold LocksInStep
    rw [hs.store, hs.settings, hs.locks]
    exact h
  | @commit next hs =>
    have hload : (next.store.save next.settings.diagramKey next.saved.toJson.sorted).load
        next.settings.locksKey = e.store.load e.settings.locksKey := by
      rw [MemoryStore.load_save, hs.settings, if_neg hk, hs.store]
    unfold LocksInStep at h ⊢
    show storedLocks _ _ = next.locks
    rw [hs.locks, ← h, ← hs.settings]
    rw [← hs.settings] at hload
    exact storedLocks_congr (congrArg Except.ok hload)
  | lock table => exact storedLocks_save e.store e.settings.locksKey _
  | adopt => exact h

theorem locksInStep_run {e : Editor MemoryStore} (hk : e.settings.diagramKey ≠ e.settings.locksKey)
    (h : e.LocksInStep) (events : List EditorEvent) : (e.run events).LocksInStep := by
  induction events generalizing e with
  | nil => exact h
  | cons event rest ih =>
    have ho := outcome_handle e event
    refine ih ?_ (h.outcome hk ho)
    rw [ho.settings]
    exact hk

/-- A text and a layout that can be read back are taken over. -/
theorem exists_restore_eq {e : Editor MemoryStore} {content : String} {positions : Positions Float}
    (hload : e.store.load e.settings.diagramKey =
      some (SavedDiagram.toJson ⟨content, some positions⟩).sorted)
    (hne : content ≠ "") (hf : positions.AllFinite) :
    ∃ saved, SavedDiagram.ofJson? (SavedDiagram.toJson ⟨content, some positions⟩).sorted = some saved ∧
      e.restore = .ok (e.adopt saved, true) := by
  obtain ⟨restored, hread, _⟩ := SavedDiagram.exists_ofJson?_sorted content hf
  have hvalue : KeyValueStore.load e.store e.settings.diagramKey =
      .ok (some (SavedDiagram.toJson ⟨content, some positions⟩).sorted) := congrArg Except.ok hload
  have hempty : content.isEmpty = false := by simpa using hne
  refine ⟨_, hread, ?_⟩
  unfold restore
  simp only [hvalue, hread, hempty, Bool.false_eq_true, if_false]

/-- Nothing that was committed is lost: a new editor over the same store finds it all. -/
theorem exists_reopened {settings : EditorSettings} (hk : settings.diagramKey ≠ settings.locksKey)
    (store : MemoryStore) {events : List EditorEvent}
    (hc : (new store settings).hasCommitted events = true) :
    let e := (new store settings).run events
    e.source ≠ "" → e.positions.AllFinite →
      ∃ reopened, (new e.store settings).restore = .ok (reopened, true) ∧
        reopened.source = e.source ∧ reopened.schema = e.schema ∧
        (∀ name, reopened.positions.get? name = e.positions.get? name) ∧
        reopened.locks = e.locks ∧
        ∃ entry, reopened.history.entries = [entry] ∧ reopened.history.current? = some entry ∧
          entry.source = reopened.source ∧ entry.positions = reopened.positions := by
  intro e hne hf
  have hsettings : e.settings = settings := settings_run _ events
  have hsettled : e.Settled := (Reachable.run (.start store) events).settled
  have hstep : e.InStep :=
    inStep_run (e := new store settings) hk (settled_new store settings) (.inr hc)
  have hlocks : e.LocksInStep := locksInStep_run (e := new store settings) hk rfl events
  unfold InStep at hstep
  unfold LocksInStep at hlocks
  rw [hsettings] at hstep hlocks
  obtain ⟨saved, hread, hrestore⟩ := exists_restore_eq (e := new e.store settings) hstep hne hf
  obtain ⟨restored, rfl, hget, hcovers⟩ := hsettled.exists_restored hread
  have hpositions := positions_adopt (new e.store settings) hcovers
  refine ⟨_, hrestore, rfl, hsettled.coherent.schema.symm, ?_, hlocks, ?_⟩
  · intro name
    rw [hpositions, hget]
  · have hrecord := History.record_withCapacity settings.historyCapacity
      (({ (new e.store settings).cancelEdit with positions := restored } : Editor MemoryStore).withSource
        e.source |>.entry .edit)
    refine ⟨_, congrArg History.entries hrecord, ?_, rfl, rfl⟩
    exact congrArg History.current? hrecord

/-- A layout with a place left of the origin, and a lock that was set before any text was there. -/
theorem exists_reopened_dragged :
    let e := (new MemoryStore.empty EditorSettings.standard).run [.toggleLock "b",
      .replaceSource "Table b \x7b id int \x7d Table a \x7b id int \x7d", .beginDrag "a",
      .dragTo ⟨Float.neg ((3 : Nat) : Float), ((4 : Nat) : Float)⟩, .endGesture]
    (EditorSettings.standard.diagramKey ≠ EditorSettings.standard.locksKey ∧ e.source ≠ "" ∧
      e.positions.AllFinite ∧ e.positions.keys = ["b", "a"] ∧ e.locks.names = ["b"] ∧
        e.history.entries.length = 2) ∧
    ∃ reopened, (new e.store EditorSettings.standard).restore = .ok (reopened, true) ∧
      reopened.source = e.source ∧ reopened.schema = e.schema ∧
      (∀ name, reopened.positions.get? name = e.positions.get? name) ∧
      reopened.locks = e.locks ∧
      ∃ entry, reopened.history.entries = [entry] ∧ reopened.history.current? = some entry ∧
        entry.source = reopened.source ∧ entry.positions = reopened.positions := by
  intro e
  have hk : EditorSettings.standard.diagramKey ≠ EditorSettings.standard.locksKey := by decide
  have hne : e.source ≠ "" := by decide +kernel
  have hf : e.positions.AllFinite := by decide +kernel
  refine ⟨⟨hk, hne, hf, by decide +kernel⟩, ?_⟩
  exact exists_reopened hk .empty (by decide +kernel) hne hf

end Editor

end SchemaDiagram
