import SchemaDiagram.Proofs.RequestOutcome
import SchemaDiagram.Proofs.StoredDiagram

namespace SchemaDiagram

namespace Editor

theorem positions_adopt {σ : Type} (e : Editor σ) {content : String} {positions : Positions Float}
    (hc : positions.Covers (Schema.ofSource content)) :
    (e.adopt ⟨content, some positions⟩).positions = positions :=
  Positions.placeNew_of_covers e.settings.grid hc

/-- What is stored for the diagram is the text and the layout. -/
def InStep (e : Editor MemoryStore) : Prop :=
  e.store.load e.settings.diagramKey =
    some (SavedDiagram.toJson ⟨e.source, some e.positions⟩).sorted

/-- What was saved of an editor at rest reads as its text with its layout, which has a place for every
table of that text. -/
theorem Settled.exists_restored {σ : Type} {e : Editor σ} (hs : e.Settled) {saved : SavedDiagram}
    (h : SavedDiagram.ofJson? (SavedDiagram.toJson ⟨e.source, some e.positions⟩).sorted = some saved) :
    ∃ restored, saved = ⟨e.source, some restored⟩ ∧
      (∀ name, restored.get? name = e.positions.get? name) ∧
        restored.Covers (Schema.ofSource e.source) := by
  rw [SavedDiagram.ofJson?_sorted] at h
  obtain ⟨restored, hr, rfl⟩ := Option.map_eq_some_iff.mp h
  have hget := Positions.get?_of_ofJson?_sorted hr
  refine ⟨restored, rfl, hget, ?_⟩
  intro name hm
  have hcovers := hs.coherent.covers name (hs.coherent.schema ▸ hm)
  unfold OrderedMap.contains at hcovers ⊢
  rw [hget, hcovers]

section Memory

variable {e next : Editor MemoryStore}

theorem Outcome.inStep_of_commit (h : Outcome e true next) : next.InStep := by
  cases h with
  | @commit next _ =>
    show (next.store.save next.settings.diagramKey next.saved.toJson.sorted).load
      next.settings.diagramKey = _
    rw [MemoryStore.load_save, if_pos rfl]
    rfl

/-- An editor in step stays so, also when it takes over what it has saved itself: that is the state
that it is in, up to the order of names. -/
theorem InStep.outcome (hk : e.settings.diagramKey ≠ e.settings.locksKey) (hs : e.Settled)
    (h : e.InStep) {committed : Bool} (ho : Outcome e committed next) : next.InStep := by
  cases ho with
  | rest hkeeps hsame =>
    unfold InStep
    rw [hsame.store, hsame.settings, hkeeps.source, hkeeps.positions]
    exact h
  | commit hsame => exact Outcome.inStep_of_commit (.commit hsame)
  | lock table =>
    show (e.store.save e.settings.locksKey _).load e.settings.diagramKey = _
    rw [MemoryStore.load_save, if_neg (Ne.symm hk)]
    exact h
  | @adopt value saved hload hread =>
    have hvalue : value = (SavedDiagram.toJson ⟨e.source, some e.positions⟩).sorted :=
      Option.some.inj ((Except.ok.inj hload).symm.trans h)
    rw [hvalue] at hread
    obtain ⟨restored, rfl, hget, hcovers⟩ := hs.exists_restored hread
    have hstored := SavedDiagram.sorted_toJson_congr e.source hget
    show e.store.load e.settings.diagramKey = some (SavedDiagram.toJson
      ⟨e.source, some (e.adopt ⟨e.source, some restored⟩).positions⟩).sorted
    rw [positions_adopt e hcovers, hstored]
    exact h

theorem inStep_run (hk : e.settings.diagramKey ≠ e.settings.locksKey) (hs : e.Settled)
    {events : List EditorEvent} (h : e.InStep ∨ e.hasCommitted events = true) :
    (e.run events).InStep := by
  induction events generalizing e with
  | nil => exact h.resolve_right Bool.false_ne_true
  | cons event rest ih =>
    have ho := outcome_handle e event
    have hk' : (e.handle event).1.settings.diagramKey ≠ (e.handle event).1.settings.locksKey := by
      rw [ho.settings]
      exact hk
    refine ih hk' (hs.handle event) ?_
    rcases h with h | h
    · exact .inl (h.outcome hk hs ho)
    · rcases Bool.or_eq_true_iff.mp h with hnow | hlater
      · rw [hnow] at ho
        exact .inl ho.inStep_of_commit
      · exact .inr hlater

end Memory

/-- As soon as one state has been committed, whatever else is asked of the editor leaves the diagram saved as
it is, with the text and with both coordinates of every table; if all of them are finite, it reads back as just
that. All that is ever done to the store is to save under its two keys, so that all other keys keep their
values. -/
theorem diagram_saved_of_hasCommitted {settings : EditorSettings}
    (hk : settings.diagramKey ≠ settings.locksKey) (store : MemoryStore)
    (events : List EditorEvent) :
    let e := (new store settings).run events
    ((new store settings).hasCommitted events = true →
      ∃ value, e.store.load settings.diagramKey = some value ∧
        value.HoldsDiagram e.source e.positions ∧
        (e.positions.AllFinite → ∃ restored, SavedDiagram.ofJson? value = some ⟨e.source, some restored⟩ ∧
          ∀ name, restored.get? name = e.positions.get? name)) ∧
    (∃ writes : List (String × Json),
      (∀ write ∈ writes, write.1 = settings.diagramKey ∨ write.1 = settings.locksKey) ∧
        e.store = saveAll store writes) ∧
    ∀ key, key ≠ settings.diagramKey → key ≠ settings.locksKey →
      e.store.load key = store.load key := by
  intro e
  obtain ⟨writes, hown, hstore⟩ := exists_writes_run (new store settings) events
  refine ⟨?_, ⟨writes, hown, hstore⟩, ?_⟩
  · intro hc
    have h : e.InStep := inStep_run (e := new store settings) hk (settled_new store settings) (.inr hc)
    have hsettings : e.settings = settings := settings_run _ events
    unfold InStep at h
    rw [hsettings] at h
    exact ⟨_, h, SavedDiagram.holdsDiagram_sorted e.source e.positions,
      SavedDiagram.exists_ofJson?_sorted e.source⟩
  · intro key hd hl
    have hother : ∀ write ∈ writes, write.1 ≠ key := by
      intro write hm he
      rcases hown write hm with hw | hw
      · exact hd (he.symm.trans hw)
      · exact hl (he.symm.trans hw)
    exact (congrArg (MemoryStore.load · key) hstore).trans (MemoryStore.load_saveAll hother store)

/-- The last commit is long past: the saved diagram is taken over in the middle of a pan, after a lock has been
flipped and a drag has been refused. Its two tables are found in the store at the places that they were moved
to or given. -/
theorem diagram_saved_of_hasCommitted_restored :
    let store := MemoryStore.empty.save "theme" (.string "dark")
    let source := "Table b \x7b id int \x7d Table a \x7b id int \x7d"
    let e := (new store EditorSettings.standard).run [.restore, .replaceSource source, .beginDrag "b",
      .dragTo ⟨((3 : Nat) : Float), ((4 : Nat) : Float)⟩, .endGesture, .toggleLock "a", .beginDrag "a",
      .beginPan, .panBy ⟨((5 : Nat) : Float), ((6 : Nat) : Float)⟩, .restore]
    EditorSettings.standard.diagramKey ≠ EditorSettings.standard.locksKey ∧
      (∃ members,
        e.store.load EditorSettings.standard.diagramKey =
          some (.object [("content", .string source), ("positions", .object members)]) ∧
        lookupEntry "b" members =
          some (.object [("x", .float ((3 : Nat) : Float)), ("y", .float ((4 : Nat) : Float))]) ∧
        lookupEntry "c" members = none) ∧
      e.store.load "theme" = some (.string "dark") := by
  intro store source e
  have hk : EditorSettings.standard.diagramKey ≠ EditorSettings.standard.locksKey := by decide
  obtain ⟨hsaved, _, hother⟩ :=
    diagram_saved_of_hasCommitted hk store
      [.restore, .replaceSource source, .beginDrag "b",
        .dragTo ⟨((3 : Nat) : Float), ((4 : Nat) : Float)⟩, .endGesture, .toggleLock "a", .beginDrag "a",
        .beginPan, .panBy ⟨((5 : Nat) : Float), ((6 : Nat) : Float)⟩, .restore]
  obtain ⟨value, hload, ⟨members, rfl, hmembers⟩, _⟩ := hsaved (by decide +kernel)
  have hsource : e.source = source := by decide +kernel
  have hb : e.positions.get? "b" = some ⟨((3 : Nat) : Float), ((4 : Nat) : Float)⟩ := by decide +kernel
  have hc : e.positions.get? "c" = none := by decide +kernel
  refine ⟨hk, ⟨members, ?_, ?_, ?_⟩, hother "theme" (by decide) (by decide)⟩
  · rw [← hsource]
    exact hload
  · rw [hmembers.member, hb]
    rfl
  · rw [hmembers.member, hc]
    rfl

end Editor

end SchemaDiagram
