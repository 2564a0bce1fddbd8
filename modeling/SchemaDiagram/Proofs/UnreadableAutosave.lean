import SchemaDiagram.Proofs.Autosave

namespace SchemaDiagram

namespace Editor

/-- No diagram has been saved yet, and no table has a place. -/
structure Blank (e : Editor MemoryStore) : Prop where
  unsaved : e.store.load e.settings.diagramKey = none
  positions : e.positions = .empty

theorem blank_new (settings : EditorSettings) : (new MemoryStore.empty settings).Blank := ⟨rfl, rfl⟩

theorem Blank.outcome {e next : Editor MemoryStore}
    (hk : e.settings.diagramKey ≠ e.settings.locksKey) (h : e.Blank) (ho : Outcome e false next) :
    next.Blank := by
  cases ho with
  | rest hkeeps hsame =>
    refine ⟨?_, hkeeps.positions.trans h.positions⟩
    rw [hsame.store, hsame.settings]
    exact h.unsaved
  | lock table =>
    refine ⟨?_, h.positions⟩
    show (e.store.save e.settings.locksKey _).load e.settings.diagramKey = none
    rw [MemoryStore.load_save, if_neg (Ne.symm hk)]
    exact h.unsaved
  | adopt hload _ =>
    -- A diagram that is taken over has been stored before.
    have hnone := Except.ok.inj hload
    rw [h.unsaved] at hnone
    cases hnone

theorem blank_or_inStep_run {e : Editor MemoryStore}
    (hk : e.settings.diagramKey ≠ e.settings.locksKey) (hs : e.Settled) (h : e.Blank)
    (events : List EditorEvent) : (e.run events).Blank ∨ (e.run events).InStep := by
  induction events generalizing e with
  | nil => exact .inl h
  | cons event rest ih =>
    have ho := outcome_handle e event
    have hk' : (e.handle event).1.settings.diagramKey ≠ (e.handle event).1.settings.locksKey := by
      rw [ho.settings]
      exact hk
    cases hc : event.commits (e.handle event).2 with
    | false =>
      rw [hc] at ho
      exact ih hk' (hs.handle event) (h.outcome hk ho)
    | true =>
      -- The first state that is committed is saved, and the store keeps in step from then on.
      rw [hc] at ho
      exact .inr (inStep_run hk' (hs.handle event) (.inl ho.inStep_of_commit))

section Reply

theorem reply_restore_of_load {σ : Type} [KeyValueStore σ] {e : Editor σ} {value : Json}
    (h : KeyValueStore.load e.store e.settings.diagramKey = .ok (some value)) :
    (SavedDiagram.ofJson? value = none ∧ (e.handle .restore).2 = .refused (.storage .json)) ∨
      ∃ saved b, SavedDiagram.ofJson? value = some saved ∧ (e.handle .restore).2 = .flag b := by
  cases hread : SavedDiagram.ofJson? value with
  | none =>
    left
    simp [handle, restore, h, hread]
  | some saved =>
    right
    cases hempty : saved.content.isEmpty with
    | true => exact ⟨saved, false, rfl, by simp [handle, restore, h, hread, hempty, flagged]⟩
    | false => exact ⟨saved, true, rfl, by simp [handle, restore, h, hread, hempty, flagged]⟩

variable {e : Editor MemoryStore}

theorem Blank.reply_restore (h : e.Blank) : (e.handle .restore).2 = .flag false := by
  have hload : KeyValueStore.load e.store e.settings.diagramKey = .ok none := congrArg Except.ok h.unsaved
  simp [handle, restore, hload, flagged]

theorem Blank.allFinite (h : e.Blank) : e.positions.AllFinite := by
  rw [h.positions]
  intro entry hm
  cases hm

/-- Restoring is either answered, from a layout without a bad coordinate, or refused as unreadable. -/
theorem reply_restore_cases (h : e.Blank ∨ e.InStep) :
    (e.positions.AllFinite ∧ ∃ b, (e.handle .restore).2 = .flag b) ∨
      (¬ e.positions.AllFinite ∧ (e.handle .restore).2 = .refused (.storage .json)) := by
  rcases h with h | h
  · exact .inl ⟨h.allFinite, false, h.reply_restore⟩
  · have hnone := SavedDiagram.ofJson?_sorted_eq_none_iff e.source e.positions
    have hload : KeyValueStore.load e.store e.settings.diagramKey =
        .ok (some (SavedDiagram.toJson ⟨e.source, some e.positions⟩).sorted) := congrArg Except.ok h
    rcases reply_restore_of_load hload with ⟨hread, hreply⟩ | ⟨saved, b, hread, hreply⟩
    · exact .inr ⟨hnone.mp hread, hreply⟩
    · refine .inl ⟨?_, b, hreply⟩
      by_contra hno
      rw [hnone.mpr hno] at hread
      cases hread

end Reply

/-- Of all that an editor may save over a store that was empty at first, it can read back just the layouts
whose coordinates are all finite. Any other coordinate is saved as null, which does not read as one, so that a
request to restore is refused, whatever was asked before. -/
theorem restore_refused_iff {settings : EditorSettings} (hk : settings.diagramKey ≠ settings.locksKey)
    (events : List EditorEvent) :
    let e := (new MemoryStore.empty settings).run events
    ((∃ error, (e.handle .restore).2 = .refused error) ↔ ¬ e.positions.AllFinite) ∧
      ∀ error, (e.handle .restore).2 = .refused error → error = .storage .json := by
  intro e
  have hstate : e.Blank ∨ e.InStep :=
    blank_or_inStep_run (e := new MemoryStore.empty settings) hk (settled_new _ settings)
      (blank_new settings) events
  rcases reply_restore_cases hstate with ⟨hfinite, b, hreply⟩ | ⟨hno, hreply⟩
  · rw [hreply]
    refine ⟨⟨?_, fun hno => absurd hfinite hno⟩, ?_⟩
    · rintro ⟨error, he⟩
      cases he
    · intro error he
      cases he
  · rw [hreply]
    refine ⟨⟨fun _ => hno, fun _ => ⟨_, rfl⟩⟩, ?_⟩
    intro error he
    cases he
    rfl

/-- Far away is not too far: a table at the edge of the doubles is found there again, in the middle of a
pan that would take it further. -/
theorem restore_refused_iff_far :
    let far : Float := 1e308
    let e := (new MemoryStore.empty EditorSettings.standard).run
      [.replaceSource "Table a \x7b id int \x7d", .beginDrag "a", .dragTo ⟨far, far⟩, .endGesture, .beginPan,
        .panBy ⟨far, far⟩]
    (EditorSettings.standard.diagramKey ≠ EditorSettings.standard.locksKey ∧ e.positions.AllFinite ∧
      e.positions.get? "a" = some ⟨far, far⟩ ∧ e.gesture.isSome = true) ∧
    ¬ ∃ error, (e.handle .restore).2 = .refused error := by
  intro far e
  have hk : EditorSettings.standard.diagramKey ≠ EditorSettings.standard.locksKey := by decide
  have hfinite : e.positions.AllFinite := by decide +kernel
  refine ⟨⟨hk, hfinite, by decide +kernel⟩, ?_⟩
  intro hrefused
  exact (restore_refused_iff hk _).1.mp hrefused hfinite

/-- Two shifts of a pan are finite, and their sum is not. The layout that is saved then can be read back
neither by the editor itself nor by one that is opened over its store, and the text goes with it. -/
theorem restore_refused_after_pan :
    let far : Float := 1e308
    let e := (new MemoryStore.empty EditorSettings.standard).run
      [.replaceSource "Table a \x7b id int \x7d", .beginPan, .panBy ⟨far, far⟩, .panBy ⟨far, far⟩,
        .endGesture]
    far.isFinite = true ∧ e.source = "Table a \x7b id int \x7d" ∧
      (e.handle .restore).2 = .refused (.storage .json) ∧
      ((new e.store EditorSettings.standard).handle .restore).2 = .refused (.storage .json) := by
  decide +kernel

end Editor

end SchemaDiagram
