import SchemaDiagram.Proofs.EditorReach

namespace SchemaDiagram

namespace History

theorem exists_index_of_undo? {h back : History} {entry : HistoryEntry}
    (hu : h.undo? = some (entry, back)) :
    ∃ i, h.index = some (i + 1) ∧ h.entries[i]? = some entry ∧ back = { h with index := some i } := by
  unfold undo? at hu
  split at hu
  next hc =>
    obtain ⟨found, hf, he⟩ := Option.map_eq_some_iff.mp hu
    cases he
    obtain ⟨j, hj, hpos⟩ := (Option.any_eq_true ..).mp hc
    have hlt : 0 < j := by simpa using hpos
    obtain ⟨i, rfl⟩ : ∃ i, j = i + 1 := ⟨j - 1, by omega⟩
    obtain ⟨k, hk, hentry⟩ := current?_eq_some_iff.mp hf
    have hki : k = i := by simpa [hj] using hk.symm
    subst hki
    exact ⟨k, hj, hentry, by simp [hj]⟩
  next => cases hu

theorem exists_index_of_redo? {h forward : History} {entry : HistoryEntry}
    (hr : h.redo? = some (entry, forward)) :
    ∃ i, h.index = some i ∧ h.entries[i + 1]? = some entry ∧
      forward = { h with index := some (i + 1) } := by
  unfold redo? at hr
  split at hr
  next hc =>
    obtain ⟨found, hf, he⟩ := Option.map_eq_some_iff.mp hr
    cases he
    obtain ⟨i, hi, _⟩ := (Option.any_eq_true ..).mp hc
    obtain ⟨k, hk, hentry⟩ := current?_eq_some_iff.mp hf
    have hki : k = i + 1 := by simpa [hi] using hk.symm
    subst hki
    exact ⟨i, hi, hentry, by simp [hi]⟩
  next => cases hr

theorem undo?_of_index {h : History} {i : Nat} {entry : HistoryEntry} (hi : h.index = some (i + 1))
    (he : h.entries[i]? = some entry) : h.undo? = some (entry, { h with index := some i }) := by
  simp [undo?, canUndo, current?, hi, he]

theorem redo?_of_index {h : History} {i : Nat} {entry : HistoryEntry} (hi : h.index = some i)
    (he : h.entries[i + 1]? = some entry) :
    h.redo? = some (entry, { h with index := some (i + 1) }) := by
  obtain ⟨hlt, rfl⟩ := List.getElem?_eq_some_iff.mp he
  simp [redo?, canRedo, current?, hi, hlt]

/-- What was taken back is found again, in the log as it was. -/
theorem exists_redo?_of_undo? {h back : History} (hw : h.WellFormed) {entry : HistoryEntry}
    (hu : h.undo? = some (entry, back)) :
    ∃ current, h.current? = some current ∧ back.redo? = some (current, h) := by
  obtain ⟨i, hi, _, rfl⟩ := exists_index_of_undo? hu
  have hlt : i + 1 < h.entries.length := hw.index_lt (i + 1) hi
  have he : h.entries[i + 1]? = some h.entries[i + 1] := List.getElem?_eq_getElem hlt
  refine ⟨h.entries[i + 1], current?_eq_some_iff.mpr ⟨i + 1, hi, he⟩, ?_⟩
  have hsame : { h with index := some (i + 1) } = h := by rw [← hi]
  exact (redo?_of_index (h := { h with index := some i }) rfl he).trans (by rw [hsame])

theorem exists_undo?_of_redo? {h forward : History} (hw : h.WellFormed) {entry : HistoryEntry}
    (hr : h.redo? = some (entry, forward)) :
    ∃ current, h.current? = some current ∧ forward.undo? = some (current, h) := by
  obtain ⟨i, hi, _, rfl⟩ := exists_index_of_redo? hr
  have hlt : i < h.entries.length := hw.index_lt i hi
  have he : h.entries[i]? = some h.entries[i] := List.getElem?_eq_getElem hlt
  refine ⟨h.entries[i], current?_eq_some_iff.mpr ⟨i, hi, he⟩, ?_⟩
  have hsame : { h with index := some i } = h := by rw [← hi]
  exact (undo?_of_index (h := { h with index := some (i + 1) }) rfl he).trans (by rw [hsame])

end History

namespace Editor

variable {σ : Type}

/-- The same text, schema and log, with the same coordinates for the same names. -/
structure SameState (e next : Editor σ) : Prop where
  source : next.source = e.source
  schema : next.schema = e.schema
  history : next.history = e.history
  positions : next.positions.Agrees e.positions

theorem SameState.refl (e : Editor σ) : e.SameState e := ⟨rfl, rfl, rfl, .refl e.positions⟩

/-- The log stands at its entry `i` and is the same otherwise; the text and the layout are those of the
entry, to the letter. -/
structure LandsOn (e : Editor σ) (i : Nat) (next : Editor σ) : Prop where
  history : next.history = { e.history with index := some i }
  entry : ∃ entry, e.history.entries[i]? = some entry ∧ next.source = entry.source ∧
    next.positions = entry.positions

/-- Moves `n` times, and tells whether every move was made. -/
def repeatMove (move : Editor σ → Editor σ × Bool) : Nat → Editor σ → Editor σ × Bool
  | 0, e => (e, true)
  | n + 1, e =>
    let (last, made) := repeatMove move n (move e).1
    (last, (move e).2 && made)

/-- The last move can be told apart instead of the first one. -/
theorem repeatMove_succ_last (move : Editor σ → Editor σ × Bool) (n : Nat) (e : Editor σ) :
    repeatMove move (n + 1) e =
      ((move (repeatMove move n e).1).1,
        (repeatMove move n e).2 && (move (repeatMove move n e).1).2) := by
  induction n generalizing e with
  | zero => simp [repeatMove]
  | succ n ih =>
    rw [repeatMove, ih]
    simp [repeatMove, Bool.and_assoc]

variable [KeyValueStore σ]

theorem Settled.positions_apply {e base : Editor σ} (h : e.Settled) {entry : HistoryEntry}
    (hm : entry ∈ e.history.entries) : (base.apply entry).positions = entry.positions :=
  Editor.positions_apply (h.coherent.log_covers entry hm)

/-- Going to the entry at which the editor is changes nothing but the spelling of its layout. -/
theorem Settled.sameState_apply {e : Editor σ} (h : e.Settled) {current : HistoryEntry}
    (hc : e.history.current? = some current) {base : Editor σ} (hb : base.history = e.history) :
    e.SameState (base.apply current) := by
  obtain ⟨found, hf, hsource, hagrees⟩ :=
    h.coherent.current (History.entries_ne_nil_of_current? hc)
  cases Option.some.inj (hc.symm.trans hf)
  refine ⟨hsource, ?_, hb, ?_⟩
  · rw [h.coherent.schema, ← hsource]
    rfl
  · rw [h.positions_apply (History.mem_of_current? hc)]
    exact hagrees

theorem exists_found_of_goTo {e : Editor σ} {found : Option (HistoryEntry × History)}
    (h : (e.goTo found).2 = true) : ∃ entry history, found = some (entry, history) := by
  cases found with
  | none => cases h
  | some found => exact ⟨found.1, found.2, rfl⟩

/-- Two ways through the log of which the second one takes back what the first one did. -/
structure TakesBack (find back : History → Option (HistoryEntry × History)) : Prop where
  movesTo : ∀ {h next : History} {entry : HistoryEntry}, h.WellFormed →
    find h = some (entry, next) → h.MovesTo entry next
  back : ∀ {h next : History} {entry : HistoryEntry}, h.WellFormed →
    find h = some (entry, next) → ∃ current, h.current? = some current ∧ back next = some (current, h)

theorem takesBack_undo : TakesBack History.undo? History.redo? where
  movesTo := fun hw hf => History.movesTo_of_undo? hw hf
  back := fun hw hf => History.exists_redo?_of_undo? hw hf

theorem takesBack_redo : TakesBack History.redo? History.undo? where
  movesTo := fun hw hf => History.movesTo_of_redo? hw hf
  back := fun hw hf => History.exists_undo?_of_redo? hw hf

/-- One step on a way through the log; undo and redo are such steps. -/
def follow (find : History → Option (HistoryEntry × History)) (e : Editor σ) : Editor σ × Bool :=
  e.goTo (find e.history)

theorem TakesBack.repeatMove {find back : History → Option (HistoryEntry × History)}
    (ht : TakesBack find back) {e : Editor σ} (h : e.Settled) {n : Nat}
    (hmade : (repeatMove (follow find) n e).2 = true) :
    (Editor.repeatMove (follow back) n (Editor.repeatMove (follow find) n e).1).2 = true ∧
      e.SameState (Editor.repeatMove (follow back) n (Editor.repeatMove (follow find) n e).1).1 := by
  induction n generalizing e with
  | zero => exact ⟨rfl, .refl e⟩
  | succ n ih =>
    obtain ⟨hfirst, hrest⟩ := Bool.and_eq_true_iff.mp hmade
    obtain ⟨entry, next, hf⟩ := exists_found_of_goTo hfirst
    have hsettled : (follow find e).1.Settled :=
      h.goTo fun _ _ he => ht.movesTo h.log_wellFormed he
    obtain ⟨hagain, hsame⟩ := ih hsettled hrest
    obtain ⟨current, hcurrent, hback⟩ := ht.back h.log_wellFormed hf
    -- The first `n` moves back lead to where the first move led, so one more leads to the start.
    have hnext : (follow find e).1.history = next := by
      simp only [follow, hf]
      rfl
    have hthere : (Editor.repeatMove (follow find) (n + 1) e).1 =
        (Editor.repeatMove (follow find) n (follow find e).1).1 := rfl
    rw [hthere, repeatMove_succ_last, follow, hsame.history, hnext, hback]
    exact ⟨Bool.and_eq_true_iff.mpr ⟨hagain, rfl⟩, h.sameState_apply hcurrent rfl⟩

theorem Settled.landsOn_goTo {e : Editor σ} (h : e.Settled) {i : Nat} {entry : HistoryEntry}
    (he : e.history.entries[i]? = some entry) :
    e.LandsOn i (e.goTo (some (entry, { e.history with index := some i }))).1 :=
  ⟨rfl, entry, he, rfl, h.positions_apply (List.mem_of_getElem? he)⟩

theorem Settled.undo_iff {e : Editor σ} (h : e.Settled) :
    e.undo.2 = true ↔ ∃ i, e.history.index = some (i + 1) ∧ e.LandsOn i e.undo.1 := by
  constructor
  · intro hu
    obtain ⟨entry, back, hf⟩ := exists_found_of_goTo hu
    obtain ⟨i, hi, he, rfl⟩ := History.exists_index_of_undo? hf
    refine ⟨i, hi, ?_⟩
    unfold Editor.undo
    rw [hf]
    exact h.landsOn_goTo he
  · rintro ⟨i, hi, hl⟩
    obtain ⟨entry, he, _⟩ := hl.entry
    unfold Editor.undo
    rw [History.undo?_of_index hi he]
    rfl

theorem Settled.redo_iff {e : Editor σ} (h : e.Settled) :
    e.redo.2 = true ↔ ∃ i, e.history.index = some i ∧ e.LandsOn (i + 1) e.redo.1 := by
  constructor
  · intro hu
    obtain ⟨entry, forward, hf⟩ := exists_found_of_goTo hu
    obtain ⟨i, hi, he, rfl⟩ := History.exists_index_of_redo? hf
    refine ⟨i, hi, ?_⟩
    unfold Editor.redo
    rw [hf]
    exact h.landsOn_goTo he
  · rintro ⟨i, hi, hl⟩
    obtain ⟨entry, he, _⟩ := hl.entry
    unfold Editor.redo
    rw [History.redo?_of_index hi he]
    rfl

/-- Undo and redo take each other back, however often and from wherever, and each of them leads to an
entry of the log and nowhere else. -/
theorem undo_redo_inverse {settings : EditorSettings} {e : Editor σ} (hr : Reachable settings e) :
    (∀ n, (repeatMove undo n e).2 = true →
      (repeatMove redo n (repeatMove undo n e).1).2 = true ∧
        e.SameState (repeatMove redo n (repeatMove undo n e).1).1) ∧
    (∀ n, (repeatMove redo n e).2 = true →
      (repeatMove undo n (repeatMove redo n e).1).2 = true ∧
        e.SameState (repeatMove undo n (repeatMove redo n e).1).1) ∧
    (e.undo.2 = true ↔ ∃ i, e.history.index = some (i + 1) ∧ e.LandsOn i e.undo.1) ∧
    (e.redo.2 = true ↔ ∃ i, e.history.index = some i ∧ e.LandsOn (i + 1) e.redo.1) :=
  ⟨fun _ h => takesBack_undo.repeatMove hr.settled h,
    fun _ h => takesBack_redo.repeatMove hr.settled h, hr.settled.undo_iff, hr.settled.redo_iff⟩

/-- A log of three states that has forgotten its first one, in the middle of a gesture. -/
def afterForgetting : Editor MemoryStore :=
  (new .empty { EditorSettings.standard with historyCapacity := 3 }).run
    [.replaceSource "Table a \x7b id int \x7d", .resetLayout, .beginDrag "a",
      .dragTo ⟨((7 : Nat) : Float), ((9 : Nat) : Float)⟩, .endGesture,
      .replaceSource "Table b \x7b id int \x7d", .beginPan]

theorem undo_redo_inverse_afterForgetting :
    let e := afterForgetting
    let back := e.undo.1
    (Reachable { EditorSettings.standard with historyCapacity := 3 } e ∧
      e.history.entries.length = 3 ∧ e.gesture.isSome = true ∧ e.positions.keys = ["a", "b"] ∧
      (repeatMove undo 2 e).2 = true ∧ (repeatMove undo 3 e).2 = false) ∧
    ((repeatMove redo 2 (repeatMove undo 2 e).1).2 = true ∧
      e.SameState (repeatMove redo 2 (repeatMove undo 2 e).1).1) ∧
    (Reachable { EditorSettings.standard with historyCapacity := 3 } back ∧
      (repeatMove redo 1 back).2 = true) ∧
    (repeatMove undo 1 (repeatMove redo 1 back).1).2 = true ∧
      back.SameState (repeatMove undo 1 (repeatMove redo 1 back).1).1 := by
  intro e back
  have hr : Reachable { EditorSettings.standard with historyCapacity := 3 } e :=
    Reachable.run (.start _) _
  have hb : Reachable { EditorSettings.standard with historyCapacity := 3 } back := hr.handle .undo
  have hu : (repeatMove undo 2 e).2 = true := by decide +kernel
  have hf : (repeatMove redo 1 back).2 = true := by decide +kernel
  exact ⟨⟨hr, by decide +kernel, by decide +kernel, by decide +kernel, hu, by decide +kernel⟩,
    (undo_redo_inverse hr).1 2 hu, ⟨hb, hf⟩, (undo_redo_inverse hb).2.1 1 hf⟩

end Editor

end SchemaDiagram
