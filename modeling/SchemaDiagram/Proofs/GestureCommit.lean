import SchemaDiagram.Proofs.EditorReach

namespace SchemaDiagram

namespace Positions

theorem get?_translate_of_not_mem {κ : Type} [BEq κ] [Add κ] (shift : Position κ) {names : List String}
    (hn : names.Nodup) {name : String} (h : name ∉ names) (positions : Positions κ) :
    (translate shift names positions).1.get? name = positions.get? name := by
  rw [translate_eq_setEach shift hn]
  refine get?_setEach_of_not_mem ?_ positions
  rw [map_fst_shifted]
  exact fun hm => h (List.mem_filter.mp hm).1

theorem exists_get?_translate (shift : Position Float) {names : List String} (hn : names.Nodup)
    {name : String} (hm : name ∈ names) {positions : Positions Float} {position : Position Float}
    (hp : positions.get? name = some position) :
    ∃ stored, (translate shift names positions).1.get? name = some stored ∧
      stored.Agrees (position.offset shift) := by
  have hshifted : ((shifted shift names positions).map Prod.fst).Nodup := by
    rw [map_fst_shifted]
    exact hn.filter _
  obtain ⟨stored, hstored, hsame⟩ := exists_get?_setEach hshifted (mem_shifted hm hp) positions
  rw [translate_eq_setEach shift hn]
  exact ⟨stored, hstored, Position.agrees_of_eq_or_beq hsame⟩

theorem Covers.exists_get? {κ : Type} {positions : Positions κ} {schema : Schema}
    (h : positions.Covers schema) {name : String} (hm : schema.tables.contains name = true) :
    ∃ position, positions.get? name = some position :=
  Option.isSome_iff_exists.mp (h name ((OrderedMap.contains_iff_mem_keys _ name).mp hm))

end Positions

namespace Editor

variable {σ : Type}

def drags (e : Editor σ) (name : String) : Bool :=
  match e.gesture with
  | some (.drag table _ _) => table == name
  | _ => false

/-- The pointer is back where its drag began, but the table has been put elsewhere meanwhile. -/
def isOvertaken (e : Editor σ) (name : String) : Bool :=
  match e.gesture with
  | some (.drag table start current) =>
    table == name && current == start && !(e.positions.get? name == some current)
  | _ => false

theorem get?_gestureResult_drag {e : Editor σ} {table : String} {start current : Position Float}
    (hg : e.gesture = some (.drag table start current)) {name : String} (hne : table ≠ name) :
    e.gestureResult.1.get? name = e.positions.get? name := by
  simp only [gestureResult, hg]
  split
  next => rfl
  next => exact Positions.get?_set_of_ne hne e.positions current

variable [KeyValueStore σ]

/-- What is drawn for the name now is stored for it once the gesture has ended. -/
def CommitsDrawn (e : Editor σ) (name : String) : Prop :=
  ∃ drawn stored, e.livePosition? name = some drawn ∧
    e.endGesture.1.positions.get? name = some stored ∧ stored.Agrees drawn

theorem positions_endGesture (e : Editor σ) : e.endGesture.1.positions = e.gestureResult.1 := by
  unfold endGesture commitPositions
  split <;> rfl

theorem commitsDrawn_of_unmoved {e : Editor σ} {name : String} {position : Position Float}
    (hp : e.positions.get? name = some position)
    (hlive : e.livePosition? name = e.positions.get? name)
    (hend : e.gestureResult.1.get? name = e.positions.get? name) : e.CommitsDrawn name :=
  ⟨position, position, hlive.trans hp, by rw [positions_endGesture, hend, hp], .refl position⟩

theorem commitsDrawn_of_drags {e : Editor σ} {name : String} (hd : e.drags name = true)
    (ho : e.isOvertaken name = false) : e.CommitsDrawn name := by
  unfold drags at hd
  split at hd
  next table start current hg =>
    have htable : table = name := by simpa using hd
    subst htable
    have hlive : e.livePosition? table = some current := by simp [livePosition?, hg]
    by_cases hback : (current == start) = true
    · -- The drag ends where it began and stores nothing, so the place must be the table's already.
      have hplace : (e.positions.get? table == some current) = true := by
        simpa [isOvertaken, hg, hback] using ho
      cases hp : e.positions.get? table with
      | none => rw [hp] at hplace; cases hplace
      | some stored =>
        rw [hp] at hplace
        refine ⟨current, stored, hlive, ?_, Position.agrees_of_beq hplace⟩
        rw [positions_endGesture, ← hp]
        simp only [gestureResult, hg, hback, if_true]
    · obtain ⟨stored, hs, hsame⟩ := Positions.exists_get?_set e.positions table current
      refine ⟨current, stored, hlive, ?_, Position.agrees_of_eq_or_beq hsame⟩
      rw [positions_endGesture, ← hs]
      simp only [gestureResult, hg, hback, if_false, Bool.false_eq_true]
  next => cases hd

theorem commitsDrawn_pan {e : Editor σ} {shift : Position Float} (hg : e.gesture = some (.pan shift))
    {name : String} (hm : e.schema.tables.contains name = true) {position : Position Float}
    (hp : e.positions.get? name = some position) : e.CommitsDrawn name := by
  have hlive : e.livePosition? name = some (position.offset shift) := by
    simp [livePosition?, hg, hm, hp]
  have hmem : name ∈ e.schema.tableNames := (OrderedMap.contains_iff_mem_keys _ name).mp hm
  obtain ⟨stored, hs, ha⟩ :=
    Positions.exists_get?_translate shift e.schema.tables.keys_nodup hmem hp
  refine ⟨_, stored, hlive, ?_, ha⟩
  rw [positions_endGesture]
  simp only [gestureResult, hg]
  exact hs

theorem commitsDrawn_of_contains {e : Editor σ} (hc : e.positions.Covers e.schema) {name : String}
    (hm : e.schema.tables.contains name = true) (hd : e.drags name = false) : e.CommitsDrawn name := by
  obtain ⟨position, hp⟩ := hc.exists_get? hm
  cases hg : e.gesture with
  | none => exact commitsDrawn_of_unmoved hp (by simp [livePosition?, hg]) (by simp [gestureResult, hg])
  | some gesture =>
    cases gesture with
    | drag table start current =>
      have hne : table ≠ name := by simpa [drags, hg] using hd
      exact commitsDrawn_of_unmoved hp (by simp [livePosition?, hg, hne])
        (get?_gestureResult_drag hg hne)
    | pan shift => exact commitsDrawn_pan hg hm hp

theorem get?_endGesture_of_not_contains {e : Editor σ} {name : String}
    (hm : e.schema.tables.contains name = false) (hd : e.drags name = false) :
    e.endGesture.1.positions.get? name = e.positions.get? name := by
  rw [positions_endGesture]
  cases hg : e.gesture with
  | none => simp only [gestureResult, hg]
  | some gesture =>
    cases gesture with
    | drag table start current =>
      have hne : table ≠ name := by simpa [drags, hg] using hd
      exact get?_gestureResult_drag hg hne
    | pan shift =>
      have hmem : name ∉ e.schema.tableNames := fun hmem => by
        rw [(OrderedMap.contains_iff_mem_keys _ name).mpr hmem] at hm
        cases hm
      simp only [gestureResult, hg]
      exact Positions.get?_translate_of_not_mem shift e.schema.tables.keys_nodup hmem e.positions

/-- However an editor got into the middle of a gesture, ending it stores what was drawn last for every
table of the schema and for the table that is dragged, whether or not it is still in the schema. No
other name moves. -/
theorem endGesture_commits_drawn {settings : EditorSettings} {e : Editor σ}
    (hr : Reachable settings e) (name : String) :
    (e.schema.tables.contains name = true ∨ e.drags name = true → e.isOvertaken name = false →
      e.CommitsDrawn name) ∧
    (e.schema.tables.contains name = false → e.drags name = false →
      e.endGesture.1.positions.get? name = e.positions.get? name) := by
  refine ⟨?_, get?_endGesture_of_not_contains⟩
  intro hname ho
  cases hd : e.drags name with
  | true => exact commitsDrawn_of_drags hd ho
  | false =>
    have hm := hname.resolve_right (by simp [hd])
    exact commitsDrawn_of_contains hr.settled.coherent.covers hm hd

/-- An editor with a table that is being dragged, after whatever came while it was. -/
def draggingTable (meanwhile : List EditorEvent) : Editor MemoryStore :=
  (new .empty EditorSettings.standard).run
    (.replaceSource "Table a \x7b id int \x7d" :: .beginDrag "a" :: meanwhile)

theorem reachable_draggingTable (meanwhile : List EditorEvent) :
    Reachable EditorSettings.standard (draggingTable meanwhile) :=
  Reachable.run (.start _) _

/-- The text and the layout change under the drag, and both the dragged table and a new one end up
where they were drawn. -/
theorem endGesture_commits_drawn_meanwhile :
    let e := draggingTable [.resetLayout, .dragTo ⟨((7 : Nat) : Float), ((9 : Nat) : Float)⟩,
      .replaceSource "Table b \x7b id int \x7d", .toggleLock "a"]
    Reachable EditorSettings.standard e ∧
      (e.drags "a" = true ∧ e.isOvertaken "a" = false ∧ e.CommitsDrawn "a") ∧
      (e.schema.tables.contains "b" = true ∧ e.isOvertaken "b" = false ∧ e.CommitsDrawn "b") ∧
      e.schema.tables.contains "c" = false ∧ e.drags "c" = false ∧
        e.endGesture.1.positions.get? "c" = e.positions.get? "c" := by
  intro e
  have hr : Reachable EditorSettings.standard e := reachable_draggingTable _
  have ha : e.drags "a" = true ∧ e.isOvertaken "a" = false := by decide +kernel
  have hb : e.schema.tables.contains "b" = true ∧ e.isOvertaken "b" = false := by decide +kernel
  have hc : e.schema.tables.contains "c" = false ∧ e.drags "c" = false := by decide +kernel
  exact ⟨hr, ⟨ha.1, ha.2, (endGesture_commits_drawn hr "a").1 (.inr ha.1) ha.2⟩,
    ⟨hb.1, hb.2, (endGesture_commits_drawn hr "b").1 (.inl hb.1) hb.2⟩,
    hc.1, hc.2, (endGesture_commits_drawn hr "c").2 hc.1 hc.2⟩

/-- A dragged table that has left the schema moves all the same. What is no number equals nothing, not
even itself. A table that was put elsewhere under a drag which ends where it began stays there. -/
theorem endGesture_exceptions :
    (∃ e : Editor MemoryStore, Reachable EditorSettings.standard e ∧ e.gesture.isSome = true ∧
      e.schema.tables.contains "a" = false ∧
        (e.endGesture.1.positions.get? "a" == e.positions.get? "a") = false) ∧
    (∃ e : Editor MemoryStore, Reachable EditorSettings.standard e ∧ e.gesture.isSome = true ∧
      e.schema.tables.contains "a" = true ∧ e.isOvertaken "a" = false ∧
        (e.endGesture.1.positions.get? "a" == e.livePosition? "a") = false) ∧
    ∃ e : Editor MemoryStore, Reachable EditorSettings.standard e ∧ e.gesture.isSome = true ∧
      e.schema.tables.contains "a" = true ∧ e.isOvertaken "a" = true ∧
        (e.endGesture.1.positions.get? "a" == e.livePosition? "a") = false := by
  refine ⟨⟨_, reachable_draggingTable [.dragTo ⟨((7 : Nat) : Float), ((9 : Nat) : Float)⟩,
      .replaceSource "Table b \x7b id int \x7d"], ?_⟩,
    ⟨_, reachable_draggingTable
      [.dragTo ⟨((0 : Nat) : Float) / ((0 : Nat) : Float), ((9 : Nat) : Float)⟩], ?_⟩,
    _, reachable_draggingTable [.resetLayout], ?_⟩
  · decide +kernel
  · decide +kernel
  · decide +kernel

end Editor

end SchemaDiagram
