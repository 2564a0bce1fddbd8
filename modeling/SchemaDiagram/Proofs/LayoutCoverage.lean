import SchemaDiagram.Proofs.StoredPlaces

namespace SchemaDiagram

namespace Positions

variable {κ : Type}

/-- Every table of the schema has a position. -/
def Covers (positions : Positions κ) (schema : Schema) : Prop :=
  ∀ name ∈ schema.tableNames, positions.contains name = true

theorem contains_insert_of_contains {positions : Positions κ} {name : String}
    (h : positions.contains name = true) (other : String) (position : Position κ) :
    (positions.insert other position).contains name = true := by
  rw [OrderedMap.contains_insert, h, Bool.or_true]

theorem contains_insert_self (positions : Positions κ) (name : String) (position : Position κ) :
    (positions.insert name position).contains name = true := by
  simp [OrderedMap.contains_insert]

section Placing

variable [Add κ] [LT κ] [DecidableLT κ]

theorem contains_placeFrom (grid : Grid κ) (names : List String) (place : Position κ)
    {positions : Positions κ} {name : String} (h : positions.contains name = true) :
    (placeFrom grid names place positions).contains name = true := by
  induction names generalizing place positions with
  | nil => exact h
  | cons other rest ih =>
    unfold placeFrom
    split
    · exact ih place h
    · exact ih (grid.next place) (contains_insert_of_contains h other place)

theorem contains_placeFrom_of_mem (grid : Grid κ) {names : List String} (place : Position κ)
    (positions : Positions κ) {name : String} (h : name ∈ names) :
    (placeFrom grid names place positions).contains name = true := by
  induction names generalizing place positions with
  | nil => simp at h
  | cons other rest ih =>
    unfold placeFrom
    rcases List.mem_cons.mp h with he | hrest
    · subst he
      split
      next hc => exact contains_placeFrom grid rest place hc
      next => exact contains_placeFrom grid rest _ (contains_insert_self positions name place)
    · split
      · exact ih place positions hrest
      · exact ih (grid.next place) (positions.insert other place) hrest

theorem placeFrom_of_contains (grid : Grid κ) {names : List String} (place : Position κ)
    {positions : Positions κ} (h : ∀ name ∈ names, positions.contains name = true) :
    placeFrom grid names place positions = positions := by
  induction names with
  | nil => rfl
  | cons name rest ih =>
    have hname := h name List.mem_cons_self
    have hrest := ih fun other hm => h other (List.mem_cons_of_mem name hm)
    simp [placeFrom, hname, hrest]

theorem covers_placeNew (positions : Positions κ) (schema : Schema) (grid : Grid κ) :
    (positions.placeNew schema grid).Covers schema :=
  fun _ hm => contains_placeFrom_of_mem grid grid.origin positions hm

theorem placeNew_of_covers {positions : Positions κ} {schema : Schema} (grid : Grid κ)
    (h : positions.Covers schema) : positions.placeNew schema grid = positions :=
  placeFrom_of_contains grid grid.origin h

end Placing

/-- A layout with the report whether it differs from the one before. Tables keep having a place, and
without a report nothing has changed. -/
structure IsChange (before : Positions κ) (after : Positions κ × Bool) : Prop where
  contains : ∀ name, before.contains name = true → after.1.contains name = true
  unchanged : after.2 = false → after.1 = before

namespace IsChange

theorem refl (positions : Positions κ) : IsChange positions (positions, false) :=
  ⟨fun _ h => h, fun _ => rfl⟩

theorem trans {before : Positions κ} {between after : Positions κ × Bool}
    (h : IsChange before between) (h' : IsChange between.1 after) :
    IsChange before (after.1, between.2 || after.2) := by
  refine ⟨fun name hc => h'.contains name (h.contains name hc), ?_⟩
  intro hf
  obtain ⟨hb, ha⟩ := Bool.or_eq_false_iff.mp hf
  exact (h'.unchanged ha).trans (h.unchanged hb)

theorem covers {before : Positions κ} {after : Positions κ × Bool} (h : IsChange before after)
    {schema : Schema} (hc : before.Covers schema) : after.1.Covers schema :=
  fun name hm => h.contains name (hc name hm)

end IsChange

theorem isChange_set [BEq κ] (positions : Positions κ) (name : String) (position : Position κ) :
    IsChange positions (positions.set name position) := by
  unfold set
  split
  · exact .refl positions
  · refine ⟨fun other h => contains_insert_of_contains h name position, ?_⟩
    intro hf
    cases hf

theorem isChange_setEach [BEq κ] (places : List (String × Position κ)) (positions : Positions κ) :
    IsChange positions (setEach places positions) := by
  induction places generalizing positions with
  | nil => exact .refl positions
  | cons first rest ih => exact (isChange_set positions first.1 first.2).trans (ih _)

theorem isChange_translate [BEq κ] [Add κ] (shift : Position κ) {names : List String}
    (hn : names.Nodup) (positions : Positions κ) :
    IsChange positions (translate shift names positions) := by
  rw [translate_eq_setEach shift hn]
  exact isChange_setEach _ positions

theorem isChange_stackVertically [NatCast κ] [Add κ] [Mul κ] [BEq κ] [LT κ] [DecidableLT κ]
    (positions : Positions κ) (schema : Schema) (metrics : TextMetrics κ) (padding : κ) :
    IsChange positions (positions.stackVertically schema metrics padding) := by
  rw [stackVertically_eq_setEach]
  exact isChange_setEach _ positions

end Positions

end SchemaDiagram
