import Mathlib.Data.List.Basic
import SchemaDiagram.Layout

namespace SchemaDiagram

namespace Positions

variable {κ : Type}

section Storing

variable [BEq κ]

theorem snd_set (positions : Positions κ) (name : String) (place : Position κ) :
    (positions.set name place).2 = !(positions.get? name == some place) := by
  unfold set
  split
  next h => rw [h, Bool.not_true]
  next h => rw [Bool.eq_false_iff.mpr h, Bool.not_false]

theorem get?_set_of_ne {name other : String} (h : name ≠ other) (positions : Positions κ)
    (place : Position κ) : (positions.set name place).1.get? other = positions.get? other := by
  unfold set
  split
  next => rfl
  next => rw [OrderedMap.get?_insert, if_neg h]

/-- A place that compares equal to the old one is not stored, so the two need not be identical. -/
theorem exists_get?_set (positions : Positions κ) (name : String) (place : Position κ) :
    ∃ stored, (positions.set name place).1.get? name = some stored ∧
      (stored = place ∨ (stored == place) = true) := by
  unfold set
  split
  next h =>
    cases hold : positions.get? name with
    | none =>
      rw [hold] at h
      cases h
    | some old =>
      rw [hold] at h
      exact ⟨old, rfl, .inr h⟩
  next => exact ⟨place, by rw [OrderedMap.get?_insert, if_pos rfl], .inl rfl⟩

/-- Gives each name its place, one after the other, and tells whether that changed anything. -/
def setEach : List (String × Position κ) → Positions κ → Positions κ × Bool
  | [], positions => (positions, false)
  | (name, place) :: rest, positions =>
    let (positions, changed) := positions.set name place
    let (positions, more) := setEach rest positions
    (positions, changed || more)

theorem get?_setEach_of_not_mem {places : List (String × Position κ)} {name : String}
    (h : name ∉ places.map Prod.fst) (positions : Positions κ) :
    (setEach places positions).1.get? name = positions.get? name := by
  induction places generalizing positions with
  | nil => rfl
  | cons first rest ih =>
    obtain ⟨other, place⟩ := first
    rw [List.map_cons, List.mem_cons, not_or] at h
    exact (ih h.2 _).trans (get?_set_of_ne (Ne.symm h.1) positions place)

theorem exists_get?_setEach {places : List (String × Position κ)} (hn : (places.map Prod.fst).Nodup)
    {place : String × Position κ} (hm : place ∈ places) (positions : Positions κ) :
    ∃ stored, (setEach places positions).1.get? place.1 = some stored ∧
      (stored = place.2 ∨ (stored == place.2) = true) := by
  induction places generalizing positions with
  | nil => simp at hm
  | cons first rest ih =>
    obtain ⟨hfirst, hrest⟩ := List.nodup_cons.mp hn
    rcases List.mem_cons.mp hm with rfl | hm
    · obtain ⟨stored, hstored, hsame⟩ := exists_get?_set positions place.1 place.2
      exact ⟨stored, (get?_setEach_of_not_mem hfirst _).trans hstored, hsame⟩
    · exact ih hrest hm _

/-- No name comes twice, so each place is compared with the one that its name had at first. -/
theorem snd_setEach_iff {places : List (String × Position κ)} (hn : (places.map Prod.fst).Nodup)
    (positions : Positions κ) :
    (setEach places positions).2 = true ↔
      ∃ place ∈ places, (positions.get? place.1 == some place.2) = false := by
  induction places generalizing positions with
  | nil => simp [setEach]
  | cons first rest ih =>
    obtain ⟨name, place⟩ := first
    obtain ⟨hname, hrest⟩ := List.nodup_cons.mp hn
    have hlater : ∀ other ∈ rest,
        (positions.set name place).1.get? other.1 = positions.get? other.1 := by
      intro other hm
      have hne : name ≠ other.1 := by
        rintro rfl
        exact hname (List.mem_map.mpr ⟨other, hm, rfl⟩)
      exact get?_set_of_ne hne positions place
    have hmore : (∃ other ∈ rest,
        ((positions.set name place).1.get? other.1 == some other.2) = false) ↔
          ∃ other ∈ rest, (positions.get? other.1 == some other.2) = false :=
      exists_congr fun other => and_congr_right fun hm => by rw [hlater other hm]
    rw [setEach, Bool.or_eq_true_iff, snd_set, ih hrest, hmore, List.exists_mem_cons_iff,
      Bool.not_eq_true']

end Storing

section Shifting

variable [Add κ]

/-- The places of the named tables that have one, shifted. -/
def shifted (shift : Position κ) (names : List String) (positions : Positions κ) :
    List (String × Position κ) :=
  names.filterMap fun name => (positions.get? name).map fun place => (name, place.offset shift)

theorem map_fst_shifted (shift : Position κ) (names : List String) (positions : Positions κ) :
    (shifted shift names positions).map Prod.fst = names.filter positions.contains := by
  induction names with
  | nil => rfl
  | cons name rest ih =>
    cases hp : positions.get? name with
    | none => simp [shifted, hp, OrderedMap.contains, ← ih]
    | some place => simp [shifted, hp, OrderedMap.contains, ← ih]

theorem mem_shifted {shift : Position κ} {names : List String} {name : String} (hm : name ∈ names)
    {positions : Positions κ} {place : Position κ} (hp : positions.get? name = some place) :
    (name, place.offset shift) ∈ shifted shift names positions :=
  List.mem_filterMap.mpr ⟨name, hm, by rw [hp, Option.map_some]⟩

/-- No name comes twice, so each is shifted from where it was at first. -/
theorem translate_eq_setEach [BEq κ] (shift : Position κ) {names : List String} (hn : names.Nodup)
    (positions : Positions κ) :
    translate shift names positions = setEach (shifted shift names positions) positions := by
  induction names generalizing positions with
  | nil => rfl
  | cons name rest ih =>
    obtain ⟨hname, hrest⟩ := List.nodup_cons.mp hn
    cases hp : positions.get? name with
    | none =>
      simp only [translate, shifted, List.filterMap_cons, hp, Option.map_none]
      exact ih hrest positions
    | some place =>
      have hlater : shifted shift rest (positions.set name (place.offset shift)).1 =
          shifted shift rest positions := by
        refine List.filterMap_congr ?_
        intro other hm
        have hne : name ≠ other := fun he => hname (he ▸ hm)
        rw [get?_set_of_ne hne]
      have hfirst : shifted shift (name :: rest) positions =
          (name, place.offset shift) :: shifted shift rest positions := by
        simp [shifted, hp]
      rw [hfirst]
      simp only [translate, hp, setEach, ih hrest, hlater]

end Shifting

section Stacking

variable [NatCast κ] [Add κ] [Mul κ] [BEq κ] [LT κ] [DecidableLT κ]

/-- The places of the tables in a column that begins at the height. -/
def columnFrom (metrics : TextMetrics κ) (padding : κ) :
    List (String × Table) → κ → List (String × Position κ)
  | [], _ => []
  | (name, table) :: rest, y =>
    (name, ⟨padding, y⟩) :: columnFrom metrics padding rest (y + (metrics.tableHeight table + padding))

theorem stackFrom_eq_setEach (metrics : TextMetrics κ) (padding : κ) (tables : List (String × Table))
    (y : κ) (positions : Positions κ) :
    stackFrom metrics padding tables y positions =
      setEach (columnFrom metrics padding tables y) positions := by
  induction tables generalizing y positions with
  | nil => rfl
  | cons entry rest ih =>
    obtain ⟨name, table⟩ := entry
    simp only [stackFrom, columnFrom, setEach, ih]

theorem map_fst_columnFrom (metrics : TextMetrics κ) (padding : κ) (tables : List (String × Table))
    (y : κ) : (columnFrom metrics padding tables y).map Prod.fst = tables.map Prod.fst := by
  induction tables generalizing y with
  | nil => rfl
  | cons entry rest ih =>
    obtain ⟨name, table⟩ := entry
    rw [columnFrom, List.map_cons, List.map_cons, ih]

/-- The places of the tables of the schema in a column with a margin, in order. -/
def column (schema : Schema) (metrics : TextMetrics κ) (padding : κ) : List (String × Position κ) :=
  columnFrom metrics padding schema.tables.entries padding

theorem stackVertically_eq_setEach (positions : Positions κ) (schema : Schema)
    (metrics : TextMetrics κ) (padding : κ) :
    positions.stackVertically schema metrics padding = setEach (column schema metrics padding) positions :=
  stackFrom_eq_setEach metrics padding schema.tables.entries padding positions

theorem map_fst_column (schema : Schema) (metrics : TextMetrics κ) (padding : κ) :
    (column schema metrics padding).map Prod.fst = schema.tableNames :=
  map_fst_columnFrom metrics padding schema.tables.entries padding

theorem nodup_column (schema : Schema) (metrics : TextMetrics κ) (padding : κ) :
    ((column schema metrics padding).map Prod.fst).Nodup := by
  rw [map_fst_column]
  exact schema.tables.keys_nodup

end Stacking

end Positions

end SchemaDiagram
