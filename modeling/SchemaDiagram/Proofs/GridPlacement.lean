import Mathlib.Algebra.Order.Floor.Ring
import Mathlib.Data.Rat.Floor
import Mathlib.Logic.Function.Iterate
import SchemaDiagram.Proofs.FirstFields
import SchemaDiagram.Proofs.LayoutCoverage

namespace SchemaDiagram

section Rows

-- Fields of numbers are meant; the name stands for the fields of tables here.
variable {κ : Type} [DivisionRing κ] [LinearOrder κ] [FloorRing κ]

namespace Grid

/-- The number of places in a row: as many as begin before the wrap, but always the first one. -/
def columns (grid : Grid κ) : Nat :=
  (max 1 (⌊(grid.wrapX - grid.originX) / grid.cell⌋ + 1)).toNat

/-- The place in the column of the row, both counted from zero. -/
def placeAt (grid : Grid κ) (column row : Nat) : Position κ :=
  ⟨grid.originX + (column : κ) * grid.cell, grid.originY + (row : κ) * grid.cell⟩

theorem columns_pos (grid : Grid κ) : 0 < grid.columns := by
  unfold columns
  omega

omit [LinearOrder κ] [FloorRing κ] in
theorem add_mul_add_cell (grid : Grid κ) (start : κ) (count : Nat) :
    start + (count : κ) * grid.cell + grid.cell = start + ((count + 1 : Nat) : κ) * grid.cell := by
  rw [Nat.cast_add_one, add_one_mul, add_assoc]

variable [IsStrictOrderedRing κ] {grid : Grid κ} (hcell : 0 < grid.cell)

include hcell

/-- A row ends where its next place would be one too many. -/
theorem wrapX_lt_iff (column : Nat) :
    grid.wrapX < grid.originX + (column : κ) * grid.cell + grid.cell ↔ grid.columns ≤ column + 1 := by
  have hfloor : ⌊(grid.wrapX - grid.originX) / grid.cell⌋ < ((column + 1 : Nat) : ℤ) ↔
      grid.wrapX < grid.originX + (column : κ) * grid.cell + grid.cell := by
    rw [add_mul_add_cell, Int.floor_lt, div_lt_iff₀ hcell, sub_lt_iff_lt_add', Int.cast_natCast]
  rw [← hfloor]
  unfold columns
  omega

/-- One step along the grid. -/
theorem next_placeAt (column row : Nat) :
    grid.next (grid.placeAt column row) =
      if column + 1 < grid.columns then grid.placeAt (column + 1) row else grid.placeAt 0 (row + 1) := by
  have hwrap := wrapX_lt_iff hcell column
  unfold next placeAt
  by_cases hfits : column + 1 < grid.columns
  · have hstay : ¬ grid.wrapX < grid.originX + (column : κ) * grid.cell + grid.cell := by
      rw [hwrap]
      omega
    rw [if_neg hstay, if_pos hfits, add_mul_add_cell]
  · have hend : grid.wrapX < grid.originX + (column : κ) * grid.cell + grid.cell := by
      rw [hwrap]
      omega
    rw [if_pos hend, if_neg hfits, add_mul_add_cell, Nat.cast_zero, zero_mul, add_zero]

/-- A walk along the grid from its origin. -/
theorem iterate_next_origin (count : Nat) :
    grid.next^[count] grid.origin = grid.placeAt (count % grid.columns) (count / grid.columns) := by
  have hpos := grid.columns_pos
  induction count with
  | zero => simp [origin, placeAt]
  | succ count ih =>
    have hdivision := Nat.div_add_mod count grid.columns
    have hmod := Nat.mod_lt count hpos
    rw [Function.iterate_succ_apply', ih, next_placeAt hcell]
    split
    next hfits =>
      have hsame : (count + 1) / grid.columns = count / grid.columns ∧
          (count + 1) % grid.columns = count % grid.columns + 1 :=
        (Nat.div_mod_unique hpos).mpr ⟨by omega, hfits⟩
      rw [hsame.1, hsame.2]
    next hend =>
      have hnew : (count + 1) / grid.columns = count / grid.columns + 1 ∧
          (count + 1) % grid.columns = 0 := by
        refine (Nat.div_mod_unique hpos).mpr ⟨?_, hpos⟩
        rw [Nat.mul_add]
        omega
      rw [hnew.1, hnew.2]

theorem placeAt_inj {column column' row row' : Nat}
    (h : grid.placeAt column row = grid.placeAt column' row') : column = column' ∧ row = row' := by
  obtain ⟨hx, hy⟩ := Position.mk.inj h
  have hcolumn := mul_right_cancel₀ hcell.ne' (add_left_cancel hx)
  have hrow := mul_right_cancel₀ hcell.ne' (add_left_cancel hy)
  exact ⟨Nat.cast_injective hcolumn, Nat.cast_injective hrow⟩

theorem iterate_next_origin_inj {count count' : Nat}
    (h : grid.next^[count] grid.origin = grid.next^[count'] grid.origin) : count = count' := by
  rw [iterate_next_origin hcell, iterate_next_origin hcell] at h
  obtain ⟨hmod, hdiv⟩ := placeAt_inj hcell h
  rw [← Nat.div_add_mod count grid.columns, ← Nat.div_add_mod count' grid.columns, hmod, hdiv]

end Grid

end Rows

namespace Positions

variable {κ : Type}

/-- The tables of the schema that have no position, in order. -/
def newTables (positions : Positions κ) (schema : Schema) : List String :=
  schema.tableNames.filter fun name => !positions.contains name

variable [Add κ] [LT κ] [DecidableLT κ]

/-- A table that has just been placed counts no longer, and none comes twice; so the grid goes on by one place a
table. -/
theorem entries_placeFrom (grid : Grid κ) {names : List String} (hn : names.Nodup) (place : Position κ)
    (positions : Positions κ) :
    (placeFrom grid names place positions).entries = positions.entries ++
      (names.filter fun name => !positions.contains name).mapIdx
        fun k name => (name, grid.next^[k] place) := by
  induction names generalizing place positions with
  | nil => simp [placeFrom]
  | cons name rest ih =>
    obtain ⟨hname, hrest⟩ := List.nodup_cons.mp hn
    rw [placeFrom]
    by_cases hc : positions.contains name = true
    · rw [if_pos hc, ih hrest, List.filter_cons_of_neg (by simp [hc])]
    · have hkey : name ∉ positions.keys := by
        rwa [← OrderedMap.contains_iff_mem_keys]
      have hsame : ∀ other ∈ rest,
          (!(positions.insert name place).contains other) = !positions.contains other := by
        intro other hm
        have hne : name ≠ other := fun he => hname (he ▸ hm)
        rw [OrderedMap.contains_insert, decide_eq_false hne, Bool.false_or]
      rw [if_neg hc, ih hrest, List.filter_congr hsame, positions.entries_insert_of_not_mem hkey,
        List.filter_cons_of_pos (by simp [hc]), List.mapIdx_cons, List.append_assoc]
      rfl

theorem entries_placeNew (positions : Positions κ) (schema : Schema) (grid : Grid κ) :
    (positions.placeNew schema grid).entries = positions.entries ++
      (positions.newTables schema).mapIdx fun k name => (name, grid.next^[k] grid.origin) :=
  entries_placeFrom grid schema.tables.keys_nodup grid.origin positions

theorem get?_placeNew_of_some {positions : Positions κ} {name : String} {position : Position κ}
    (h : positions.get? name = some position) (schema : Schema) (grid : Grid κ) :
    (positions.placeNew schema grid).get? name = some position := by
  rw [← OrderedMap.mem_entries_iff] at h ⊢
  rw [entries_placeNew]
  exact List.mem_append_left _ h

theorem get?_foldl_placeNew_of_some (calls : List (Schema × Grid κ)) {positions : Positions κ}
    {name : String} {position : Position κ} (h : positions.get? name = some position) :
    (calls.foldl (fun positions call => positions.placeNew call.1 call.2) positions).get? name =
      some position := by
  induction calls generalizing positions with
  | nil => exact h
  | cons call rest ih => exact ih (get?_placeNew_of_some h call.1 call.2)

theorem get?_placeNew_newTables {positions : Positions κ} {schema : Schema} {name : String} {k : Nat}
    (h : (positions.newTables schema)[k]? = some name) (grid : Grid κ) :
    (positions.placeNew schema grid).get? name = some (grid.next^[k] grid.origin) := by
  obtain ⟨hk, rfl⟩ := List.getElem?_eq_some_iff.mp h
  rw [← OrderedMap.mem_entries_iff, entries_placeNew]
  exact List.mem_append_right _ (List.mem_mapIdx.mpr ⟨k, hk, rfl⟩)

end Positions

namespace Positions

/-- Two tables that are placed by one call are placed apart. -/
theorem get?_placeNew_ne {κ : Type} [DivisionRing κ] [LinearOrder κ] [IsStrictOrderedRing κ] [FloorRing κ]
    {positions : Positions κ} {schema : Schema} {grid : Grid κ} (hcell : 0 < grid.cell)
    {name other : String} (hname : name ∈ positions.newTables schema)
    (hother : other ∈ positions.newTables schema) (hne : name ≠ other) :
    (positions.placeNew schema grid).get? name ≠ (positions.placeNew schema grid).get? other := by
  obtain ⟨k, hk⟩ := List.mem_iff_getElem?.mp hname
  obtain ⟨k', hk'⟩ := List.mem_iff_getElem?.mp hother
  rw [get?_placeNew_newTables hk, get?_placeNew_newTables hk']
  intro heq
  have hcount := Grid.iterate_next_origin_inj hcell (Option.some.inj heq)
  rw [hcount, hk'] at hk
  exact hne (Option.some.inj hk).symm

/-- Placing new tables leaves the layout as it is and adds the tables without a position after it, in the order
of the schema, along the grid; a second call adds nothing, and no call ever moves what has a position. In exact
arithmetic, with cells of some size, the tables fill the rows of the grid one after the other, each at a place
of its own. -/
theorem placeNew_along_grid :
    (∀ (κ : Type) [Add κ] [LT κ] [DecidableLT κ] (positions : Positions κ) (schema : Schema)
        (grid : Grid κ),
      (positions.placeNew schema grid).entries = positions.entries ++
          (positions.newTables schema).mapIdx (fun k name => (name, grid.next^[k] grid.origin)) ∧
        (∀ again : Grid κ,
          (positions.placeNew schema grid).placeNew schema again = positions.placeNew schema grid) ∧
        ∀ (calls : List (Schema × Grid κ)) (name : String) (position : Position κ),
          positions.get? name = some position →
            (calls.foldl (fun positions call => positions.placeNew call.1 call.2) positions).get? name =
              some position) ∧
    ∀ (κ : Type) [DivisionRing κ] [LinearOrder κ] [IsStrictOrderedRing κ] [FloorRing κ]
        (positions : Positions κ) (schema : Schema) (grid : Grid κ), 0 < grid.cell →
      (positions.placeNew schema grid).entries = positions.entries ++
          (positions.newTables schema).mapIdx (fun k name =>
            (name, grid.placeAt (k % grid.columns) (k / grid.columns))) ∧
        ∀ name ∈ positions.newTables schema, ∀ other ∈ positions.newTables schema, name ≠ other →
          (positions.placeNew schema grid).get? name ≠ (positions.placeNew schema grid).get? other := by
  refine ⟨?_, ?_⟩
  · intro κ _ _ _ positions schema grid
    have hcovers := covers_placeNew positions schema grid
    refine ⟨entries_placeNew positions schema grid, fun again => placeNew_of_covers again hcovers, ?_⟩
    intro calls name position h
    exact get?_foldl_placeNew_of_some calls h
  · intro κ _ _ _ _ positions schema grid hcell
    refine ⟨?_, fun name hname other hother => get?_placeNew_ne hcell hname hother⟩
    rw [entries_placeNew]
    simp only [Grid.iterate_next_origin hcell]

/-- Two columns, a table that has a position and one that is absent. -/
theorem placeNew_along_grid_twoColumns :
    let schema := Schema.ofBlocks [⟨"a", []⟩, ⟨"b", []⟩, ⟨"c", []⟩, ⟨"d", []⟩]
    let positions : Positions ℚ := OrderedMap.ofList [("absent", ⟨7, 9⟩), ("b", ⟨0, 0⟩)]
    let grid : Grid ℚ := ⟨50, 60, 300, 400⟩
    (0 < grid.cell ∧ positions.get? "absent" = some ⟨7, 9⟩) ∧
      (positions.placeNew schema grid).entries = [("absent", ⟨7, 9⟩), ("b", ⟨0, 0⟩), ("a", ⟨50, 60⟩),
        ("c", ⟨350, 60⟩), ("d", ⟨50, 360⟩)] ∧
      (positions.placeNew schema grid).get? "a" ≠ (positions.placeNew schema grid).get? "d" ∧
      ((positions.placeNew schema grid).placeNew Schema.empty grid).get? "absent" = some ⟨7, 9⟩ := by
  intro schema positions grid
  have hcell : 0 < grid.cell := by decide +kernel
  have habsent : positions.get? "absent" = some ⟨7, 9⟩ := by decide +kernel
  obtain ⟨_, _, hkept⟩ := placeNew_along_grid.1 ℚ positions schema grid
  obtain ⟨hentries, hapart⟩ := placeNew_along_grid.2 ℚ positions schema grid hcell
  refine ⟨⟨hcell, habsent⟩, hentries.trans (by decide +kernel), ?_, ?_⟩
  · exact hapart "a" (by decide +kernel) "d" (by decide +kernel) (by decide)
  · exact hkept [(schema, grid), (Schema.empty, grid)] "absent" ⟨7, 9⟩ habsent

end Positions

end SchemaDiagram
