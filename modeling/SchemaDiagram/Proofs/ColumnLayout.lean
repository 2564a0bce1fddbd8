import Mathlib.Algebra.Order.BigOperators.Group.List
import Mathlib.Algebra.Order.Ring.Defs
import Mathlib.Algebra.Order.Ring.Rat
import SchemaDiagram.Proofs.LayoutCoverage
import SchemaDiagram.Resolution

namespace SchemaDiagram

instance {κ : Type} [BEq κ] [LawfulBEq κ] : LawfulBEq (Position κ) where
  eq_of_beq := by
    rintro ⟨x, y⟩ ⟨x', y'⟩ h
    obtain ⟨hx, hy⟩ := Bool.and_eq_true_iff.mp h
    obtain rfl : x = x' := eq_of_beq hx
    obtain rfl : y = y' := eq_of_beq hy
    rfl
  rfl := by
    rintro ⟨x, y⟩
    exact Bool.and_eq_true_iff.mpr ⟨beq_self_eq_true x, beq_self_eq_true y⟩

namespace Positions

theorem get?_setEach_of_mem {κ : Type} [BEq κ] [LawfulBEq κ] {places : List (String × Position κ)}
    (hn : (places.map Prod.fst).Nodup) {place : String × Position κ} (hm : place ∈ places)
    (positions : Positions κ) : (setEach places positions).1.get? place.1 = some place.2 := by
  obtain ⟨stored, hstored, heq | hbeq⟩ := exists_get?_setEach hn hm positions
  · rw [hstored, heq]
  · rw [hstored, eq_of_beq hbeq]

theorem get?_stackVertically_of_not_mem {κ : Type} [NatCast κ] [Add κ] [Mul κ] [BEq κ] [LT κ]
    [DecidableLT κ] (positions : Positions κ) (schema : Schema) (metrics : TextMetrics κ) (padding : κ)
    {name : String} (h : name ∉ schema.tableNames) :
    (positions.stackVertically schema metrics padding).1.get? name = positions.get? name := by
  rw [stackVertically_eq_setEach]
  refine get?_setEach_of_not_mem ?_ positions
  rwa [map_fst_column]

end Positions

section Exact

variable {κ : Type} [Ring κ] [LinearOrder κ]

namespace TextMetrics

/-- The height of tables in a column, each with the gap under it. -/
def stackedHeight (metrics : TextMetrics κ) (padding : κ) (tables : List (String × Table)) : κ :=
  (tables.map fun entry => metrics.tableHeight entry.2 + padding).sum

/-- Whether the box of the table, with its upper left corner at the position, takes up the height. -/
def TakesUp (metrics : TextMetrics κ) (table : Table) (position : Position κ) (y : κ) : Prop :=
  position.y ≤ y ∧ y < position.y + metrics.tableHeight table

theorem minTableHeight_le (metrics : TextMetrics κ) (table : Table) :
    metrics.minTableHeight ≤ metrics.tableHeight table := by
  unfold tableHeight larger
  rw [if_pos (beq_self_eq_true _)]
  split
  next h => exact h.le
  next => exact le_rfl

theorem not_takesUp_of_le {metrics : TextMetrics κ} {upper lower : Table} {p q : Position κ}
    (h : p.y + metrics.tableHeight upper ≤ q.y) {y : κ} (hy : metrics.TakesUp upper p y) :
    ¬ metrics.TakesUp lower q y := by
  intro hlower
  have habove : y < q.y := lt_of_lt_of_le hy.2 h
  exact absurd hlower.1 (not_le_of_gt habove)

variable [IsStrictOrderedRing κ] {metrics : TextMetrics κ} {padding : κ}

/-- What stands above a table stands above every later one, and so does the table itself. -/
theorem stackedHeight_take_add_le (hheight : 0 ≤ metrics.minTableHeight) (hpadding : 0 ≤ padding)
    {tables : List (String × Table)} {i j : Nat} {entry : String × Table} (hi : tables[i]? = some entry)
    (hij : i < j) :
    metrics.stackedHeight padding (tables.take i) + (metrics.tableHeight entry.2 + padding) ≤
      metrics.stackedHeight padding (tables.take j) := by
  have hnonneg : ∀ height ∈ (tables.take j).map fun entry => metrics.tableHeight entry.2 + padding,
      0 ≤ height := by
    intro height hm
    obtain ⟨other, _, rfl⟩ := List.mem_map.mp hm
    exact add_nonneg (hheight.trans (metrics.minTableHeight_le other.2)) hpadding
  have hnext : tables.take (i + 1) = tables.take i ++ [entry] := by
    rw [List.take_add_one, hi, Option.toList_some]
  have hsum : metrics.stackedHeight padding (tables.take (i + 1)) =
      metrics.stackedHeight padding (tables.take i) + (metrics.tableHeight entry.2 + padding) := by
    simp [stackedHeight, hnext]
  rw [← hsum]
  exact ((List.take_sublist_take_left hij).map _).sum_le_sum hnonneg

end TextMetrics

namespace Positions

theorem getElem?_columnFrom (metrics : TextMetrics κ) (padding : κ) (tables : List (String × Table))
    (y : κ) (i : Nat) :
    (columnFrom metrics padding tables y)[i]? = tables[i]?.map fun entry =>
      (entry.1, ⟨padding, y + metrics.stackedHeight padding (tables.take i)⟩) := by
  induction tables generalizing y i with
  | nil => simp [columnFrom]
  | cons entry rest ih =>
    obtain ⟨name, table⟩ := entry
    cases i with
    | zero => simp [columnFrom, TextMetrics.stackedHeight]
    | succ i => simp [columnFrom, ih, TextMetrics.stackedHeight, add_assoc]

variable (positions : Positions κ) (schema : Schema) (metrics : TextMetrics κ) (padding : κ)

theorem get?_of_mem_column {place : String × Position κ}
    (hm : place ∈ column schema metrics padding) :
    (positions.stackVertically schema metrics padding).1.get? place.1 = some place.2 := by
  rw [stackVertically_eq_setEach]
  exact get?_setEach_of_mem (nodup_column schema metrics padding) hm positions

/-- The place of each table in the column, found by where the table stands in the schema. -/
theorem get?_stackVertically {i : Nat} {entry : String × Table}
    (hi : schema.tables.entries[i]? = some entry) :
    (positions.stackVertically schema metrics padding).1.get? entry.1 =
      some ⟨padding, padding + metrics.stackedHeight padding (schema.tables.entries.take i)⟩ := by
  have hplace := getElem?_columnFrom metrics padding schema.tables.entries padding i
  rw [hi, Option.map_some] at hplace
  exact get?_of_mem_column positions schema metrics padding (List.mem_of_getElem? hplace)

/-- Where a table was is compared with where it is to go, and that is where it is afterwards. -/
theorem snd_stackVertically_iff :
    (positions.stackVertically schema metrics padding).2 = true ↔ ∃ name ∈ schema.tableNames,
      positions.get? name ≠ (positions.stackVertically schema metrics padding).1.get? name := by
  rw [← map_fst_column schema metrics padding]
  constructor
  · intro h
    rw [stackVertically_eq_setEach, snd_setEach_iff (nodup_column schema metrics padding)] at h
    obtain ⟨place, hm, h⟩ := h
    refine ⟨place.1, List.mem_map_of_mem hm, ?_⟩
    rw [get?_of_mem_column positions schema metrics padding hm]
    exact ne_of_beq_false h
  · rintro ⟨name, hm, h⟩
    obtain ⟨place, hplace, rfl⟩ := List.mem_map.mp hm
    rw [get?_of_mem_column positions schema metrics padding hplace] at h
    rw [stackVertically_eq_setEach, snd_setEach_iff (nodup_column schema metrics padding)]
    exact ⟨place, hplace, beq_false_of_ne h⟩

theorem stackVertically_stackVertically :
    (positions.stackVertically schema metrics padding).1.stackVertically schema metrics padding =
      ((positions.stackVertically schema metrics padding).1, false) := by
  have hflag : ((positions.stackVertically schema metrics padding).1.stackVertically schema metrics
      padding).2 = false := by
    rw [Bool.eq_false_iff]
    intro h
    obtain ⟨name, hm, hne⟩ := (snd_stackVertically_iff _ schema metrics padding).mp h
    rw [← map_fst_column schema metrics padding] at hm
    obtain ⟨place, hplace, rfl⟩ := List.mem_map.mp hm
    rw [get?_of_mem_column _ schema metrics padding hplace,
      get?_of_mem_column _ schema metrics padding hplace] at hne
    exact hne rfl
  have hsame := (isChange_stackVertically (positions.stackVertically schema metrics padding).1 schema
    metrics padding).unchanged hflag
  exact Prod.ext hsame hflag

variable {metrics : TextMetrics κ} {padding : κ} [IsStrictOrderedRing κ]

/-- The box of a table ends, and the gap under it too, before the box of any later table begins. -/
theorem pairwise_stackVertically (hheight : 0 ≤ metrics.minTableHeight) (hpadding : 0 ≤ padding) :
    schema.tables.entries.Pairwise fun upper lower => ∃ p q,
      (positions.stackVertically schema metrics padding).1.get? upper.1 = some p ∧
        (positions.stackVertically schema metrics padding).1.get? lower.1 = some q ∧
          p.y + metrics.tableHeight upper.2 + padding ≤ q.y := by
  rw [List.pairwise_iff_getElem]
  intro i j hi hj hij
  have hupper := List.getElem?_eq_getElem hi
  refine ⟨_, _, get?_stackVertically positions schema metrics padding hupper,
    get?_stackVertically positions schema metrics padding (List.getElem?_eq_getElem hj), ?_⟩
  rw [add_assoc, add_assoc]
  exact add_le_add_right (TextMetrics.stackedHeight_take_add_le hheight hpadding hupper hij) padding

end Positions

end Exact

namespace Positions

/-- In exact arithmetic each table comes to stand at the margin, under the heights of all tables before it and a gap
after each of them; if neither the least height nor the gap is negative, no two boxes overlap. Names without a table
in the schema stay where they are. The report tells whether any table had no position or another one, and stacking
again changes nothing. -/
theorem stackVertically_in_column {κ : Type} [Ring κ] [LinearOrder κ] [IsStrictOrderedRing κ]
    (positions : Positions κ) (schema : Schema) (metrics : TextMetrics κ) (padding : κ) :
    let tables := schema.tables.entries
    let stacked := positions.stackVertically schema metrics padding
    (∀ i name table, tables[i]? = some (name, table) →
      stacked.1.get? name =
        some ⟨padding, padding + metrics.stackedHeight padding (tables.take i)⟩) ∧
    (0 ≤ metrics.minTableHeight → 0 ≤ padding → tables.Pairwise fun upper lower => ∃ p q,
      stacked.1.get? upper.1 = some p ∧ stacked.1.get? lower.1 = some q ∧
        p.y + metrics.tableHeight upper.2 + padding ≤ q.y ∧
          ∀ y, metrics.TakesUp upper.2 p y → ¬ metrics.TakesUp lower.2 q y) ∧
    (∀ name ∉ schema.tableNames, stacked.1.get? name = positions.get? name) ∧
    (stacked.2 = true ↔ ∃ name ∈ schema.tableNames, positions.get? name ≠ stacked.1.get? name) ∧
    stacked.1.stackVertically schema metrics padding = (stacked.1, false) := by
  intro tables stacked
  refine ⟨?_, ?_, ?_, snd_stackVertically_iff positions schema metrics padding,
    stackVertically_stackVertically positions schema metrics padding⟩
  · intro i name table hi
    exact get?_stackVertically positions schema metrics padding hi
  · intro hheight hpadding
    refine (pairwise_stackVertically positions schema hheight hpadding).imp ?_
    rintro upper lower ⟨p, q, hp, hq, hgap⟩
    have habove : p.y + metrics.tableHeight upper.2 ≤ q.y :=
      (le_add_of_nonneg_right hpadding).trans hgap
    exact ⟨p, q, hp, hq, hgap, fun _ hy => TextMetrics.not_takesUp_of_le habove hy⟩
  · intro name hname
    exact get?_stackVertically_of_not_mem positions schema metrics padding hname

/-- The upper table is declared twice, the lower one has no fields, and one name has no table. -/
theorem stackVertically_in_column_redeclared :
    let schema := Schema.ofSource "Table a \x7b \x7d Table b \x7b \x7d Table a \x7b x int\n y int \x7d"
    let metrics : TextMetrics ℚ := TextMetrics.standard
    let positions : Positions ℚ := OrderedMap.ofList [("absent", ⟨7, 9⟩), ("a", ⟨30, 30⟩)]
    let stacked := positions.stackVertically schema metrics 30
    (0 ≤ metrics.minTableHeight ∧ (0 : ℚ) ≤ 30) ∧
      schema.tableNames = ["a", "b"] ∧ stacked.1.get? "b" = some ⟨30, 144⟩ ∧
      (∃ p q, stacked.1.get? "a" = some p ∧ stacked.1.get? "b" = some q ∧ p.y + 84 + 30 ≤ q.y) ∧
      stacked.1.get? "absent" = some ⟨7, 9⟩ ∧ stacked.2 = true ∧
      stacked.1.stackVertically schema metrics 30 = (stacked.1, false) := by
  intro schema metrics positions stacked
  have hheight : 0 ≤ metrics.minTableHeight := by decide +kernel
  have hpadding : (0 : ℚ) ≤ 30 := by decide +kernel
  have hentries : schema.tables.entries =
      [("a", [Field.ofLine ⟨"x", "int"⟩, Field.ofLine ⟨"y", "int"⟩]), ("b", [])] := by
    decide +kernel
  have hnames : schema.tableNames = ["a", "b"] := congrArg (List.map Prod.fst) hentries
  obtain ⟨hplaces, hapart, hothers, hreport, hagain⟩ :=
    stackVertically_in_column positions schema metrics 30
  rw [hentries] at hplaces hapart
  have hb : stacked.1.get? "b" = some ⟨30, 144⟩ := (hplaces 1 "b" [] rfl).trans (by decide +kernel)
  obtain ⟨p, q, hp, hq, hgap, _⟩ := (List.pairwise_cons.mp (hapart hheight hpadding)).1 ("b", [])
    (by simp)
  have hfields : metrics.tableHeight [Field.ofLine ⟨"x", "int"⟩, Field.ofLine ⟨"y", "int"⟩] = 84 := by
    decide +kernel
  rw [hfields] at hgap
  rw [hnames] at hothers hreport
  have habsent : positions.get? "absent" = some ⟨7, 9⟩ := by decide +kernel
  have hnew : positions.get? "b" ≠ stacked.1.get? "b" := by
    rw [hb]
    decide +kernel
  exact ⟨⟨hheight, hpadding⟩, hnames, hb, ⟨p, q, hp, hq, hgap⟩,
    (hothers "absent" (by decide)).trans habsent, hreport.mpr ⟨"b", by decide, hnew⟩, hagain⟩

end Positions

end SchemaDiagram
