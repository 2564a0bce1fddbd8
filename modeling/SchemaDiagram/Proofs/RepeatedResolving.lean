import Mathlib.Data.List.Forall2
import SchemaDiagram.Proofs.FieldMarks

namespace SchemaDiagram

/-- The later field is the earlier one, perhaps with more marks on it. -/
structure Field.GainsMarks (before after : Field) : Prop where
  name : after.name = before.name
  definition : after.definition = before.definition
  isPrimaryKey : after.isPrimaryKey = before.isPrimaryKey
  note : after.note = before.note
  isForeignKey : before.isForeignKey = true → after.isForeignKey = true
  hasError : before.hasError = true → after.hasError = true

namespace Field

theorem gainsMarks_refl (f : Field) : f.GainsMarks f :=
  ⟨rfl, rfl, rfl, rfl, fun h => h, fun h => h⟩

theorem gainsMarks_noted (refers : Bool) (fault? : Option ReferenceError) (f : Field) :
    f.GainsMarks (f.noted refers fault?) := by
  refine ⟨rfl, rfl, rfl, rfl, ?_, ?_⟩
  · intro h
    simp [noted, h]
  · intro h
    rw [hasError] at h
    simp [noted, hasError, h]

/-- What the second round finds is what the first one left. -/
theorem resolved_resolved (schema : Schema) (own : List ReferenceSite) (f : Field) :
    (f.resolved schema own).resolved schema own = f.resolved schema own := by
  unfold resolved
  rw [noted_noted, Bool.or_self, Option.or_self]

end Field

/-- The same table, its fields in the same order and perhaps with more marks on them. -/
structure Table.GainsMarks (before after : String × Table) : Prop where
  name : after.1 = before.1
  fields : List.Forall₂ Field.GainsMarks before.2 after.2

theorem Table.forall₂_mapFirsts {change : Field → Field} (h : ∀ f : Field, f.GainsMarks (change f))
    (seen : List String) (table : Table) :
    List.Forall₂ Field.GainsMarks table (mapFirsts change seen table) := by
  induction table generalizing seen with
  | nil => exact .nil
  | cons f rest ih =>
    refine .cons ?_ (ih (f.name :: seen))
    split
    · exact f.gainsMarks_refl
    · exact h f

namespace Schema

theorem forall₂_changeFirsts {change : String → Field → Field}
    (h : ∀ table (f : Field), f.GainsMarks (change table f)) (tables : OrderedMap String Table) :
    List.Forall₂ Table.GainsMarks tables.entries (changeFirsts change tables).entries := by
  rw [changeFirsts, OrderedMap.mapValues, List.forall₂_map_right_iff, List.forall₂_same]
  intro entry _
  exact ⟨rfl, Table.forall₂_mapFirsts (h entry.1) [] entry.2⟩

variable (schema : Schema) (blocks : List TableBlock)

/-- The second round judges each reference as the first one did, for both find the same declarations. -/
theorem tables_resolve_resolve :
    ((schema.resolve blocks).resolve blocks).tables = (schema.resolve blocks).tables := by
  have hsame := sameDeclarations_resolve schema blocks
  rw [tables_resolve (schema.resolve blocks), tables_resolve schema,
    changeFirsts_changeFirsts _ (by intro _ _; rfl)]
  congr 1
  funext table f
  rw [Field.resolved_congr hsame]
  exact Field.resolved_resolved schema _ f

theorem relationships_resolve_resolve :
    ((schema.resolve blocks).resolve blocks).relationships = (schema.resolve blocks).relationships ++
      (blocks.flatMap TableBlock.sites).filterMap (·.relationship? schema) := by
  have hsame := sameDeclarations_resolve schema blocks
  rw [relationships_resolve (schema.resolve blocks)]
  simp only [ReferenceSite.relationship?_congr hsame]

/-- Tables, fields and what they declare stay as they are and no mark is taken back; relationships come after
those that were there. A second round with the same blocks leaves all tables as the first one did, faults
included, and adds the same relationships again. -/
theorem resolve_only_adds :
    List.Forall₂ Table.GainsMarks schema.tables.entries (schema.resolve blocks).tables.entries ∧
    ((schema.resolve blocks).resolve blocks).tables = (schema.resolve blocks).tables ∧
    ∃ added, (schema.resolve blocks).relationships = schema.relationships ++ added ∧
      ((schema.resolve blocks).resolve blocks).relationships =
        (schema.resolve blocks).relationships ++ added := by
  refine ⟨?_, tables_resolve_resolve schema blocks, _, relationships_resolve schema blocks,
    relationships_resolve_resolve schema blocks⟩
  rw [tables_resolve]
  exact forall₂_changeFirsts (fun _ f => f.gainsMarks_noted _ _) schema.tables

/-- In between, the walk over the references of the second round does put another fault in the place of a
mismatch; comparing the types puts it back. -/
example :
    let blocks : List TableBlock := [⟨"users", [⟨"id", "text [pk]"⟩]⟩,
      ⟨"posts", [⟨"a", "integer [ref: > users.id]"⟩, ⟨"a", "integer [ref: > ghost.id]"⟩]⟩]
    let once := ofResolvedBlocks blocks
    ((blocks.flatMap TableBlock.sites).foldl resolveSite once).tables ≠ once.tables ∧
      (once.resolve blocks).tables = once.tables := by decide +kernel

end Schema

end SchemaDiagram
