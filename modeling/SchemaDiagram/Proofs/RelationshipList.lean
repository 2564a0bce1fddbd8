import SchemaDiagram.Proofs.FieldMarks

namespace SchemaDiagram

namespace Schema

/-- The relationship that a line in a block of the name stands for: the line refers to something, the
schema has a field of the line's name in its table, and the target's name finds a primary key. -/
def lineRelationship? (schema : Schema) (table : String) (line : FieldLine) : Option Relationship := do
  let target ← FieldDefinition.reference? line.definition
  let _ ← schema.field? table line.name
  let field ← schema.field? target.table target.field
  if field.isPrimaryKey then
    some ⟨table, line.name, target.table, target.field, target.direction⟩
  else none

theorem relationship?_eq_some_iff {schema : Schema} {site : ReferenceSite} {r : Relationship} :
    site.relationship? schema = some r ↔
      (schema.field? site.table site.line.name).isSome = true ∧ site.targetFault? schema = none ∧
        r = site.relationship := by
  unfold ReferenceSite.relationship?
  split
  next h => simp [h, eq_comm]
  next h =>
    constructor
    · intro he
      simp at he
    · rintro ⟨hf, ht, _⟩
      exact absurd ⟨hf, ht⟩ h

theorem lineRelationship?_eq (schema : Schema) (table : String) (line : FieldLine) :
    schema.lineRelationship? table line =
      ((FieldDefinition.reference? line.definition).map fun target =>
        ReferenceSite.mk table line target).bind (·.relationship? schema) := by
  unfold lineRelationship?
  cases FieldDefinition.reference? line.definition with
  | none => rfl
  | some target =>
    simp only [Option.bind_eq_bind, Option.bind_some, Option.map_some, ReferenceSite.relationship?,
      ReferenceSite.targetFault?_eq_none_iff]
    cases schema.field? table line.name with
    | none => simp
    | some f =>
      cases schema.field? target.table target.field with
      | none => simp
      | some g => cases hk : g.isPrimaryKey <;> simp [hk, ReferenceSite.relationship]

/-- The relationships, judged by the finished schema. -/
theorem relationships_ofResolvedBlocks (blocks : List TableBlock) :
    (ofResolvedBlocks blocks).relationships =
      (blocks.flatMap TableBlock.sites).filterMap (·.relationship? (ofResolvedBlocks blocks)) := by
  have hsame := sameDeclarations_resolve (ofBlocks blocks) blocks
  unfold ofResolvedBlocks
  rw [relationships_resolve]
  simp only [ReferenceSite.relationship?_congr hsame]
  rfl

theorem filterMap_sites (schema : Schema) (block : TableBlock) :
    block.sites.filterMap (·.relationship? schema) =
      block.lines.filterMap fun line => schema.lineRelationship? block.name line := by
  unfold TableBlock.sites
  rw [List.filterMap_filterMap]
  simp only [lineRelationship?_eq]

theorem mem_relationships_iff {blocks : List TableBlock} {r : Relationship} :
    r ∈ (ofResolvedBlocks blocks).relationships ↔
      ∃ site ∈ blocks.flatMap TableBlock.sites,
        site.relationship? (ofResolvedBlocks blocks) = some r := by
  rw [relationships_ofResolvedBlocks, List.mem_filterMap]

theorem exists_target_of_mem {blocks : List TableBlock} {r : Relationship}
    (hr : r ∈ (ofResolvedBlocks blocks).relationships) :
    ∃ target, (ofResolvedBlocks blocks).field? r.toTable r.toField = some target ∧
      target.isPrimaryKey = true := by
  obtain ⟨site, _, hs⟩ := mem_relationships_iff.mp hr
  obtain ⟨_, ht, rfl⟩ := relationship?_eq_some_iff.mp hs
  exact ReferenceSite.targetFault?_eq_none_iff.mp ht

theorem relationship?_of_mem_sitesOf {schema : Schema} {sites : List ReferenceSite}
    {table field : String} {site : ReferenceSite} (hm : site ∈ sitesOf sites table field)
    (hfield : (schema.field? table field).isSome = true) (hgood : ¬ site.IsFaulty schema) :
    site.relationship? schema = some site.relationship := by
  obtain ⟨_, hof⟩ := List.mem_filter.mp hm
  obtain ⟨rfl, rfl⟩ := ReferenceSite.isOf_iff.mp hof
  have htarget := ReferenceSite.targetFault?_of_not_isFaulty hgood
  exact relationship?_eq_some_iff.mpr ⟨hfield, htarget, rfl⟩

/-- A field that refers and has no fault starts at least one relationship. -/
theorem exists_relationship_of_isForeignKey {blocks : List TableBlock} {name : String} {table : Table}
    {f : Field} (ht : (ofResolvedBlocks blocks).table? name = some table) (hf : f ∈ table)
    (hrefers : f.isForeignKey = true) (herror : f.hasError = false) :
    ∃ r ∈ (ofResolvedBlocks blocks).relationships, r.fromTable = name ∧ r.fromField = f.name := by
  obtain ⟨i, hi⟩ := List.mem_iff_getElem?.mp hf
  obtain ⟨line, he⟩ := record_ofResolvedBlocks ht hi
  by_cases hfirst : f.name ∈ (table.take i).map Field.name
  · rw [if_pos hfirst] at he
    rw [he] at hrefers
    cases hrefers
  · rw [if_neg hfirst] at he
    generalize hown : sitesOf (blocks.flatMap TableBlock.sites) name f.name = own at he
    rw [he] at hrefers
    obtain ⟨site, hsite⟩ := List.exists_mem_of_ne_nil own
      ((Field.isForeignKey_resolved_ofLine _ own line).mp hrefers)
    have hgood : ¬ site.IsFaulty (ofResolvedBlocks blocks) := by
      intro hbad
      rw [he, (Field.hasError_resolved_ofLine _ own line).mpr ⟨site, hsite, hbad⟩] at herror
      cases herror
    have hfield : ((ofResolvedBlocks blocks).field? name f.name).isSome = true := by
      unfold field?
      rw [ht, Option.bind_some, Table.field?_of_first hi hfirst]
      rfl
    rw [← hown] at hsite
    have hr := relationship?_of_mem_sitesOf hsite hfield hgood
    obtain ⟨hmem, hof⟩ := List.mem_filter.mp hsite
    exact ⟨site.relationship, mem_relationships_iff.mpr ⟨site, hmem, hr⟩,
      ReferenceSite.isOf_iff.mp hof⟩

/-- The relationships of a source text stand in the order of the lines that they are written in, one
for each line that stands for one, whatever the types are. Every reference without a fault has one,
and all of them end at primary keys. -/
theorem relationships_ofSource (source : String) :
    (ofSource source).relationships =
        ((parseBlocks source).flatMap fun block =>
          block.lines.filterMap fun line => (ofSource source).lineRelationship? block.name line) ∧
      (∀ name table f, (ofSource source).table? name = some table → f ∈ table →
        f.isForeignKey = true → f.hasError = false →
          ∃ r ∈ (ofSource source).relationships, r.fromTable = name ∧ r.fromField = f.name) ∧
      ∀ r ∈ (ofSource source).relationships,
        ∃ target, (ofSource source).field? r.toTable r.toField = some target ∧
          target.isPrimaryKey = true := by
  refine ⟨?_, ?_, ?_⟩
  · have h := relationships_ofResolvedBlocks (parseBlocks source)
    rw [List.filterMap_flatMap] at h
    simp only [filterMap_sites] at h
    exact h
  · intro name table f ht hf
    exact exists_relationship_of_isForeignKey ht hf
  · intro r hr
    exact exists_target_of_mem hr

end Schema

end SchemaDiagram
