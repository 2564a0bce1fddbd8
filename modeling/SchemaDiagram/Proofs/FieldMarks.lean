import SchemaDiagram.Proofs.DeclaredTables
import SchemaDiagram.Proofs.ReferencePasses

namespace SchemaDiagram

/-- The target table or field of the reference is missing, or the target is no primary key, or it has
another type than the line declares. -/
def ReferenceSite.IsFaulty (schema : Schema) (site : ReferenceSite) : Prop :=
  schema.table? site.target.table = none ∨
    schema.field? site.target.table site.target.field = none ∨
    ∃ target, schema.field? site.target.table site.target.field = some target ∧
      (target.isPrimaryKey = false ∨
        FieldDefinition.declaredType site.line.definition ≠ target.declaredType)

theorem ReferenceSite.targetFault?_isSome_iff (schema : Schema) (site : ReferenceSite) :
    (site.targetFault? schema).isSome = true ↔
      schema.table? site.target.table = none ∨
        schema.field? site.target.table site.target.field = none ∨
        ∃ target, schema.field? site.target.table site.target.field = some target ∧
          target.isPrimaryKey = false := by
  unfold targetFault?
  rw [← Schema.table?_isSome]
  cases ht : schema.table? site.target.table with
  | none => simp
  | some table =>
    cases hf : schema.field? site.target.table site.target.field with
    | none => simp
    | some target => cases hk : target.isPrimaryKey <;> simp [hk]

theorem ReferenceSite.typeFault?_isSome_iff (schema : Schema) (site : ReferenceSite) :
    (site.typeFault? schema).isSome = true ↔
      ∃ target, schema.field? site.target.table site.target.field = some target ∧
        FieldDefinition.declaredType site.line.definition ≠ target.declaredType := by
  unfold typeFault?
  cases hf : schema.field? site.target.table site.target.field with
  | none => simp
  | some target =>
    by_cases hd : FieldDefinition.declaredType site.line.definition = target.declaredType <;>
      simp [hd]

theorem ReferenceSite.isFaulty_iff (schema : Schema) (site : ReferenceSite) :
    site.IsFaulty schema ↔
      (site.typeFault? schema).isSome = true ∨ (site.targetFault? schema).isSome = true := by
  rw [typeFault?_isSome_iff, targetFault?_isSome_iff]
  unfold IsFaulty
  constructor
  · rintro (ht | hf | ⟨target, hf, hk | hd⟩)
    · exact .inr (.inl ht)
    · exact .inr (.inr (.inl hf))
    · exact .inr (.inr (.inr ⟨target, hf, hk⟩))
    · exact .inl ⟨target, hf, hd⟩
  · rintro (⟨target, hf, hd⟩ | ht | hf | ⟨target, hf, hk⟩)
    · exact .inr (.inr ⟨target, hf, .inr hd⟩)
    · exact .inl ht
    · exact .inr (.inl hf)
    · exact .inr (.inr ⟨target, hf, .inl hk⟩)

theorem ReferenceSite.targetFault?_of_not_isFaulty {schema : Schema} {site : ReferenceSite}
    (h : ¬ site.IsFaulty schema) : site.targetFault? schema = none := by
  cases hf : site.targetFault? schema with
  | none => rfl
  | some fault => exact absurd ((isFaulty_iff schema site).mpr (.inr (by rw [hf]; rfl))) h

theorem isSome_getLast?_filterMap {α β : Type} (read : α → Option β) (xs : List α) :
    ((xs.filterMap read).getLast?).isSome = true ↔ ∃ x ∈ xs, (read x).isSome = true := by
  rw [List.getLast?_isSome, Ne, List.filterMap_eq_nil_iff]
  simp [Option.isSome_iff_ne_none]

namespace Field

theorem resolved_congr {s t : Schema} (h : s.SameDeclarations t) (own : List ReferenceSite)
    (f : Field) : f.resolved s own = f.resolved t own := by
  unfold resolved
  simp only [ReferenceSite.typeFault?_congr h, ReferenceSite.targetFault?_congr h]

/-- The message of the last type mismatch among the references, else that of the last fault of a
target, else nothing. -/
def lastWord (schema : Schema) (own : List ReferenceSite) : String :=
  (((own.filterMap (·.typeFault? schema)).getLast?).or
    (own.filterMap (·.targetFault? schema)).getLast?).elim "" ReferenceError.message

variable (schema : Schema) (own : List ReferenceSite) (line : FieldLine)

theorem isForeignKey_resolved_ofLine :
    ((ofLine line).resolved schema own).isForeignKey = true ↔ own ≠ [] := by
  simp [resolved, noted, ofLine]

theorem hasError_resolved_ofLine :
    ((ofLine line).resolved schema own).hasError = true ↔ ∃ site ∈ own, site.IsFaulty schema := by
  simp only [resolved, noted, ofLine, hasError, Option.or_none, Option.isSome_or, Bool.or_eq_true,
    isSome_getLast?_filterMap, ReferenceSite.isFaulty_iff]
  constructor
  · rintro (⟨site, hm, hs⟩ | ⟨site, hm, hs⟩)
    · exact ⟨site, hm, .inl hs⟩
    · exact ⟨site, hm, .inr hs⟩
  · rintro ⟨site, hm, hs | hs⟩
    · exact .inl ⟨site, hm, hs⟩
    · exact .inr ⟨site, hm, hs⟩

theorem errorMessage_resolved_ofLine :
    ((ofLine line).resolved schema own).errorMessage = lastWord schema own := by
  simp only [resolved, noted, ofLine, errorMessage, Option.or_none, lastWord]
  generalize Option.or _ _ = fault?
  cases fault? <;> rfl

end Field

namespace Schema

/-- A record of a resolved table is its declared record, with the marks of its references if it is the
first of its name. -/
theorem record_ofResolvedBlocks {blocks : List TableBlock} {name : String} {table : Table} {i : Nat}
    {f : Field} (ht : (ofResolvedBlocks blocks).table? name = some table) (hi : table[i]? = some f) :
    ∃ line, f = if f.name ∈ (table.take i).map Field.name then Field.ofLine line
      else (Field.ofLine line).resolved (ofResolvedBlocks blocks)
        (sitesOf (blocks.flatMap TableBlock.sites) name f.name) := by
  have hsame := sameDeclarations_resolve (ofBlocks blocks) blocks
  simp only [ofResolvedBlocks, table?, tables_resolve, changeFirsts, OrderedMap.get?_mapValues] at ht
  obtain ⟨old, hold, rfl⟩ := Option.map_eq_some_iff.mp ht
  rw [Table.getElem?_mapFirsts] at hi
  obtain ⟨g, hg, he⟩ := Option.map_eq_some_iff.mp hi
  obtain ⟨line, rfl⟩ := exists_line_of_mem_ofBlocks hold (List.mem_of_getElem? hg)
  have hname : f.name = (Field.ofLine line).name := by
    rw [← he]
    split <;> rfl
  refine ⟨line, ?_⟩
  rw [Table.map_name_take_mapFirsts (by intro _; rfl), hname, ← he]
  simp only [List.not_mem_nil, false_or, ofResolvedBlocks, Field.resolved_congr hsame]

/-- A later record of its name carries no mark. The first one refers if a reference stands in a line
of its name, also in a block that was replaced; it is at fault if one of these references is; and
its message is their last word. -/
theorem marks_ofSource {source name : String} {table : Table} {i : Nat} {f : Field}
    (ht : (ofSource source).table? name = some table) (hi : table[i]? = some f) :
    (f.name ∈ (table.take i).map Field.name →
      f.isForeignKey = false ∧ f.hasError = false ∧ f.errorMessage = "") ∧
    (f.name ∉ (table.take i).map Field.name →
      let own := sitesOf ((parseBlocks source).flatMap TableBlock.sites) name f.name
      (f.isForeignKey = true ↔ own ≠ []) ∧
        (f.hasError = true ↔ ∃ site ∈ own, site.IsFaulty (ofSource source)) ∧
        f.errorMessage = Field.lastWord (ofSource source) own) := by
  obtain ⟨line, he⟩ := record_ofResolvedBlocks ht hi
  refine ⟨?_, ?_⟩
  · intro hlater
    rw [if_pos hlater] at he
    rw [he]
    exact ⟨rfl, rfl, rfl⟩
  · intro hfirst own
    rw [if_neg hfirst] at he
    rw [he]
    exact ⟨Field.isForeignKey_resolved_ofLine _ own line, Field.hasError_resolved_ofLine _ own line,
      Field.errorMessage_resolved_ofLine _ own line⟩

/-- Of a mismatch and a missing table after it, both in lines of one name, the mismatch is told. -/
theorem marks_ofSource_repeated :
    let source := "Table users \x7b id text [pk] \x7d Table posts \x7b a integer [ref: > users.id]\n" ++
      " a integer [ref: > ghost.id] \x7d"
    ∃ table f, (ofSource source).table? "posts" = some table ∧ table[0]? = some f ∧
      f.isForeignKey = true ∧ f.hasError = true ∧
      f.errorMessage = "Type mismatch: 'integer' cannot reference 'text' in users.id" := by
  intro source
  have hp : parseBlocks source = [⟨"users", [⟨"id", "text [pk]"⟩]⟩,
      ⟨"posts", [⟨"a", "integer [ref: > users.id]"⟩, ⟨"a", "integer [ref: > ghost.id]"⟩]⟩] := by
    decide +kernel
  have hs := congrArg ofResolvedBlocks hp
  have ht : (ofSource source).table? "posts" = some
      [⟨"a", "integer [ref: > users.id]", false, true,
          some (.typeMismatch "integer" "text" "users" "id"), none⟩,
        ⟨"a", "integer [ref: > ghost.id]", false, false, none, none⟩] := by
    unfold ofSource
    rw [hs]
    decide +kernel
  obtain ⟨hrefers, herror, hmessage⟩ := (marks_ofSource ht (i := 0) rfl).2 (by decide)
  unfold ofSource at herror hmessage ⊢
  rw [hp] at hrefers
  rw [hs, hp] at herror hmessage
  refine ⟨_, _, ht, rfl, hrefers.mpr (by decide), herror.mpr ?_, ?_⟩
  · exact ⟨⟨"posts", ⟨"a", "integer [ref: > ghost.id]"⟩, ⟨.manyToOne, "ghost", "id"⟩⟩,
      by decide +kernel, .inl (by decide +kernel)⟩
  · exact hmessage.trans (by decide +kernel)

end Schema

end SchemaDiagram
