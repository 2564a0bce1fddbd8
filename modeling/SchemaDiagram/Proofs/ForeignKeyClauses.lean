import SchemaDiagram.SqlExport
import SchemaDiagram.Proofs.RelationshipList

namespace SchemaDiagram

/-- The relationship leads from the column of the table to the other column of the line. -/
def SqlForeignKey.StandsFor (k : SqlForeignKey) (table : String) (r : Relationship) : Prop :=
  (r.fromTable = table ∧ r.fromField = k.column) ∧ r.toTable = k.otherTable ∧ r.toField = k.otherColumn

instance (k : SqlForeignKey) (table : String) (r : Relationship) : Decidable (k.StandsFor table r) :=
  inferInstanceAs (Decidable ((_ ∧ _) ∧ _))

namespace Schema

theorem mem_sqlStatements_iff {schema : Schema} {s : SqlStatement} :
    s ∈ schema.sqlStatements ↔
      ∃ name table, schema.table? name = some table ∧ s = SqlStatement.ofTable schema name table := by
  unfold sqlStatements
  rw [List.mem_map]
  constructor
  · rintro ⟨⟨name, table⟩, hm, rfl⟩
    exact ⟨name, table, OrderedMap.mem_entries_iff.mp hm, rfl⟩
  · rintro ⟨name, table, ht, rfl⟩
    exact ⟨(name, table), OrderedMap.mem_entries_iff.mpr ht, rfl⟩

theorem ofField?_eq_some_iff {schema : Schema} {name : String} {f : Field} {k : SqlForeignKey} :
    SqlForeignKey.ofField? schema name f = some k ↔
      f.isForeignKey = true ∧
        ∃ first, schema.relationships.find? (·.touches name f.name) = some first ∧
          k = if first.toTable = name then ⟨f.name, first.fromTable, first.fromField⟩
            else ⟨f.name, first.toTable, first.toField⟩ := by
  unfold SqlForeignKey.ofField? relationshipsOf
  rw [List.head?_filter]
  cases hf : f.isForeignKey with
  | false => simp
  | true =>
    rw [if_pos rfl, Option.map_eq_some_iff]
    constructor
    · rintro ⟨first, hfirst, rfl⟩
      exact ⟨rfl, first, hfirst, by simp⟩
    · rintro ⟨_, first, hfirst, rfl⟩
      exact ⟨first, hfirst, by simp⟩

theorem exists_first_of_mem_foreignKeys {schema : Schema} {s : SqlStatement} {k : SqlForeignKey}
    (hs : s ∈ schema.sqlStatements) (hk : k ∈ s.foreignKeys) :
    ∃ first, schema.relationships.find? (·.touches s.table k.column) = some first ∧
      k = if first.toTable = s.table then ⟨k.column, first.fromTable, first.fromField⟩
        else ⟨k.column, first.toTable, first.toField⟩ := by
  obtain ⟨name, table, _, rfl⟩ := mem_sqlStatements_iff.mp hs
  obtain ⟨f, _, hf⟩ := List.mem_filterMap.mp hk
  obtain ⟨_, first, hfirst, rfl⟩ := ofField?_eq_some_iff.mp hf
  have hcolumn : (if first.toTable = name then
      (⟨f.name, first.fromTable, first.fromField⟩ : SqlForeignKey)
      else ⟨f.name, first.toTable, first.toField⟩).column = f.name := by split <;> rfl
  rw [hcolumn]
  exact ⟨first, hfirst, rfl⟩

theorem starts_of_touches {r : Relationship} {table field : String}
    (h : r.touches table field = true) (hto : r.toTable ≠ table) :
    r.fromTable = table ∧ r.fromField = field := by
  have hh : (r.fromTable = table ∧ r.fromField = field) ∨ (r.toTable = table ∧ r.toField = field) := by
    simpa [Relationship.touches] using h
  rcases hh with hh | hh
  · exact hh
  · exact absurd hh.1 hto

/-- The line stands for the first relationship that touches its column if that one ends elsewhere. If
it ends in the table itself, the line names where it starts, and only a way back stands for that. -/
theorem exists_standsFor_iff {schema : Schema} {table : String} {k : SqlForeignKey}
    {first : Relationship}
    (hfirst : schema.relationships.find? (·.touches table k.column) = some first)
    (he : k = if first.toTable = table then ⟨k.column, first.fromTable, first.fromField⟩
      else ⟨k.column, first.toTable, first.toField⟩) :
    (∃ r ∈ schema.relationships, k.StandsFor table r) ↔
      first.toTable ≠ table ∨
        ∃ back ∈ schema.relationships, (back.fromTable = table ∧ back.fromField = k.column) ∧
          back.toTable = first.fromTable ∧ back.toField = first.fromField := by
  by_cases hto : first.toTable = table
  · rw [if_pos hto] at he
    have hother : k.otherTable = first.fromTable ∧ k.otherColumn = first.fromField := by
      rw [he]
      exact ⟨rfl, rfl⟩
    constructor
    · rintro ⟨r, hr, hstart, hend⟩
      exact .inr ⟨r, hr, hstart, hend.1.trans hother.1, hend.2.trans hother.2⟩
    · rintro (hne | ⟨back, hback, hstart, hend⟩)
      · exact absurd hto hne
      · exact ⟨back, hback, hstart, hend.1.trans hother.1.symm, hend.2.trans hother.2.symm⟩
  · rw [if_neg hto] at he
    have hmem := List.mem_of_find?_eq_some hfirst
    have htouches : first.touches table k.column = true := by
      simpa using List.find?_some hfirst
    have hstands : k.StandsFor table first := by
      refine ⟨starts_of_touches htouches hto, ?_⟩
      rw [he]
      exact ⟨rfl, rfl⟩
    exact ⟨fun _ => .inl hto, fun _ => ⟨first, hmem, hstands⟩⟩

/-- A foreign key line leads from its column to a key that the column refers to just if the first
relationship touching the column ends in another table, or some relationship leads from the column
to where that first one starts. -/
theorem foreignKey_stands_iff {source : String} {s : SqlStatement} {k : SqlForeignKey}
    (hs : s ∈ (ofSource source).sqlStatements) (hk : k ∈ s.foreignKeys) :
    ∃ first, (ofSource source).relationships.find? (·.touches s.table k.column) = some first ∧
      ((∃ r ∈ (ofSource source).relationships, k.StandsFor s.table r ∧
          ∃ target, (ofSource source).field? k.otherTable k.otherColumn = some target ∧
            target.isPrimaryKey = true) ↔
        first.toTable ≠ s.table ∨
          ∃ back ∈ (ofSource source).relationships,
            (back.fromTable = s.table ∧ back.fromField = k.column) ∧
              back.toTable = first.fromTable ∧ back.toField = first.fromField) := by
  obtain ⟨first, hfirst, he⟩ := exists_first_of_mem_foreignKeys hs hk
  refine ⟨first, hfirst, ?_⟩
  rw [← exists_standsFor_iff hfirst he]
  constructor
  · rintro ⟨r, hr, hstands, _⟩
    exact ⟨r, hr, hstands⟩
  · rintro ⟨r, hr, hstands⟩
    have htarget := exists_target_of_mem hr
    rw [hstands.2.1, hstands.2.2] at htarget
    exact ⟨r, hr, hstands, htarget⟩

/-- In a chain of three tables the key in the middle is exported as if it referred to the table that
refers to it, since that relationship comes first. -/
theorem foreignKey_stands_iff_chain :
    let source := "Table c \x7b b_id int [ref: > b.id] \x7d Table b \x7b id int [pk] [ref: > a.id] \x7d" ++
      "Table a \x7b id int [pk] \x7d"
    let s : SqlStatement := ⟨"b", [⟨"id", "int", true, true⟩], [⟨"id", "c", "b_id"⟩]⟩
    s ∈ (ofSource source).sqlStatements ∧
      ¬ ∃ r ∈ (ofSource source).relationships, SqlForeignKey.StandsFor ⟨"id", "c", "b_id"⟩ "b" r ∧
        ∃ target, (ofSource source).field? "c" "b_id" = some target ∧ target.isPrimaryKey = true := by
  intro source s
  have hs : ofSource source = ofResolvedBlocks [⟨"c", [⟨"b_id", "int [ref: > b.id]"⟩]⟩,
      ⟨"b", [⟨"id", "int [pk] [ref: > a.id]"⟩]⟩, ⟨"a", [⟨"id", "int [pk]"⟩]⟩] :=
    congrArg ofResolvedBlocks (by decide +kernel)
  have hstatement : s ∈ (ofSource source).sqlStatements := by
    rw [hs]
    decide +kernel
  obtain ⟨first, hfirst, hiff⟩ := foreignKey_stands_iff hstatement (List.mem_singleton.mpr rfl)
  rw [hs] at hfirst hiff ⊢
  have hc : first = ⟨"c", "b_id", "b", "id", .manyToOne⟩ := by
    have he : (ofResolvedBlocks [⟨"c", [⟨"b_id", "int [ref: > b.id]"⟩]⟩,
        ⟨"b", [⟨"id", "int [pk] [ref: > a.id]"⟩]⟩, ⟨"a", [⟨"id", "int [pk]"⟩]⟩]).relationships.find?
          (·.touches "b" "id") = some ⟨"c", "b_id", "b", "id", .manyToOne⟩ := by decide +kernel
    exact Option.some.inj (hfirst.symm.trans he)
  refine ⟨hs ▸ hstatement, fun hstands => ?_⟩
  have hno := hiff.mp hstands
  rw [hc] at hno
  revert hno
  decide +kernel

/-- A table that refers to itself is exported with a column that refers to itself. -/
theorem foreignKey_of_selfReference :
    let source := "Table node \x7b id integer [pk]\n parent_id integer [ref: > node.id] \x7d"
    ∃ s ∈ (ofSource source).sqlStatements, s.table = "node" ∧
      ∃ k ∈ s.foreignKeys, k = ⟨"parent_id", "node", "parent_id"⟩ ∧
        ¬ ∃ r ∈ (ofSource source).relationships, k.StandsFor s.table r := by
  intro source
  have hs : ofSource source = ofResolvedBlocks
      [⟨"node", [⟨"id", "integer [pk]"⟩, ⟨"parent_id", "integer [ref: > node.id]"⟩]⟩] :=
    congrArg ofResolvedBlocks (by decide +kernel)
  rw [hs]
  decide +kernel

end Schema

end SchemaDiagram
