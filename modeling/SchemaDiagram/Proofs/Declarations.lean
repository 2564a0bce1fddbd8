import SchemaDiagram.Resolution
import SchemaDiagram.Proofs.FirstFields

namespace SchemaDiagram

namespace Field

/-- The field as its line declares it, without the marks of resolving. -/
def bare (f : Field) : Field := { f with isForeignKey := false, fault := none }

theorem bare_eq_iff {f g : Field} :
    f.bare = g.bare ↔ f.name = g.name ∧ f.definition = g.definition ∧
      f.isPrimaryKey = g.isPrimaryKey ∧ f.note = g.note := by
  simp [bare]

end Field

namespace Schema

/-- The same names find the same tables and, marks apart, the same fields. A reference is judged by these, never
by the marks that other references have left. -/
structure SameDeclarations (s t : Schema) : Prop where
  contains : ∀ name, s.tables.contains name = t.tables.contains name
  field? : ∀ table name, (s.field? table name).map Field.bare = (t.field? table name).map Field.bare

namespace SameDeclarations

variable {s t u : Schema}

theorem refl (s : Schema) : SameDeclarations s s := ⟨fun _ => rfl, fun _ _ => rfl⟩

theorem trans (h : SameDeclarations s t) (h' : SameDeclarations t u) : SameDeclarations s u :=
  ⟨fun name => (h.contains name).trans (h'.contains name),
    fun table name => (h.field? table name).trans (h'.field? table name)⟩

theorem isSome_field? (h : SameDeclarations s t) (table name : String) :
    (s.field? table name).isSome = (t.field? table name).isSome := by
  simpa using congrArg Option.isSome (h.field? table name)

theorem field?_cases (h : SameDeclarations s t) (table name : String) :
    (s.field? table name = none ∧ t.field? table name = none) ∨
      ∃ f g, s.field? table name = some f ∧ t.field? table name = some g ∧ f.bare = g.bare := by
  have hm := h.field? table name
  cases hs : s.field? table name with
  | none => exact .inl ⟨rfl, by simpa [hs] using hm.symm⟩
  | some f =>
    rw [hs, Option.map_some] at hm
    obtain ⟨g, hg, hb⟩ := Option.map_eq_some_iff.mp hm.symm
    exact .inr ⟨f, g, rfl, hg, hb.symm⟩

end SameDeclarations

theorem table?_isSome (schema : Schema) (name : String) :
    (schema.table? name).isSome = schema.tables.contains name := rfl

/-- Changes that touch nothing but marks keep the declarations. -/
theorem sameDeclarations_of_changeFirsts {s t : Schema} {change : String → Field → Field}
    (ht : t.tables = changeFirsts change s.tables)
    (hbare : ∀ table f, (change table f).bare = f.bare) : SameDeclarations t s := by
  have hname : ∀ table f, (change table f).name = f.name := fun table f =>
    (Field.bare_eq_iff.mp (hbare table f)).1
  refine ⟨?_, ?_⟩
  · intro table
    rw [OrderedMap.contains, OrderedMap.contains, ht, changeFirsts, OrderedMap.get?_mapValues,
      Option.isSome_map]
  · intro table name
    have hfield : t.field? table name = (s.field? table name).map (change table) := by
      unfold field? table?
      rw [ht]
      exact field?_changeFirsts change hname s.tables table name
    rw [hfield, Option.map_map]
    congr 1
    funext f
    exact hbare table f

end Schema

namespace ReferenceSite

/-- The first check that the target of a reference fails: there has to be a table of the name, in it
a field of the name, and that field has to be a primary key. -/
def targetFault? (schema : Schema) (site : ReferenceSite) : Option ReferenceError :=
  if schema.tables.contains site.target.table then
    match schema.field? site.target.table site.target.field with
    | none => some (.fieldMissing site.target.table site.target.field)
    | some target => if target.isPrimaryKey then none else some (.notPrimaryKey site.target.field)
  else some (.tableMissing site.target.table)

/-- The relationship that a reference stands for. -/
def relationship (site : ReferenceSite) : Relationship where
  fromTable := site.table
  fromField := site.line.name
  toTable := site.target.table
  toField := site.target.field
  direction := site.target.direction

theorem link_eq (schema : Schema) (site : ReferenceSite) :
    site.link schema = match site.targetFault? schema with
      | none => .ok site.relationship
      | some fault => .error fault := by
  unfold link targetFault? Schema.field?
  rw [← Schema.table?_isSome]
  cases schema.table? site.target.table with
  | none => rfl
  | some table =>
    simp only [Option.isSome_some, if_true, Option.bind_some]
    cases table.field? site.target.field with
    | none => rfl
    | some target => cases hk : target.isPrimaryKey <;> simp [hk, relationship]

theorem targetFault?_eq_none_iff {schema : Schema} {site : ReferenceSite} :
    site.targetFault? schema = none ↔
      ∃ target, schema.field? site.target.table site.target.field = some target ∧
        target.isPrimaryKey = true := by
  unfold targetFault? Schema.field?
  rw [← Schema.table?_isSome]
  cases schema.table? site.target.table with
  | none => simp
  | some table =>
    cases hf : table.field? site.target.field with
    | none => simp [hf]
    | some target => cases hk : target.isPrimaryKey <;> simp [hf, hk]

variable {s t : Schema}

theorem targetFault?_congr (h : s.SameDeclarations t) (site : ReferenceSite) :
    site.targetFault? s = site.targetFault? t := by
  unfold targetFault?
  rw [h.contains]
  obtain ⟨hs, ht⟩ | ⟨f, g, hs, ht, hb⟩ := h.field?_cases site.target.table site.target.field
  · rw [hs, ht]
  · simp only [hs, ht, (Field.bare_eq_iff.mp hb).2.2.1]

theorem typeFault?_congr (h : s.SameDeclarations t) (site : ReferenceSite) :
    site.typeFault? s = site.typeFault? t := by
  unfold typeFault?
  obtain ⟨hs, ht⟩ | ⟨f, g, hs, ht, hb⟩ := h.field?_cases site.target.table site.target.field
  · rw [hs, ht]
  · have hd : f.declaredType = g.declaredType :=
      congrArg FieldDefinition.declaredType (Field.bare_eq_iff.mp hb).2.1
    simp only [hs, ht, Option.bind_eq_bind, Option.bind_some]
    rw [hd]

end ReferenceSite

end SchemaDiagram
