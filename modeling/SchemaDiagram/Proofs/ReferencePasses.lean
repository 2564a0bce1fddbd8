import SchemaDiagram.Proofs.ReferenceMarks

namespace SchemaDiagram

/-- The relationship that a reference adds: its own line is in the schema, and its target passes every
check. -/
def ReferenceSite.relationship? (schema : Schema) (site : ReferenceSite) : Option Relationship :=
  if (schema.field? site.table site.line.name).isSome ∧ site.targetFault? schema = none then
    some site.relationship
  else none

theorem ReferenceSite.relationship?_congr {s t : Schema} (h : s.SameDeclarations t)
    (site : ReferenceSite) : site.relationship? s = site.relationship? t := by
  unfold relationship?
  rw [h.isSome_field?, targetFault?_congr h]

/-- The field after both passes: it refers if a reference stands in its lines, and a type mismatch
has the last word, before any fault of a target. -/
def Field.resolved (schema : Schema) (own : List ReferenceSite) (f : Field) : Field :=
  f.noted (!own.isEmpty)
    (((own.filterMap (·.typeFault? schema)).getLast?).or
      (own.filterMap (·.targetFault? schema)).getLast?)

namespace Schema

variable {schema current : Schema}

theorem tables_resolveSite (h : SameDeclarations current schema) (site : ReferenceSite) :
    (current.resolveSite site).tables =
      changeFirsts (noteSite true (·.targetFault? schema) site) current.tables := by
  rw [← modify_noted]
  have hnone : Field.asForeignKey = Field.noted true none := by
    funext f
    simp [Field.asForeignKey, Field.noted]
  have hsome : ∀ fault, Field.withFault fault ∘ Field.asForeignKey = Field.noted true (some fault) := by
    intro fault
    funext f
    simp [Field.withFault, Field.asForeignKey, Field.noted]
  unfold resolveSite
  split
  next hf => rw [modify_of_field?_none hf]
  next hf =>
    rw [ReferenceSite.link_eq, ReferenceSite.targetFault?_congr h]
    cases site.targetFault? schema with
    | none => simp only [modifyField, hnone]
    | some fault => simp only [modifyField, hsome]

theorem relationships_resolveSite (h : SameDeclarations current schema) (site : ReferenceSite) :
    (current.resolveSite site).relationships =
      current.relationships ++ (site.relationship? schema).toList := by
  rw [← ReferenceSite.relationship?_congr h]
  unfold resolveSite ReferenceSite.relationship?
  rw [ReferenceSite.link_eq]
  cases hf : current.field? site.table site.line.name with
  | none => simp
  | some f => cases ht : site.targetFault? current <;> simp [modifyField]

theorem tables_checkType (h : SameDeclarations current schema) (site : ReferenceSite) :
    (current.checkType site).tables =
      changeFirsts (noteSite false (·.typeFault? schema) site) current.tables := by
  rw [← modify_noted]
  have hsome : ∀ fault, Field.withFault fault = Field.noted false (some fault) := by
    intro fault
    funext f
    simp [Field.withFault, Field.noted]
  have hnone : ∀ table field, current.tables.modify table
      (Table.modifyField field (Field.noted false none)) = current.tables := by
    intro table field
    have hid : Field.noted false none = fun f => f := funext Field.noted_none
    rw [hid, modify_eq_changeFirsts]
    simp only [ite_self, changeFirsts_id]
  unfold checkType
  rw [ReferenceSite.typeFault?_congr h]
  cases site.typeFault? schema with
  | none => rw [hnone]
  | some fault => simp only [modifyField, hsome]

@[simp] theorem relationships_checkType (site : ReferenceSite) :
    (current.checkType site).relationships = current.relationships := by
  unfold checkType
  split <;> rfl

theorem sameDeclarations_resolveSite (h : SameDeclarations current schema) (site : ReferenceSite) :
    SameDeclarations (current.resolveSite site) schema :=
  (sameDeclarations_of_changeFirsts (tables_resolveSite h site) (bare_noteSite _ _ site)).trans h

/-- No reference is lost, doubled or moved by the walk, for none changes what a later one reads. -/
theorem relationships_foldl_resolveSite (sites : List ReferenceSite)
    (h : SameDeclarations current schema) :
    (sites.foldl resolveSite current).relationships =
      current.relationships ++ sites.filterMap (·.relationship? schema) := by
  induction sites generalizing current with
  | nil => simp
  | cons site rest ih =>
    rw [List.foldl_cons, ih (sameDeclarations_resolveSite h site), relationships_resolveSite h]
    cases hr : site.relationship? schema <;> simp [hr]

theorem relationships_foldl_checkType (sites : List ReferenceSite) :
    (sites.foldl checkType current).relationships = current.relationships := by
  induction sites generalizing current with
  | nil => rfl
  | cons site rest ih => rw [List.foldl_cons, ih, relationships_checkType]

theorem tables_foldl_resolveSite (schema : Schema) (sites : List ReferenceSite) :
    (sites.foldl resolveSite schema).tables =
      changeFirsts (fun table f =>
        f.noteAll true (·.targetFault? schema) (sitesOf sites table f.name)) schema.tables :=
  tables_foldl (fun _ site h => tables_resolveSite h site) sites (SameDeclarations.refl schema)

theorem tables_resolve (schema : Schema) (blocks : List TableBlock) :
    (schema.resolve blocks).tables =
      changeFirsts (fun table f =>
        f.resolved schema (sitesOf (blocks.flatMap TableBlock.sites) table f.name))
        schema.tables := by
  have hlinked := tables_foldl_resolveSite schema (blocks.flatMap TableBlock.sites)
  have hsame : SameDeclarations
      ((blocks.flatMap TableBlock.sites).foldl resolveSite schema) schema :=
    sameDeclarations_of_changeFirsts hlinked (fun _ _ => rfl)
  unfold resolve
  rw [tables_foldl (fun _ site h => tables_checkType h site) _ hsame, hlinked,
    changeFirsts_changeFirsts _ (by intro _ _; rfl)]
  simp only [Field.noteAll, Field.name_noted, Field.noted_noted, Bool.false_and, Bool.true_and,
    Bool.or_false, Field.resolved]

theorem relationships_resolve (schema : Schema) (blocks : List TableBlock) :
    (schema.resolve blocks).relationships = schema.relationships ++
      (blocks.flatMap TableBlock.sites).filterMap (·.relationship? schema) := by
  unfold resolve
  rw [relationships_foldl_checkType, relationships_foldl_resolveSite _ (SameDeclarations.refl schema)]

theorem sameDeclarations_resolve (schema : Schema) (blocks : List TableBlock) :
    SameDeclarations (schema.resolve blocks) schema :=
  sameDeclarations_of_changeFirsts (tables_resolve schema blocks) (fun _ _ => rfl)

end Schema

end SchemaDiagram
