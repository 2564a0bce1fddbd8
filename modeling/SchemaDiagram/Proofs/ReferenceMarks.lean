import SchemaDiagram.Proofs.Declarations

namespace SchemaDiagram

/-- Whether the reference stands in a line of the name in a block of the name. -/
def ReferenceSite.isOf (table field : String) (site : ReferenceSite) : Bool :=
  site.table == table && site.line.name == field

theorem ReferenceSite.isOf_iff {table field : String} {site : ReferenceSite} :
    site.isOf table field = true ↔ site.table = table ∧ site.line.name = field := by
  simp [isOf]

/-- The references in lines of the name in blocks of the name, in order. -/
def sitesOf (sites : List ReferenceSite) (table field : String) : List ReferenceSite :=
  sites.filter (ReferenceSite.isOf table field)

namespace Field

/-- The field with one more finding about its references: whether it refers, and a fault that takes
the place of the one before. -/
def noted (refers : Bool) (fault? : Option ReferenceError) (f : Field) : Field :=
  { f with isForeignKey := f.isForeignKey || refers, fault := fault?.or f.fault }

@[simp] theorem noted_none (f : Field) : f.noted false none = f := by
  simp [noted]

@[simp] theorem bare_noted (refers : Bool) (fault? : Option ReferenceError) (f : Field) :
    (f.noted refers fault?).bare = f.bare := rfl

@[simp] theorem name_noted (refers : Bool) (fault? : Option ReferenceError) (f : Field) :
    (f.noted refers fault?).name = f.name := rfl

theorem noted_noted (refers later : Bool) (fault? next? : Option ReferenceError) (f : Field) :
    (f.noted refers fault?).noted later next? = f.noted (refers || later) (next?.or fault?) := by
  simp [noted, Bool.or_assoc, Option.or_assoc]

/-- What a pass over the references does to one field. -/
def noteAll (refers : Bool) (fault? : ReferenceSite → Option ReferenceError)
    (own : List ReferenceSite) (f : Field) : Field :=
  f.noted (refers && !own.isEmpty) (own.filterMap fault?).getLast?

theorem noteAll_cons (refers : Bool) (fault? : ReferenceSite → Option ReferenceError)
    (site : ReferenceSite) (own : List ReferenceSite) (f : Field) :
    noteAll refers fault? own (f.noted refers (fault? site)) =
      noteAll refers fault? (site :: own) f := by
  have hlast : ((own.filterMap fault?).getLast?).or (fault? site) =
      ((site :: own).filterMap fault?).getLast? := by
    cases hf : fault? site with
    | none => simp [hf]
    | some fault =>
      cases hl : (own.filterMap fault?).getLast? <;> simp [hf, hl, List.getLast?_cons]
  have hrefers : (refers || (refers && !own.isEmpty)) = (refers && !(site :: own).isEmpty) := by
    cases refers <;> simp
  unfold noteAll
  rw [noted_noted, hlast, hrefers]

end Field

namespace Schema

/-- The change that one reference makes in a pass. -/
def noteSite (refers : Bool) (fault? : ReferenceSite → Option ReferenceError) (site : ReferenceSite)
    (table : String) (f : Field) : Field :=
  if site.isOf table f.name then f.noted refers (fault? site) else f

theorem bare_noteSite (refers : Bool) (fault? : ReferenceSite → Option ReferenceError)
    (site : ReferenceSite) (table : String) (f : Field) :
    (noteSite refers fault? site table f).bare = f.bare := by
  unfold noteSite
  split <;> simp

theorem modify_noted (tables : OrderedMap String Table) (site : ReferenceSite) (refers : Bool)
    (fault? : ReferenceSite → Option ReferenceError) :
    tables.modify site.table (Table.modifyField site.line.name (Field.noted refers (fault? site))) =
      changeFirsts (noteSite refers fault? site) tables := by
  rw [modify_eq_changeFirsts]
  congr 1
  funext table f
  unfold noteSite
  by_cases h : table = site.table ∧ f.name = site.line.name
  · rw [if_pos h, if_pos (ReferenceSite.isOf_iff.mpr ⟨h.1.symm, h.2.symm⟩)]
  · have hno : ¬ site.isOf table f.name = true := fun hof =>
      h ⟨(ReferenceSite.isOf_iff.mp hof).1.symm, (ReferenceSite.isOf_iff.mp hof).2.symm⟩
    rw [if_neg h, if_neg hno]

theorem changeFirsts_changeFirsts {first : String → Field → Field} (second : String → Field → Field)
    (hname : ∀ table f, (first table f).name = f.name) (tables : OrderedMap String Table) :
    changeFirsts second (changeFirsts first tables) =
      changeFirsts (fun table f => second table (first table f)) tables := by
  apply OrderedMap.ext_entries
  simp only [changeFirsts, OrderedMap.mapValues, List.map_map]
  apply List.map_congr_left
  intro entry _
  simp [Table.mapFirsts_mapFirsts _ (hname entry.1)]

theorem changeFirsts_id (tables : OrderedMap String Table) :
    changeFirsts (fun _ f => f) tables = tables := by
  apply OrderedMap.ext_entries
  simp [changeFirsts, OrderedMap.mapValues, Table.mapFirsts_id]

/-- Changing a field that no lookup finds changes nothing. -/
theorem modify_of_field?_none {schema : Schema} {table field : String}
    (h : schema.field? table field = none) (change : Field → Field) :
    schema.tables.modify table (Table.modifyField field change) = schema.tables := by
  have hentry : ∀ entry ∈ schema.tables.entries,
      (if entry.1 = table then (entry.1, Table.modifyField field change entry.2) else entry) =
        entry := by
    intro ⟨key, old⟩ hm
    by_cases he : key = table
    · subst he
      have hget : schema.table? key = some old := OrderedMap.mem_entries_iff.mp hm
      have hfield : Table.field? old field = none := by simpa [field?, hget] using h
      simp [Table.modifyField_of_field?_none hfield]
    · rw [if_neg he]
  apply OrderedMap.ext_entries
  exact (List.map_congr_left hentry).trans (List.map_id' _)

/-- In either pass the marks of a table follow from the references alone: each step changes first
fields by one reference, and no step changes a declaration that a later one reads. -/
theorem tables_foldl {schema : Schema} {step : Schema → ReferenceSite → Schema} {refers : Bool}
    {fault? : ReferenceSite → Option ReferenceError}
    (hstep : ∀ current site, SameDeclarations current schema →
      (step current site).tables = changeFirsts (noteSite refers fault? site) current.tables)
    (sites : List ReferenceSite) {current : Schema} (h : SameDeclarations current schema) :
    (sites.foldl step current).tables =
      changeFirsts (fun table f => f.noteAll refers fault? (sitesOf sites table f.name))
        current.tables := by
  induction sites generalizing current with
  | nil => simp [sitesOf, Field.noteAll, changeFirsts_id]
  | cons site rest ih =>
    have hfirst := hstep current site h
    have hnext : SameDeclarations (step current site) schema :=
      (sameDeclarations_of_changeFirsts hfirst (bare_noteSite refers fault? site)).trans h
    have hname : ∀ table f, (noteSite refers fault? site table f).name = f.name := fun table f =>
      (Field.bare_eq_iff.mp (bare_noteSite refers fault? site table f)).1
    rw [List.foldl_cons, ih hnext, hfirst, changeFirsts_changeFirsts _ hname]
    congr 1
    funext table f
    rw [hname]
    by_cases hof : site.isOf table f.name
    · simp only [noteSite, hof, if_true, sitesOf, List.filter_cons_of_pos hof, Field.noteAll_cons]
    · simp only [noteSite, hof, if_false, sitesOf, List.filter_cons_of_neg hof, Bool.false_eq_true]

end Schema

end SchemaDiagram
