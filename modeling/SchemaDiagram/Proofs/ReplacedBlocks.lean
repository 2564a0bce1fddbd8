import SchemaDiagram.Proofs.RelationshipList

namespace SchemaDiagram

namespace TableBlock

def isReplacedBy (block : TableBlock) (later : List TableBlock) : Bool :=
  later.any (·.name == block.name)

/-- The block without its lines if a later one replaces it. -/
def keptBefore (block : TableBlock) (later : List TableBlock) : TableBlock :=
  if block.isReplacedBy later then { block with lines := [] } else block

/-- The references of the block if a later one replaces it. -/
def lostBefore (block : TableBlock) (later : List TableBlock) : List ReferenceSite :=
  if block.isReplacedBy later then block.sites else []

end TableBlock

/-- The blocks with the lines of every replaced block taken out. -/
def emptyReplaced : List TableBlock → List TableBlock
  | [] => []
  | block :: rest => block.keptBefore rest :: emptyReplaced rest

/-- The references in lines of replaced blocks, in order. The fields of these blocks are gone, but their
references are still looked at, and show in a field of the new block that happens to have the name of their
line. -/
def replacedSites : List TableBlock → List ReferenceSite
  | [] => []
  | block :: rest => block.lostBefore rest ++ replacedSites rest

namespace TableBlock

variable {block : TableBlock} {later : List TableBlock}

theorem isReplacedBy_iff :
    block.isReplacedBy later = true ↔ ∃ other ∈ later, other.name = block.name := by
  simp [isReplacedBy]

@[simp] theorem name_keptBefore (block : TableBlock) (later : List TableBlock) :
    (block.keptBefore later).name = block.name := by
  unfold keptBefore
  split <;> rfl

theorem lostBefore_append_sites (block : TableBlock) (later : List TableBlock) :
    block.lostBefore later ++ (block.keptBefore later).sites = block.sites := by
  unfold lostBefore keptBefore
  split
  · exact List.append_nil _
  · rfl

theorem sites_keptBefore_of_isReplacedBy (h : block.isReplacedBy later = true) :
    (block.keptBefore later).sites = [] := by
  simp [keptBefore, h, sites]

theorem table_of_mem_sites {site : ReferenceSite} (h : site ∈ block.sites) :
    site.table = block.name := by
  obtain ⟨line, _, hline⟩ := List.mem_filterMap.mp h
  obtain ⟨_, _, rfl⟩ := Option.map_eq_some_iff.mp hline
  rfl

end TableBlock

theorem map_name_emptyReplaced (blocks : List TableBlock) :
    (emptyReplaced blocks).map TableBlock.name = blocks.map TableBlock.name := by
  induction blocks with
  | nil => rfl
  | cons block rest ih => simp [emptyReplaced, ih]

/-- The block that counts for a name is the last one, which no other replaces. -/
theorem getLast?_filter_emptyReplaced (blocks : List TableBlock) (name : String) :
    ((emptyReplaced blocks).filter fun block => block.name = name).getLast? =
      (blocks.filter fun block => block.name = name).getLast? := by
  induction blocks with
  | nil => rfl
  | cons block rest ih =>
    rw [emptyReplaced]
    by_cases hname : block.name = name
    · rw [List.filter_cons_of_pos (by simpa using hname),
        List.filter_cons_of_pos (by simpa using hname), List.getLast?_cons, List.getLast?_cons, ih]
      by_cases hreplaced : block.isReplacedBy rest = true
      · obtain ⟨other, hother, he⟩ := TableBlock.isReplacedBy_iff.mp hreplaced
        have hmem : other ∈ rest.filter fun block => block.name = name := by simp [hother, he, hname]
        obtain ⟨last, hlast⟩ := Option.isSome_iff_exists.mp
          (List.getLast?_isSome.mpr (List.ne_nil_of_mem hmem))
        rw [hlast]
        rfl
      · rw [TableBlock.keptBefore, if_neg hreplaced]
    · rw [List.filter_cons_of_neg (by simpa using hname),
        List.filter_cons_of_neg (by simpa using hname), ih]

theorem Schema.ofBlocks_emptyReplaced (blocks : List TableBlock) :
    ofBlocks (emptyReplaced blocks) = ofBlocks blocks := by
  have hnames : ((emptyReplaced blocks).map fun block => (block.name, Table.ofBlock block)).map
      Prod.fst = (blocks.map fun block => (block.name, Table.ofBlock block)).map Prod.fst := by
    simpa [Function.comp_def] using map_name_emptyReplaced blocks
  have htables : (ofBlocks (emptyReplaced blocks)).tables = (ofBlocks blocks).tables := by
    apply OrderedMap.ext_keys
    · exact OrderedMap.keys_foldl_insert_congr hnames rfl
    · intro name
      have h := table?_ofBlocks (emptyReplaced blocks) name
      rw [getLast?_filter_emptyReplaced, ← table?_ofBlocks] at h
      exact h
  exact congrArg (fun tables => { tables : Schema }) htables

section Sites

variable {table field : String}

theorem sitesOf_append (xs ys : List ReferenceSite) :
    sitesOf (xs ++ ys) table field = sitesOf xs table field ++ sitesOf ys table field :=
  List.filter_append xs ys

theorem sitesOf_sites_of_ne {block : TableBlock} (h : block.name ≠ table) :
    sitesOf block.sites table field = [] := by
  refine List.filter_eq_nil_iff.mpr ?_
  intro site hm hof
  exact h ((TableBlock.table_of_mem_sites hm).symm.trans (ReferenceSite.isOf_iff.mp hof).1)

theorem sitesOf_flatMap_of_forall_ne {blocks : List TableBlock}
    (h : ∀ block ∈ blocks, block.name ≠ table) :
    sitesOf (blocks.flatMap TableBlock.sites) table field = [] := by
  induction blocks with
  | nil => rfl
  | cons block rest ih =>
    rw [List.flatMap_cons, sitesOf_append, sitesOf_sites_of_ne (h block List.mem_cons_self),
      ih fun other hm => h other (List.mem_cons_of_mem block hm)]
    rfl

/-- Replaced blocks of a name come before the one that stands, and so do their references. -/
theorem sitesOf_eq_append (blocks : List TableBlock) (table field : String) :
    sitesOf (blocks.flatMap TableBlock.sites) table field =
      sitesOf (replacedSites blocks) table field ++
        sitesOf ((emptyReplaced blocks).flatMap TableBlock.sites) table field := by
  induction blocks with
  | nil => rfl
  | cons block rest ih =>
    rw [replacedSites, emptyReplaced, List.flatMap_cons, List.flatMap_cons, sitesOf_append,
      sitesOf_append, sitesOf_append, ← block.lostBefore_append_sites rest, sitesOf_append, ih]
    -- What the block keeps has to change places with what later blocks lose: one of them is nothing.
    have hswap : sitesOf (block.keptBefore rest).sites table field = [] ∨
        sitesOf (replacedSites rest) table field = [] := by
      by_cases hreplaced : block.isReplacedBy rest = true
      · left
        rw [TableBlock.sites_keptBefore_of_isReplacedBy hreplaced]
        rfl
      by_cases hname : block.name = table
      · right
        have hno : ∀ other ∈ rest, other.name ≠ table := fun other hm he =>
          hreplaced (TableBlock.isReplacedBy_iff.mpr ⟨other, hm, he.trans hname.symm⟩)
        have hnone : sitesOf (rest.flatMap TableBlock.sites) table field = [] :=
          sitesOf_flatMap_of_forall_ne hno
        rw [ih] at hnone
        exact (List.append_eq_nil_iff.mp hnone).1
      · left
        exact sitesOf_sites_of_ne (by simpa using hname)
    rcases hswap with hnil | hnil
    · simp [hnil]
    · simp [hnil]

end Sites

section Results

variable {α : Type} (read : ReferenceSite → Option α)

theorem length_filterMap_sites (blocks : List TableBlock) :
    ((blocks.flatMap TableBlock.sites).filterMap read).length =
      ((replacedSites blocks).filterMap read).length +
        (((emptyReplaced blocks).flatMap TableBlock.sites).filterMap read).length := by
  induction blocks with
  | nil => rfl
  | cons block rest ih =>
    simp only [replacedSites, emptyReplaced, List.flatMap_cons, List.filterMap_append,
      List.length_append, ih, ← block.lostBefore_append_sites rest]
    omega

/-- Taking out references leaves the same list of results just if those gave none. -/
theorem filterMap_sites_eq_iff (blocks : List TableBlock) :
    (blocks.flatMap TableBlock.sites).filterMap read =
        ((emptyReplaced blocks).flatMap TableBlock.sites).filterMap read ↔
      ∀ site ∈ replacedSites blocks, read site = none := by
  rw [← List.filterMap_eq_nil_iff]
  constructor
  · intro he
    have hlength := length_filterMap_sites read blocks
    rw [he] at hlength
    exact List.length_eq_zero_iff.mp (by omega)
  · intro hnil
    induction blocks with
    | nil => rfl
    | cons block rest ih =>
      rw [replacedSites, List.filterMap_append] at hnil
      obtain ⟨hlost, hrest⟩ := List.append_eq_nil_iff.mp hnil
      simp only [emptyReplaced, List.flatMap_cons, List.filterMap_append, ih hrest,
        ← block.lostBefore_append_sites rest, hlost, List.nil_append]

end Results

section Verdicts

/-- The fault that a field is left with by the references in its lines. -/
def lastFault? (schema : Schema) (own : List ReferenceSite) : Option ReferenceError :=
  ((own.filterMap (·.typeFault? schema)).getLast?).or
    (own.filterMap (·.targetFault? schema)).getLast?

/-- Both lists of references leave the same marks on a field. -/
def SameVerdict (schema : Schema) (own others : List ReferenceSite) : Prop :=
  (own = [] ↔ others = []) ∧ lastFault? schema own = lastFault? schema others

theorem resolved_ofLine_eq_iff {schema : Schema} {own others : List ReferenceSite} {line : FieldLine} :
    (Field.ofLine line).resolved schema own = (Field.ofLine line).resolved schema others ↔
      SameVerdict schema own others := by
  have hrefers : (!own.isEmpty) = !others.isEmpty ↔ (own = [] ↔ others = []) := by
    cases own <;> cases others <;> simp
  unfold SameVerdict
  rw [← hrefers]
  simp [Field.resolved, Field.noted, Field.ofLine, lastFault?]

variable {schema : Schema} {lost kept : List ReferenceSite}

theorem ReferenceSite.targetFault?_ne_typeFault? {site other : ReferenceSite} {fault : ReferenceError}
    (h : site.typeFault? schema = some fault) : other.targetFault? schema ≠ some fault := by
  have hmismatch : ∃ fromType toType table field,
      fault = .typeMismatch fromType toType table field := by
    unfold typeFault? at h
    obtain ⟨target, _, h⟩ := Option.bind_eq_some_iff.mp h
    dsimp only at h
    split at h
    · cases h
    · exact ⟨_, _, _, _, (Option.some.inj h).symm⟩
  obtain ⟨_, _, _, _, rfl⟩ := hmismatch
  intro hother
  unfold targetFault? at hother
  split at hother
  · split at hother
    · cases hother
    · split at hother <;> cases hother
  · cases hother

theorem getLast?_target_ne_type {fault : ReferenceError}
    (h : (lost.filterMap (·.typeFault? schema)).getLast? = some fault) :
    (kept.filterMap (·.targetFault? schema)).getLast? ≠ some fault := by
  obtain ⟨site, _, hsite⟩ := List.mem_filterMap.mp (List.mem_of_getLast? h)
  intro hother
  obtain ⟨other, _, ho⟩ := List.mem_filterMap.mp (List.mem_of_getLast? hother)
  exact ReferenceSite.targetFault?_ne_typeFault? hsite ho

/-- References that come first and all fail a check of their target change nothing just if the others
mismatch a type, or fail such a check themselves while the first ones mismatch none. -/
theorem lastFault?_append_eq_iff (hne : lost ≠ [])
    (htarget : ∀ site ∈ lost, (site.targetFault? schema).isSome = true) :
    lastFault? schema (lost ++ kept) = lastFault? schema kept ↔
      (∃ other ∈ kept, (other.typeFault? schema).isSome = true) ∨
        ((∀ site ∈ lost, site.typeFault? schema = none) ∧
          ∃ other ∈ kept, (other.targetFault? schema).isSome = true) := by
  obtain ⟨first, hfirst⟩ := List.exists_mem_of_ne_nil lost hne
  have hlost : ((lost.filterMap (·.targetFault? schema)).getLast?).isSome = true :=
    (isSome_getLast?_filterMap _ lost).mpr ⟨first, hfirst, htarget first hfirst⟩
  have hdistinct : ∀ fault, (lost.filterMap (·.typeFault? schema)).getLast? = some fault →
      (kept.filterMap (·.targetFault? schema)).getLast? ≠ some fault :=
    fun _ => getLast?_target_ne_type
  rw [← isSome_getLast?_filterMap, ← isSome_getLast?_filterMap, ← List.filterMap_eq_nil_iff,
    ← List.getLast?_eq_none_iff]
  simp only [lastFault?, List.filterMap_append, List.getLast?_append]
  generalize (kept.filterMap (·.typeFault? schema)).getLast? = keptType
  generalize (lost.filterMap (·.typeFault? schema)).getLast? = lostType at hdistinct ⊢
  generalize (kept.filterMap (·.targetFault? schema)).getLast? = keptTarget at hdistinct ⊢
  generalize (lost.filterMap (·.targetFault? schema)).getLast? = lostTarget at hlost ⊢
  cases keptType with
  | some fault => simp
  | none =>
    cases lostType with
    | some fault => simp [Ne.symm (hdistinct fault rfl)]
    | none =>
      cases keptTarget with
      | some fault => simp
      | none => cases lostTarget <;> simp at hlost ⊢

end Verdicts

/-- The reference shows nowhere beside those in standing lines of its name: its target fails a check,
and one of them mismatches a type, or fails such a check itself while the reference mismatches none. -/
def ReferenceSite.IsOutranked (schema : Schema) (standing : List ReferenceSite) (site : ReferenceSite) :
    Prop :=
  (site.targetFault? schema).isSome = true ∧
    ((∃ other ∈ standing, (other.typeFault? schema).isSome = true) ∨
      (site.typeFault? schema = none ∧
        ∃ other ∈ standing, (other.targetFault? schema).isSome = true))

theorem ReferenceSite.isOutranked_congr {s t : Schema} (h : s.SameDeclarations t)
    (standing : List ReferenceSite) (site : ReferenceSite) :
    site.IsOutranked s standing ↔ site.IsOutranked t standing := by
  simp only [IsOutranked, targetFault?_congr h, typeFault?_congr h]

theorem sameVerdict_of_isOutranked {schema : Schema} {lost standing : List ReferenceSite}
    (h : ∀ site ∈ lost, site.IsOutranked schema standing) :
    SameVerdict schema (lost ++ standing) standing := by
  by_cases hne : lost = []
  · subst hne
    exact ⟨.rfl, rfl⟩
  obtain ⟨first, hfirst⟩ := List.exists_mem_of_ne_nil lost hne
  have hstanding : standing ≠ [] := by
    rcases (h first hfirst).2 with ⟨other, ho, _⟩ | ⟨_, other, ho, _⟩
    · exact List.ne_nil_of_mem ho
    · exact List.ne_nil_of_mem ho
  refine ⟨by simp [hne, hstanding], ?_⟩
  rw [lastFault?_append_eq_iff hne fun site hm => (h site hm).1]
  by_cases htype : ∃ other ∈ standing, (other.typeFault? schema).isSome = true
  · exact .inl htype
  · have hrest := fun site hm => (h site hm).2.resolve_left htype
    exact .inr ⟨fun site hm => (hrest site hm).1, (hrest first hfirst).2⟩

namespace Schema

/-- Declared tables get the same marks from two accounts of the references just if these agree on every
name that a table has a field of. -/
theorem changeFirsts_resolved_eq_iff {schema : Schema} {blocks : List TableBlock}
    {own others : String → String → List ReferenceSite} :
    changeFirsts (fun table f => f.resolved schema (own table f.name)) (ofBlocks blocks).tables =
        changeFirsts (fun table f => f.resolved schema (others table f.name)) (ofBlocks blocks).tables ↔
      ∀ table field, ((ofBlocks blocks).field? table field).isSome = true →
        SameVerdict schema (own table field) (others table field) := by
  constructor
  · intro he table field hsome
    obtain ⟨f, hf⟩ := Option.isSome_iff_exists.mp hsome
    obtain ⟨records, hrecords, hfind⟩ := Option.bind_eq_some_iff.mp hf
    obtain ⟨line, rfl⟩ := exists_line_of_mem_ofBlocks hrecords (List.mem_of_find?_eq_some hfind)
    have hname : line.name = field := by simpa [Field.ofLine] using List.find?_some hfind
    have hmarked : ∀ account : String → String → List ReferenceSite,
        ((changeFirsts (fun table f => f.resolved schema (account table f.name))
          (ofBlocks blocks).tables).get? table).bind (fun records => records.field? field) =
            some ((Field.ofLine line).resolved schema (account table line.name)) := by
      intro account
      have hchanged := field?_changeFirsts
        (fun table f => f.resolved schema (account table f.name)) (fun _ _ => rfl)
        (ofBlocks blocks).tables table field
      exact hchanged.trans (congrArg (Option.map _) hf)
    have hlookup := (hmarked own).symm.trans ((congrArg (fun tables : OrderedMap String Table =>
      (tables.get? table).bind fun records => records.field? field) he).trans (hmarked others))
    have hresolved := resolved_ofLine_eq_iff.mp (Option.some.inj hlookup)
    exact hname ▸ hresolved
  · intro h
    apply OrderedMap.ext_entries
    refine List.map_congr_left ?_
    rintro ⟨table, records⟩ hm
    have hrecords : (ofBlocks blocks).table? table = some records := OrderedMap.mem_entries_iff.mp hm
    refine congrArg (Prod.mk table) (Table.mapFirsts_congr ?_ [])
    intro f hf
    have hsome : ((ofBlocks blocks).field? table f.name).isSome = true := by
      rw [field?, hrecords, Option.bind_some, Table.field?, List.find?_isSome]
      exact ⟨f, hf, by simp⟩
    obtain ⟨line, rfl⟩ := exists_line_of_mem_ofBlocks hrecords hf
    exact resolved_ofLine_eq_iff.mpr (h table _ hsome)

theorem eq_iff {s t : Schema} : s = t ↔ s.tables = t.tables ∧ s.relationships = t.relationships := by
  cases s
  cases t
  simp

theorem relationship?_eq_none_iff {schema : Schema} {site : ReferenceSite} :
    site.relationship? schema = none ↔
      ((schema.field? site.table site.line.name).isSome = true →
        (site.targetFault? schema).isSome = true) := by
  unfold ReferenceSite.relationship?
  cases site.targetFault? schema <;> simp

theorem ofResolvedBlocks_eq_emptyReplaced_iff (blocks : List TableBlock) :
    ofResolvedBlocks blocks = ofResolvedBlocks (emptyReplaced blocks) ↔
      ∀ site ∈ replacedSites blocks,
        ((ofBlocks blocks).field? site.table site.line.name).isSome = true →
          site.IsOutranked (ofBlocks blocks)
            (sitesOf ((emptyReplaced blocks).flatMap TableBlock.sites) site.table site.line.name) := by
  rw [eq_iff]
  simp only [ofResolvedBlocks, tables_resolve, relationships_resolve, ofBlocks_emptyReplaced]
  rw [changeFirsts_resolved_eq_iff, List.append_cancel_left_eq, filterMap_sites_eq_iff]
  simp only [relationship?_eq_none_iff, sitesOf_eq_append blocks]
  constructor
  · rintro ⟨hmarks, htarget⟩ site hm hsome
    have hmem : site ∈ sitesOf (replacedSites blocks) site.table site.line.name := by
      simp [sitesOf, hm, ReferenceSite.isOf]
    have hlost : ∀ other ∈ sitesOf (replacedSites blocks) site.table site.line.name,
        (other.targetFault? (ofBlocks blocks)).isSome = true := by
      intro other ho
      obtain ⟨hother, hof⟩ := List.mem_filter.mp ho
      obtain ⟨ht, hf⟩ := ReferenceSite.isOf_iff.mp hof
      exact htarget other hother (by rw [ht, hf]; exact hsome)
    have hsame := (hmarks site.table site.line.name hsome).2
    refine ⟨hlost site hmem, ?_⟩
    have hcases := (lastFault?_append_eq_iff (List.ne_nil_of_mem hmem) hlost).mp hsame
    rcases hcases with htype | ⟨hno, htarget⟩
    · exact .inl htype
    · exact .inr ⟨hno site hmem, htarget⟩
  · intro h
    refine ⟨?_, fun site hm hsome => (h site hm hsome).1⟩
    intro table field hsome
    have hlost : ∀ site ∈ sitesOf (replacedSites blocks) table field,
        site.IsOutranked (ofBlocks blocks)
          (sitesOf ((emptyReplaced blocks).flatMap TableBlock.sites) table field) := by
      intro site hs
      obtain ⟨hm, hof⟩ := List.mem_filter.mp hs
      obtain ⟨rfl, rfl⟩ := ReferenceSite.isOf_iff.mp hof
      exact h site hm hsome
    generalize sitesOf (replacedSites blocks) table field = lost at hlost
    generalize sitesOf ((emptyReplaced blocks).flatMap TableBlock.sites) table field = standing at hlost
    exact sameVerdict_of_isOutranked hlost

/-- The schema of a source text is as if every replaced block had no lines just if each reference in a
line of a replaced block names no field that its table still has, or is outranked by those in standing
lines of that name. -/
theorem ofSource_eq_emptyReplaced_iff (source : String) :
    ofSource source = ofResolvedBlocks (emptyReplaced (parseBlocks source)) ↔
      ∀ site ∈ replacedSites (parseBlocks source),
        ((ofSource source).field? site.table site.line.name).isSome = true →
          site.IsOutranked (ofSource source)
            (sitesOf ((emptyReplaced (parseBlocks source)).flatMap TableBlock.sites) site.table
              site.line.name) := by
  have hsame := sameDeclarations_resolve (ofBlocks (parseBlocks source)) (parseBlocks source)
  unfold ofSource
  rw [ofResolvedBlocks_eq_emptyReplaced_iff]
  simp only [ofResolvedBlocks, hsame.isSome_field?, ReferenceSite.isOutranked_congr hsame]

/-- The old line of a field that was declared anew without a reference marks it and starts a
relationship at it. -/
theorem ofSource_ne_emptyReplaced :
    let source := "Table a \x7b x int [ref: > b.id] \x7d Table b \x7b id int [pk] \x7d" ++
      "Table a \x7b x int \x7d"
    ofSource source ≠ ofResolvedBlocks (emptyReplaced (parseBlocks source)) ∧
      ((ofSource source).field? "a" "x").map Field.isForeignKey = some true ∧
      ((ofResolvedBlocks (emptyReplaced (parseBlocks source))).field? "a" "x").map Field.isForeignKey =
        some false ∧
      (ofSource source).relationships = [⟨"a", "x", "b", "id", .manyToOne⟩] ∧
      (ofResolvedBlocks (emptyReplaced (parseBlocks source))).relationships = [] := by
  intro source
  have hp : parseBlocks source = [⟨"a", [⟨"x", "int [ref: > b.id]"⟩]⟩, ⟨"b", [⟨"id", "int [pk]"⟩]⟩,
      ⟨"a", [⟨"x", "int"⟩]⟩] := by decide +kernel
  unfold ofSource
  rw [hp]
  decide +kernel

end Schema

end SchemaDiagram
