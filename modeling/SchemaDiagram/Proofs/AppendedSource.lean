import SchemaDiagram.Proofs.BlockGrammar
import SchemaDiagram.Proofs.TableDependencies

namespace SchemaDiagram

/-- No word goes on behind the text. -/
def EndsAtBoundary (text : List Char) : Prop := ∀ c ∈ text.getLast?, isIdentifierChar c = false

theorem keywordPieces_ne_nil (text : List Char) : keywordPieces text ≠ [] := by
  obtain ⟨_, _, _, _, _, hpieces, _⟩ := exists_pieces [] text
  rw [hpieces]
  exact List.cons_ne_nil _ _

theorem modifyHead_append {α : Type} {xs : List α} (h : xs ≠ []) (change : α → α) (ys : List α) :
    (xs ++ ys).modifyHead change = xs.modifyHead change ++ ys := by
  cases xs with
  | nil => exact absurd rfl h
  | cons x xs => rfl

/-- A keyword between two texts that no word joins cuts the one from the other. -/
theorem keywordPieces_append_keyword {first second : List Char} (hf : EndsAtBoundary first)
    (hs : AtBoundary second) :
    keywordPieces (first ++ (tableKeyword.toList ++ second)) =
      keywordPieces first ++ keywordPieces second := by
  induction first using word_induction with
  | nil =>
    rw [List.nil_append, keywordPieces_word isWord_tableKeyword hs, if_pos rfl, keywordPieces_nil,
      List.singleton_append]
  | word word rest hw hr ih =>
    cases rest with
    | nil =>
      -- A text that ends with a word does not end at a boundary.
      have hlast := hf (word.getLast hw.ne_nil)
        (by rw [List.append_nil, List.getLast?_eq_some_getLast hw.ne_nil]; rfl)
      rw [hw.all _ (List.getLast_mem _)] at hlast
      cases hlast
    | cons c rest =>
      have hends : EndsAtBoundary (c :: rest) := by
        intro d hd
        exact hf d (by simpa [List.getLast?_append] using hd)
      have hboundary : AtBoundary (c :: rest ++ (tableKeyword.toList ++ second)) :=
        atBoundary_cons (hr c rfl) _
      rw [List.append_assoc, keywordPieces_word hw hboundary, keywordPieces_word hw hr, ih hends]
      split
      · rfl
      · exact modifyHead_append (keywordPieces_ne_nil _) _ _
  | other c rest hc ih =>
    have hends : EndsAtBoundary rest := by
      intro d hd
      refine hf d ?_
      cases rest with
      | nil => cases hd
      | cons e rest => simpa using hd
    rw [List.cons_append, keywordPieces_other hc, keywordPieces_other hc, ih hends]
    exact modifyHead_append (keywordPieces_ne_nil _) _ _

theorem parseBlocks_append_keyword {first second : String} (hf : EndsAtBoundary first.toList)
    (hs : AtBoundary second.toList) :
    parseBlocks (first ++ tableKeyword ++ second) = parseBlocks first ++ parseBlocks second := by
  simp only [parseBlocks_eq, grammarBlocks, String.toList_append, List.append_assoc,
    keywordPieces_append_keyword hf hs, List.filterMap_append]

/-- The blocks that are added do not touch what the first ones declare or refer to. -/
structure AddsOnly (xs ys : List TableBlock) : Prop where
  names : ∀ x ∈ xs, ∀ y ∈ ys, y.name ≠ x.name
  targets : ∀ site ∈ xs.flatMap TableBlock.sites, ∀ y ∈ ys, y.name ≠ site.target.table

namespace AddsOnly

variable {xs ys : List TableBlock}

theorem sameAround (h : AddsOnly xs ys) {name : String} (hname : ∃ x ∈ xs, x.name = name) :
    SameAround (xs ++ ys) xs name := by
  have hsame : ∀ other, (∀ y ∈ ys, y.name ≠ other) →
      blocksNamed (xs ++ ys) other = blocksNamed xs other := by
    intro other hno
    rw [blocksNamed_append, blocksNamed_eq_nil hno, List.append_nil]
  obtain ⟨x, hx, rfl⟩ := hname
  have hown := hsame x.name (h.names x hx)
  refine ⟨hown, ?_⟩
  intro site hm
  rw [hown] at hm
  obtain ⟨block, hblock, hsite⟩ := List.mem_flatMap.mp hm
  have hmem : site ∈ xs.flatMap TableBlock.sites :=
    List.mem_flatMap.mpr ⟨block, (mem_blocksNamed.mp hblock).1, hsite⟩
  exact hsame site.target.table (h.targets site hmem)

end AddsOnly

/-- A table as it is declared, without the marks of resolving. -/
def declaredTable (entry : String × Table) : String × Table := (entry.1, entry.2.map Field.bare)

namespace Schema

variable {xs ys : List TableBlock}

/-- The entries of the finished tables, from the declared ones. -/
def resolvedEntry (blocks : List TableBlock) (entry : String × Table) : String × Table :=
  (entry.1, entry.2.mapFirsts (fun f => f.resolved (ofBlocks blocks)
    (sitesOf (blocks.flatMap TableBlock.sites) entry.1 f.name)) [])

theorem entries_ofResolvedBlocks (blocks : List TableBlock) :
    (ofResolvedBlocks blocks).tables.entries = (ofBlocks blocks).tables.entries.map
      (resolvedEntry blocks) := by
  rw [ofResolvedBlocks, tables_resolve]
  rfl

theorem declaredTable_resolvedEntry (blocks : List TableBlock) (entry : String × Table) :
    declaredTable (resolvedEntry blocks entry) = declaredTable entry := by
  let change := fun f : Field => f.resolved (ofBlocks blocks)
    (sitesOf (blocks.flatMap TableBlock.sites) entry.1 f.name)
  have hbare : ∀ f, (change f).bare = f.bare := fun _ => rfl
  have hfields := Table.map_mapFirsts hbare [] entry.2
  exact congrArg (Prod.mk entry.1) hfields

theorem map_resolvedEntry_of_addsOnly (h : AddsOnly xs ys) :
    (ofBlocks xs).tables.entries.map (resolvedEntry (xs ++ ys)) =
      (ofBlocks xs).tables.entries.map (resolvedEntry xs) := by
  apply List.map_congr_left
  intro entry hm
  have hname : ∃ x ∈ xs, x.name = entry.1 :=
    mem_tableNames_ofBlocks.mp (List.mem_map.mpr ⟨entry, hm, rfl⟩)
  simp only [resolvedEntry, (h.sameAround hname).resolved_eq]

theorem relationships_append_of_addsOnly (h : AddsOnly xs ys) :
    ∃ added, (ofResolvedBlocks (xs ++ ys)).relationships =
        (ofResolvedBlocks xs).relationships ++ added ∧
      ∀ r ∈ added, r.fromTable ∈ (ofResolvedBlocks ys).tableNames := by
  have hsame : ∀ site ∈ xs.flatMap TableBlock.sites,
      site.relationship? (ofBlocks (xs ++ ys)) = site.relationship? (ofBlocks xs) := by
    intro site hm
    obtain ⟨block, hblock, hsite⟩ := List.mem_flatMap.mp hm
    have hname : ∃ x ∈ xs, x.name = site.table :=
      ⟨block, hblock, (TableBlock.table_of_mem_sites hsite).symm⟩
    refine (h.sameAround hname).relationship?_eq ?_
    rw [List.flatMap_append]
    exact List.mem_append_left _ hm
  refine ⟨(ys.flatMap TableBlock.sites).filterMap (·.relationship? (ofBlocks (xs ++ ys))), ?_, ?_⟩
  · rw [ofResolvedBlocks, ofResolvedBlocks, relationships_resolve, relationships_resolve,
      List.flatMap_append, List.filterMap_append, List.filterMap_congr hsame]
    rfl
  · intro r hr
    obtain ⟨site, hm, hs⟩ := List.mem_filterMap.mp hr
    obtain ⟨_, _, rfl⟩ := relationship?_eq_some_iff.mp hs
    obtain ⟨block, hblock, hsite⟩ := List.mem_flatMap.mp hm
    rw [tableNames_ofResolvedBlocks]
    exact mem_tableNames_ofBlocks.mpr ⟨block, hblock, (TableBlock.table_of_mem_sites hsite).symm⟩

/-- A second text behind a keyword, none of whose tables the first text declares or refers to, changes
nothing in the tables and relationships of the first one. Its own tables come after them, in the order and
with the fields that they have alone, and so do the relationships that begin there. -/
theorem ofSource_append_keyword {first second : String} (hf : EndsAtBoundary first.toList)
    (hs : AtBoundary second.toList)
    (hnames : ∀ x ∈ parseBlocks first, ∀ y ∈ parseBlocks second, y.name ≠ x.name)
    (htargets : ∀ site ∈ (parseBlocks first).flatMap TableBlock.sites, ∀ y ∈ parseBlocks second,
      y.name ≠ site.target.table) :
    ∃ tables relationships,
      (ofSource (first ++ tableKeyword ++ second)).tables.entries =
          (ofSource first).tables.entries ++ tables ∧
        tables.map Prod.fst = (ofSource second).tableNames ∧
        tables.map declaredTable = (ofSource second).tables.entries.map declaredTable ∧
        (ofSource (first ++ tableKeyword ++ second)).relationships =
          (ofSource first).relationships ++ relationships ∧
        ∀ r ∈ relationships, r.fromTable ∈ (ofSource second).tableNames := by
  have hadds : AddsOnly (parseBlocks first) (parseBlocks second) := ⟨hnames, htargets⟩
  obtain ⟨relationships, hrelationships, hfrom⟩ := relationships_append_of_addsOnly hadds
  unfold ofSource
  rw [parseBlocks_append_keyword hf hs]
  refine ⟨(ofBlocks (parseBlocks second)).tables.entries.map
    (resolvedEntry (parseBlocks first ++ parseBlocks second)), relationships, ?_, ?_, ?_, hrelationships,
    hfrom⟩
  · rw [entries_ofResolvedBlocks, entries_ofBlocks_append hnames, List.map_append,
      map_resolvedEntry_of_addsOnly hadds, ← entries_ofResolvedBlocks]
  · rw [tableNames_ofResolvedBlocks, List.map_map]
    rfl
  · rw [entries_ofResolvedBlocks, List.map_map, List.map_map]
    apply List.map_congr_left
    intro entry _
    exact (declaredTable_resolvedEntry _ entry).trans (declaredTable_resolvedEntry _ entry).symm

/-- A table that refers to itself and to a table that is missing, and a block without an end; then a table
that refers back, and one that refers to it. -/
theorem ofSource_append_keyword_referringBack :
    let first := "Table a \x7b id int [pk]\n up int [ref: > a.id]\n old int [ref: > gone.id] \x7d\nTable cut \x7b\n"
    let second := " b \x7b id int [pk]\n a_id int [ref: > a.id] \x7d Table c \x7b b_id int [ref: - b.id] \x7d"
    (EndsAtBoundary first.toList ∧ AtBoundary second.toList ∧
        (∀ x ∈ parseBlocks first, ∀ y ∈ parseBlocks second, y.name ≠ x.name) ∧
        ∀ site ∈ (parseBlocks first).flatMap TableBlock.sites, ∀ y ∈ parseBlocks second,
          y.name ≠ site.target.table) ∧
      ∃ tables relationships,
        (ofSource (first ++ tableKeyword ++ second)).tables.entries =
            (ofSource first).tables.entries ++ tables ∧
          tables.map Prod.fst = (ofSource second).tableNames ∧
          tables.map declaredTable = (ofSource second).tables.entries.map declaredTable ∧
          (ofSource (first ++ tableKeyword ++ second)).relationships =
            (ofSource first).relationships ++ relationships ∧
          ∀ r ∈ relationships, r.fromTable ∈ (ofSource second).tableNames := by
  intro first second
  have hlast : first.toList.getLast? = some '\n' := by decide +kernel
  have hhead : second.toList.head? = some ' ' := by decide +kernel
  have hf : EndsAtBoundary first.toList := by
    intro c hc
    rw [hlast] at hc
    cases hc
    exact isIdentifierChar_of_isBlank (by decide +kernel)
  have hs : AtBoundary second.toList := by
    intro c hc
    rw [hhead] at hc
    cases hc
    exact isIdentifierChar_of_isBlank (by decide +kernel)
  have hfirst : parseBlocks first =
      [⟨"a", [⟨"id", "int [pk]"⟩, ⟨"up", "int [ref: > a.id]"⟩, ⟨"old", "int [ref: > gone.id]"⟩]⟩] := by
    decide +kernel
  have hsecond : parseBlocks second =
      [⟨"b", [⟨"id", "int [pk]"⟩, ⟨"a_id", "int [ref: > a.id]"⟩]⟩,
        ⟨"c", [⟨"b_id", "int [ref: - b.id]"⟩]⟩] := by
    decide +kernel
  have hnames : ∀ x ∈ parseBlocks first, ∀ y ∈ parseBlocks second, y.name ≠ x.name := by
    rw [hfirst, hsecond]
    decide
  have htargets : ∀ site ∈ (parseBlocks first).flatMap TableBlock.sites, ∀ y ∈ parseBlocks second,
      y.name ≠ site.target.table := by
    rw [hfirst, hsecond]
    decide +kernel
  exact ⟨⟨hf, hs, hnames, htargets⟩, ofSource_append_keyword hf hs hnames htargets⟩

end Schema

end SchemaDiagram
