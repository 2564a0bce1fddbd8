import Mathlib.Data.List.Basic
import SchemaDiagram.Proofs.ReplacedBlocks

namespace SchemaDiagram

/-- The blocks of the name, in order. -/
def blocksNamed (blocks : List TableBlock) (name : String) : List TableBlock :=
  blocks.filter fun block => block.name = name

section Named

theorem mem_blocksNamed {blocks : List TableBlock} {name : String} {block : TableBlock} :
    block ∈ blocksNamed blocks name ↔ block ∈ blocks ∧ block.name = name := by
  simp [blocksNamed]

theorem blocksNamed_append (xs ys : List TableBlock) (name : String) :
    blocksNamed (xs ++ ys) name = blocksNamed xs name ++ blocksNamed ys name :=
  List.filter_append xs ys

theorem blocksNamed_eq_nil {blocks : List TableBlock} {name : String}
    (h : ∀ block ∈ blocks, block.name ≠ name) : blocksNamed blocks name = [] :=
  List.filter_eq_nil_iff.mpr fun block hm => by simpa using h block hm

theorem sitesOf_blocksNamed (blocks : List TableBlock) (table field : String) :
    sitesOf ((blocksNamed blocks table).flatMap TableBlock.sites) table field =
      sitesOf (blocks.flatMap TableBlock.sites) table field := by
  induction blocks with
  | nil => rfl
  | cons block rest ih =>
    by_cases hname : block.name = table
    · rw [blocksNamed, List.filter_cons_of_pos (by simpa using hname), List.flatMap_cons,
        List.flatMap_cons, sitesOf_append, sitesOf_append, ← ih, blocksNamed]
    · rw [blocksNamed, List.filter_cons_of_neg (by simpa using hname), List.flatMap_cons,
        sitesOf_append, sitesOf_sites_of_ne hname, List.nil_append, ← ih, blocksNamed]

theorem mem_flatMap_blocksNamed {blocks : List TableBlock} {site : ReferenceSite}
    (h : site ∈ blocks.flatMap TableBlock.sites) :
    site ∈ (blocksNamed blocks site.table).flatMap TableBlock.sites := by
  obtain ⟨block, hm, hs⟩ := List.mem_flatMap.mp h
  have hname : block.name = site.table := (TableBlock.table_of_mem_sites hs).symm
  exact List.mem_flatMap.mpr ⟨block, mem_blocksNamed.mpr ⟨hm, hname⟩, hs⟩

end Named

namespace ReferenceSite

variable {s t : Schema} {site : ReferenceSite}

theorem targetFault?_eq_of_table?_eq (h : s.table? site.target.table = t.table? site.target.table) :
    site.targetFault? s = site.targetFault? t := by
  unfold targetFault? Schema.field?
  rw [← Schema.table?_isSome, ← Schema.table?_isSome, h]

theorem typeFault?_eq_of_table?_eq (h : s.table? site.target.table = t.table? site.target.table) :
    site.typeFault? s = site.typeFault? t := by
  unfold typeFault? Schema.field?
  rw [h]

theorem relationship?_eq_of_table?_eq (hown : s.table? site.table = t.table? site.table)
    (htarget : s.table? site.target.table = t.table? site.target.table) :
    site.relationship? s = site.relationship? t := by
  have hfield : s.field? site.table site.line.name = t.field? site.table site.line.name := by
    unfold Schema.field?
    rw [hown]
  unfold relationship?
  rw [hfield, targetFault?_eq_of_table?_eq htarget]

end ReferenceSite

/-- Both lists have the same blocks of the name, and the same blocks of every name that these refer to. -/
structure SameAround (xs ys : List TableBlock) (name : String) : Prop where
  own : blocksNamed xs name = blocksNamed ys name
  targets : ∀ site ∈ (blocksNamed xs name).flatMap TableBlock.sites,
    blocksNamed xs site.target.table = blocksNamed ys site.target.table

namespace SameAround

variable {xs ys : List TableBlock} {name : String}

theorem table?_ofBlocks_eq {other : String} (h : blocksNamed xs other = blocksNamed ys other) :
    (Schema.ofBlocks xs).table? other = (Schema.ofBlocks ys).table? other := by
  rw [Schema.table?_ofBlocks, Schema.table?_ofBlocks, ← blocksNamed, ← blocksNamed, h]

theorem resolved_eq (h : SameAround xs ys name) (f : Field) :
    f.resolved (Schema.ofBlocks xs) (sitesOf (xs.flatMap TableBlock.sites) name f.name) =
      f.resolved (Schema.ofBlocks ys) (sitesOf (ys.flatMap TableBlock.sites) name f.name) := by
  -- The same references stand in lines of the name; it remains that they have the same faults.
  rw [← sitesOf_blocksNamed ys, ← h.own, sitesOf_blocksNamed xs]
  have htarget : ∀ site ∈ sitesOf (xs.flatMap TableBlock.sites) name f.name,
      (Schema.ofBlocks xs).table? site.target.table =
        (Schema.ofBlocks ys).table? site.target.table := by
    intro site hm
    rw [← sitesOf_blocksNamed] at hm
    exact table?_ofBlocks_eq (h.targets site (List.mem_filter.mp hm).1)
  unfold Field.resolved
  rw [List.filterMap_congr fun site hm =>
      ReferenceSite.targetFault?_eq_of_table?_eq (htarget site hm),
    List.filterMap_congr fun site hm => ReferenceSite.typeFault?_eq_of_table?_eq (htarget site hm)]

theorem table?_ofResolvedBlocks_eq (h : SameAround xs ys name) :
    (Schema.ofResolvedBlocks xs).table? name = (Schema.ofResolvedBlocks ys).table? name := by
  have hdeclared : (Schema.ofBlocks xs).tables.get? name = (Schema.ofBlocks ys).tables.get? name :=
    table?_ofBlocks_eq h.own
  simp only [Schema.ofResolvedBlocks, Schema.table?, Schema.tables_resolve, Schema.changeFirsts,
    OrderedMap.get?_mapValues, hdeclared, h.resolved_eq]

theorem relationship?_eq {site : ReferenceSite} (h : SameAround xs ys site.table)
    (hm : site ∈ xs.flatMap TableBlock.sites) :
    site.relationship? (Schema.ofBlocks xs) = site.relationship? (Schema.ofBlocks ys) :=
  ReferenceSite.relationship?_eq_of_table?_eq (table?_ofBlocks_eq h.own)
    (table?_ofBlocks_eq (h.targets site (mem_flatMap_blocksNamed hm)))

end SameAround

section Order

variable {κ α : Type} [DecidableEq κ]

/-- Keys that were not there before come after all that were. -/
theorem OrderedMap.entries_foldl_insert_append {entries : List (κ × α)} {m n whole : OrderedMap κ α}
    (hfresh : ∀ entry ∈ entries, entry.1 ∉ m.keys) (hwhole : whole.entries = m.entries ++ n.entries) :
    (entries.foldl (fun m entry => m.insert entry.1 entry.2) whole).entries =
      m.entries ++ (entries.foldl (fun m entry => m.insert entry.1 entry.2) n).entries := by
  induction entries generalizing n whole with
  | nil => exact hwhole
  | cons entry rest ih =>
    have hkey : entry.1 ∉ m.entries.map Prod.fst := hfresh entry List.mem_cons_self
    refine ih (fun other hm => hfresh other (List.mem_cons_of_mem entry hm)) ?_
    show insertEntry entry.1 entry.2 whole.entries = m.entries ++ insertEntry entry.1 entry.2 n.entries
    rw [hwhole, insertEntry_append_of_not_mem hkey]

theorem OrderedMap.entries_foldl_insert_of_nodup {entries : List (κ × α)} {m : OrderedMap κ α}
    (hn : ((m.entries ++ entries).map Prod.fst).Nodup) :
    (entries.foldl (fun m entry => m.insert entry.1 entry.2) m).entries = m.entries ++ entries := by
  induction entries generalizing m with
  | nil => exact (List.append_nil _).symm
  | cons entry rest ih =>
    have hkey : entry.1 ∉ m.keys := by
      rw [List.map_append, List.map_cons] at hn
      intro hm
      exact (List.nodup_append.mp hn).2.2 entry.1 hm entry.1 List.mem_cons_self rfl
    have hentries : (m.insert entry.1 entry.2).entries = m.entries ++ [entry] :=
      m.entries_insert_of_not_mem hkey entry.2
    rw [List.foldl_cons, ih (by simpa [hentries] using hn), hentries, List.append_assoc]
    rfl

end Order

namespace Schema

theorem tableNames_ofResolvedBlocks (blocks : List TableBlock) :
    (ofResolvedBlocks blocks).tableNames = (ofBlocks blocks).tableNames := by
  simp [tableNames, ofResolvedBlocks, tables_resolve, changeFirsts, OrderedMap.mapValues,
    OrderedMap.keys, Function.comp_def]

theorem mem_tableNames_ofBlocks {blocks : List TableBlock} {name : String} :
    name ∈ (ofBlocks blocks).tableNames ↔ ∃ block ∈ blocks, block.name = name := by
  have hsome : ((ofBlocks blocks).table? name).isSome = true ↔
      blocks.filter (fun block => block.name = name) ≠ [] := by
    rw [table?_ofBlocks, Option.isSome_map, List.getLast?_isSome]
  rw [tableNames, ← OrderedMap.contains_iff_mem_keys, ← table?_isSome, hsome, Ne,
    List.filter_eq_nil_iff]
  simp

theorem tableNames_ofBlocks_of_nodup {blocks : List TableBlock}
    (hn : (blocks.map TableBlock.name).Nodup) :
    (ofBlocks blocks).tableNames = blocks.map TableBlock.name := by
  let entries := blocks.map fun block => (block.name, Table.ofBlock block)
  have hkeys : entries.map Prod.fst = blocks.map TableBlock.name := by
    simp [entries, Function.comp_def]
  have hentries : (ofBlocks blocks).tables.entries = entries :=
    OrderedMap.entries_foldl_insert_of_nodup (by rwa [OrderedMap.empty, List.nil_append, hkeys])
  rw [tableNames, OrderedMap.keys, hentries, hkeys]

/-- Blocks with new names add their tables after all others. -/
theorem entries_ofBlocks_append {xs ys : List TableBlock}
    (h : ∀ x ∈ xs, ∀ y ∈ ys, y.name ≠ x.name) :
    (ofBlocks (xs ++ ys)).tables.entries =
      (ofBlocks xs).tables.entries ++ (ofBlocks ys).tables.entries := by
  have hfresh : ∀ entry ∈ ys.map fun block => (block.name, Table.ofBlock block),
      entry.1 ∉ (ofBlocks xs).tables.keys := by
    intro entry hm hkey
    obtain ⟨y, hy, rfl⟩ := List.mem_map.mp hm
    obtain ⟨x, hx, he⟩ := mem_tableNames_ofBlocks.mp hkey
    exact h x hx y hy he.symm
  unfold ofBlocks
  rw [List.map_append, OrderedMap.ofList, List.foldl_append]
  exact OrderedMap.entries_foldl_insert_append hfresh (List.append_nil _).symm

end Schema

end SchemaDiagram
