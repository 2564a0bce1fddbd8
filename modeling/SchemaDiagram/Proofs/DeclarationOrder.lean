import Mathlib.Data.List.Perm.Basic
import SchemaDiagram.Proofs.TableDependencies

namespace SchemaDiagram

theorem blocksNamed_eq_of_perm {xs ys : List TableBlock} (hperm : xs.Perm ys)
    (hn : (xs.map TableBlock.name).Nodup) (name : String) :
    blocksNamed xs name = blocksNamed ys name := by
  have hnamed : (blocksNamed xs name).Perm (blocksNamed ys name) := hperm.filter _
  have honce : ((blocksNamed xs name).map TableBlock.name).Nodup :=
    hn.sublist (List.filter_sublist.map TableBlock.name)
  have hall : ∀ block ∈ blocksNamed xs name, block.name = name := fun _ hm =>
    (mem_blocksNamed.mp hm).2
  -- One block at most has the name, so there is no order among them.
  generalize blocksNamed xs name = own at hnamed honce hall
  generalize blocksNamed ys name = others at hnamed
  cases own with
  | nil => exact hnamed.nil_eq
  | cons block rest =>
    have hrest : rest = [] := by
      refine List.eq_nil_iff_forall_not_mem.mpr ?_
      intro other hm
      refine (List.nodup_cons.mp honce).1 (List.mem_map.mpr ⟨other, hm, ?_⟩)
      rw [hall other (List.mem_cons_of_mem block hm), hall block List.mem_cons_self]
    subst hrest
    exact List.singleton_perm.mp hnamed

namespace Schema

variable {xs ys : List TableBlock}

theorem sameAround_of_perm (hperm : xs.Perm ys) (hn : (xs.map TableBlock.name).Nodup) (name : String) :
    SameAround xs ys name :=
  ⟨blocksNamed_eq_of_perm hperm hn name, fun site _ =>
    blocksNamed_eq_of_perm hperm hn site.target.table⟩

theorem relationships_perm (hperm : xs.Perm ys) (hn : (xs.map TableBlock.name).Nodup) :
    (ofResolvedBlocks xs).relationships.Perm (ofResolvedBlocks ys).relationships := by
  have hsites : (xs.flatMap TableBlock.sites).Perm (ys.flatMap TableBlock.sites) :=
    hperm.flatMap_right TableBlock.sites
  have hsame : ∀ site ∈ xs.flatMap TableBlock.sites,
      site.relationship? (ofBlocks xs) = site.relationship? (ofBlocks ys) := fun site hm =>
    (sameAround_of_perm hperm hn site.table).relationship?_eq hm
  rw [ofResolvedBlocks, ofResolvedBlocks, relationships_resolve, relationships_resolve,
    List.filterMap_congr hsame]
  exact (hsites.filterMap _).append_left _

/-- Two texts that declare the same tables, each of them once, in whatever order: every name finds the
same table, marks and faults and all, the tables stand in the order of the blocks, and the same
relationships are found. -/
theorem ofSource_perm {source other : String} (hperm : (parseBlocks source).Perm (parseBlocks other))
    (hn : ((parseBlocks source).map TableBlock.name).Nodup) :
    (∀ name, (ofSource source).table? name = (ofSource other).table? name) ∧
      (ofSource source).tableNames = (parseBlocks source).map TableBlock.name ∧
      (ofSource other).tableNames = (parseBlocks other).map TableBlock.name ∧
      (ofSource source).relationships.Perm (ofSource other).relationships := by
  have hn' : ((parseBlocks other).map TableBlock.name).Nodup :=
    (hperm.map TableBlock.name).nodup_iff.mp hn
  refine ⟨?_, ?_, ?_, relationships_perm hperm hn⟩
  · intro name
    exact (sameAround_of_perm hperm hn name).table?_ofResolvedBlocks_eq
  · exact (tableNames_ofResolvedBlocks _).trans (tableNames_ofBlocks_of_nodup hn)
  · exact (tableNames_ofResolvedBlocks _).trans (tableNames_ofBlocks_of_nodup hn')

/-- Two tables that refer to each other; one of them refers to itself too, in a second line of one name,
and the other one to a table that is missing. -/
theorem ofSource_perm_mutual :
    let first := "Table a \x7b id int [pk]\n b_id int [ref: > b.id]\n b_id text [ref: > a.id] \x7d"
    let second := "Table b \x7b id int [pk]\n a_id int [ref: < a.id]\n c_id int [ref: > c.id] \x7d"
    let source := first ++ second
    let other := second ++ first
    ((parseBlocks source).Perm (parseBlocks other) ∧
        ((parseBlocks source).map TableBlock.name).Nodup ∧
        (ofSource source).tableNames = ["a", "b"] ∧ (ofSource other).tableNames = ["b", "a"] ∧
        (ofSource source).relationships.length = 3 ∧
        (ofSource source).relationships ≠ (ofSource other).relationships) ∧
      (∀ name, (ofSource source).table? name = (ofSource other).table? name) ∧
      (ofSource source).relationships.Perm (ofSource other).relationships := by
  intro first second source other
  have hp : parseBlocks source =
      [⟨"a", [⟨"id", "int [pk]"⟩, ⟨"b_id", "int [ref: > b.id]"⟩, ⟨"b_id", "text [ref: > a.id]"⟩]⟩,
        ⟨"b", [⟨"id", "int [pk]"⟩, ⟨"a_id", "int [ref: < a.id]"⟩, ⟨"c_id", "int [ref: > c.id]"⟩]⟩] := by
    decide +kernel
  have hp' : parseBlocks other =
      [⟨"b", [⟨"id", "int [pk]"⟩, ⟨"a_id", "int [ref: < a.id]"⟩, ⟨"c_id", "int [ref: > c.id]"⟩]⟩,
        ⟨"a", [⟨"id", "int [pk]"⟩, ⟨"b_id", "int [ref: > b.id]"⟩, ⟨"b_id", "text [ref: > a.id]"⟩]⟩] := by
    decide +kernel
  have hperm : (parseBlocks source).Perm (parseBlocks other) := by
    rw [hp, hp']
    exact .swap _ _ _
  have hn : ((parseBlocks source).map TableBlock.name).Nodup := by
    rw [hp]
    decide
  obtain ⟨htables, hnames, hnames', hrelationships⟩ := ofSource_perm hperm hn
  have hdiffer : (ofResolvedBlocks (parseBlocks source)).relationships.length = 3 ∧
      (ofResolvedBlocks (parseBlocks source)).relationships ≠
        (ofResolvedBlocks (parseBlocks other)).relationships := by
    rw [hp, hp']
    decide +kernel
  refine ⟨⟨hperm, hn, ?_, ?_, hdiffer⟩, htables, hrelationships⟩
  · rw [hnames, hp]
    rfl
  · rw [hnames', hp']
    rfl

end Schema

end SchemaDiagram
