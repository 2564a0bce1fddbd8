import SchemaDiagram.Proofs.FirstFields

namespace SchemaDiagram

theorem OrderedMap.get?_foldl_insert {κ α : Type} [DecidableEq κ] (entries : List (κ × α))
    (m : OrderedMap κ α) (key : κ) :
    (entries.foldl (fun m entry => m.insert entry.1 entry.2) m).get? key =
      (((entries.filter fun entry => entry.1 = key).getLast?).map Prod.snd).or (m.get? key) := by
  induction entries generalizing m with
  | nil => simp
  | cons entry rest ih =>
    obtain ⟨k, value⟩ := entry
    rw [List.foldl_cons, ih, get?_insert]
    by_cases hk : k = key
    · subst hk
      cases hl : (rest.filter fun entry => entry.1 = k).getLast? <;>
        simp [List.getLast?_cons, hl]
    · simp [hk]

theorem OrderedMap.keys_foldl_insert_congr {κ α : Type} [DecidableEq κ] {xs ys : List (κ × α)}
    (h : xs.map Prod.fst = ys.map Prod.fst) {m n : OrderedMap κ α} (hkeys : m.keys = n.keys) :
    (xs.foldl (fun m entry => m.insert entry.1 entry.2) m).keys =
      (ys.foldl (fun m entry => m.insert entry.1 entry.2) n).keys := by
  induction xs generalizing ys m n with
  | nil =>
    rw [List.map_eq_nil_iff.mp h.symm]
    exact hkeys
  | cons x xs ih =>
    cases ys with
    | nil => cases h
    | cons y ys =>
      obtain ⟨hkey, hrest⟩ := List.cons.inj h
      refine ih hrest ?_
      rw [keys_insert, keys_insert, hkeys, hkey]

namespace Schema

theorem table?_ofBlocks (blocks : List TableBlock) (name : String) :
    (ofBlocks blocks).table? name =
      ((blocks.filter fun block => block.name = name).getLast?).map Table.ofBlock := by
  simp only [table?, ofBlocks, OrderedMap.ofList, OrderedMap.get?_foldl_insert,
    OrderedMap.get?_empty, Option.or_none, List.filter_map, List.getLast?_map, Option.map_map]
  rfl

theorem exists_line_of_mem_ofBlocks {blocks : List TableBlock} {name : String} {table : Table}
    {f : Field} (ht : (ofBlocks blocks).table? name = some table) (hf : f ∈ table) :
    ∃ line, f = Field.ofLine line := by
  rw [table?_ofBlocks] at ht
  obtain ⟨block, _, rfl⟩ := Option.map_eq_some_iff.mp ht
  obtain ⟨line, _, rfl⟩ := List.mem_map.mp hf
  exact ⟨line, rfl⟩

end Schema

end SchemaDiagram
