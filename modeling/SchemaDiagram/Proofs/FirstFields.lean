import SchemaDiagram.Schema

namespace SchemaDiagram

section Values

variable {κ α β : Type} [DecidableEq κ]

theorem lookupEntry_eq_some_iff {key : κ} {value : α} {entries : List (κ × α)}
    (hn : (entries.map Prod.fst).Nodup) :
    lookupEntry key entries = some value ↔ (key, value) ∈ entries := by
  induction entries with
  | nil => simp [lookupEntry]
  | cons entry rest ih =>
    obtain ⟨k, old⟩ := entry
    obtain ⟨hk, hrest⟩ := List.nodup_cons.mp hn
    by_cases he : k = key
    · subst he
      have hm : (k, value) ∉ rest := fun hm => hk (List.mem_map.mpr ⟨_, hm, rfl⟩)
      simp [lookupEntry, hm, eq_comm]
    · simp [lookupEntry, he, Ne.symm he, ih hrest]

theorem lookupEntry_eq_none_of_not_mem {key : κ} {entries : List (κ × α)}
    (h : key ∉ entries.map Prod.fst) : lookupEntry key entries = none := by
  rw [← lookupEntry_isSome_iff, Option.not_isSome_iff_eq_none] at h
  exact h

theorem entries_eq_of_keys_of_lookupEntry {xs ys : List (κ × α)}
    (hkeys : xs.map Prod.fst = ys.map Prod.fst) (hn : (xs.map Prod.fst).Nodup)
    (h : ∀ key, lookupEntry key xs = lookupEntry key ys) : xs = ys := by
  induction xs generalizing ys with
  | nil => exact (List.map_eq_nil_iff.mp hkeys.symm).symm
  | cons x xs ih =>
    cases ys with
    | nil => cases hkeys
    | cons y ys =>
      obtain ⟨k, value⟩ := x
      obtain ⟨k', value'⟩ := y
      obtain ⟨rfl, hrest⟩ := List.cons.inj hkeys
      obtain ⟨hk, hnrest⟩ := List.nodup_cons.mp hn
      have hvalue : value = value' := by simpa [lookupEntry] using h k
      have hlookup : ∀ key, lookupEntry key xs = lookupEntry key ys := by
        intro key
        by_cases he : k = key
        · subst he
          have hk' : k ∉ ys.map Prod.fst := hrest ▸ hk
          rw [lookupEntry_eq_none_of_not_mem hk, lookupEntry_eq_none_of_not_mem hk']
        · simpa [lookupEntry, he] using h key
      rw [hvalue, ih hrest hnrest hlookup]

theorem lookupEntry_map (key : κ) (change : κ → α → β) (entries : List (κ × α)) :
    lookupEntry key (entries.map fun entry => (entry.1, change entry.1 entry.2)) =
      (lookupEntry key entries).map (change key) := by
  induction entries with
  | nil => rfl
  | cons entry rest ih =>
    obtain ⟨k, old⟩ := entry
    by_cases he : k = key
    · subst he
      simp [lookupEntry]
    · simp [lookupEntry, he, ih]

namespace OrderedMap

theorem mem_entries_iff {m : OrderedMap κ α} {key : κ} {value : α} :
    (key, value) ∈ m.entries ↔ m.get? key = some value :=
  (lookupEntry_eq_some_iff m.keys_nodup).symm

/-- Maps with the same keys in the same order and the same values are one map. -/
theorem ext_keys {m n : OrderedMap κ α} (hkeys : m.keys = n.keys)
    (h : ∀ key, m.get? key = n.get? key) : m = n :=
  ext_entries (entries_eq_of_keys_of_lookupEntry hkeys m.keys_nodup h)

/-- The map with every value changed in its place. -/
def mapValues (change : κ → α → β) (m : OrderedMap κ α) : OrderedMap κ β where
  entries := m.entries.map fun entry => (entry.1, change entry.1 entry.2)
  keys_nodup := by simpa [Function.comp_def] using m.keys_nodup

theorem get?_mapValues (change : κ → α → β) (m : OrderedMap κ α) (key : κ) :
    (m.mapValues change).get? key = (m.get? key).map (change key) :=
  lookupEntry_map key change m.entries

theorem modify_eq_mapValues (m : OrderedMap κ α) (key : κ) (change : α → α) :
    m.modify key change = m.mapValues fun k value => if k = key then change value else value := by
  apply ext_entries
  apply List.map_congr_left
  intro entry _
  by_cases h : entry.1 = key <;> simp [h]

end OrderedMap

end Values

namespace Table

/-- The table with each field changed that is the first of its name, where no field counts as the
first of a name seen before. Of several fields of one name every lookup finds the first. -/
def mapFirsts (change : Field → Field) : List String → Table → Table
  | _, [] => []
  | seen, f :: rest =>
    (if f.name ∈ seen then f else change f) :: mapFirsts change (f.name :: seen) rest

theorem mapFirsts_of_seen {name : String} {change : Field → Field} {seen : List String}
    (hs : name ∈ seen) (table : Table) :
    mapFirsts (fun f => if f.name = name then change f else f) seen table = table := by
  induction table generalizing seen with
  | nil => rfl
  | cons f rest ih =>
    have hf : (if f.name ∈ seen then f else if f.name = name then change f else f) = f := by
      by_cases hn : f.name = name <;> simp [hn, hs]
    simp only [mapFirsts, hf, ih (List.mem_cons_of_mem _ hs)]

theorem modifyField_eq_mapFirsts {name : String} (change : Field → Field) {seen : List String}
    (hs : name ∉ seen) (table : Table) :
    modifyField name change table =
      mapFirsts (fun f => if f.name = name then change f else f) seen table := by
  induction table generalizing seen with
  | nil => rfl
  | cons f rest ih =>
    by_cases hn : f.name = name
    · subst hn
      simp [modifyField, mapFirsts, hs, mapFirsts_of_seen]
    · have hs' : name ∉ f.name :: seen := by simp [hs, Ne.symm hn]
      simp [modifyField, mapFirsts, hn, ih hs']

theorem mapFirsts_mapFirsts {first : Field → Field} (second : Field → Field)
    (hname : ∀ f, (first f).name = f.name) (seen : List String) (table : Table) :
    mapFirsts second seen (mapFirsts first seen table) =
      mapFirsts (fun f => second (first f)) seen table := by
  induction table generalizing seen with
  | nil => rfl
  | cons f rest ih => by_cases hf : f.name ∈ seen <;> simp [mapFirsts, hf, hname, ih]

theorem mapFirsts_congr {first second : Field → Field} {table : Table}
    (h : ∀ f ∈ table, first f = second f) (seen : List String) :
    mapFirsts first seen table = mapFirsts second seen table := by
  induction table generalizing seen with
  | nil => rfl
  | cons f rest ih =>
    rw [mapFirsts, mapFirsts, h f List.mem_cons_self,
      ih fun g hm => h g (List.mem_cons_of_mem f hm)]

theorem mapFirsts_id (seen : List String) (table : Table) :
    mapFirsts (fun f => f) seen table = table := by
  induction table generalizing seen with
  | nil => rfl
  | cons f rest ih => simp [mapFirsts, ih]

/-- Each record of the changed table is the old record, changed only if it is the first of its
name. -/
theorem getElem?_mapFirsts (change : Field → Field) (seen : List String) (table : Table) (i : Nat) :
    (mapFirsts change seen table)[i]? = table[i]?.map fun f =>
      if f.name ∈ seen ∨ f.name ∈ (table.take i).map Field.name then f else change f := by
  induction table generalizing seen i with
  | nil => simp [mapFirsts]
  | cons f rest ih =>
    cases i with
    | zero => simp [mapFirsts]
    | succ i =>
      simp only [mapFirsts, List.getElem?_cons_succ, ih, List.take_succ_cons, List.map_cons,
        List.mem_cons]
      congr 1
      funext g
      by_cases hg : g.name = f.name <;> simp [hg]

/-- What the change keeps of every record is kept of the whole table. -/
theorem map_mapFirsts {α : Type} {change : Field → Field} {read : Field → α}
    (hread : ∀ f, read (change f) = read f) (seen : List String) (table : Table) :
    (mapFirsts change seen table).map read = table.map read := by
  induction table generalizing seen with
  | nil => rfl
  | cons f rest ih => by_cases hf : f.name ∈ seen <;> simp [mapFirsts, hf, hread, ih]

theorem map_name_take_mapFirsts {change : Field → Field} (hname : ∀ f, (change f).name = f.name)
    (seen : List String) (table : Table) (i : Nat) :
    ((mapFirsts change seen table).take i).map Field.name = (table.take i).map Field.name := by
  rw [List.map_take, List.map_take, map_mapFirsts hname]

theorem field?_mapFirsts {change : Field → Field} (hname : ∀ f, (change f).name = f.name)
    {name : String} {seen : List String} (hs : name ∉ seen) (table : Table) :
    (mapFirsts change seen table).field? name = (table.field? name).map change := by
  induction table generalizing seen with
  | nil => rfl
  | cons f rest ih =>
    by_cases hn : f.name = name
    · subst hn
      simp [field?, mapFirsts, hs, hname]
    · have hs' : name ∉ f.name :: seen := by simp [hs, Ne.symm hn]
      have hf : (if f.name ∈ seen then f else change f).name = f.name := by split <;> simp [hname]
      have hrest := ih hs'
      simp only [field?] at hrest
      simp [field?, mapFirsts, hf, hn, hrest]

theorem modifyField_of_field?_none {name : String} {table : Table} (h : table.field? name = none)
    (change : Field → Field) : modifyField name change table = table := by
  induction table with
  | nil => rfl
  | cons f rest ih =>
    have hf : ¬ (f.name == name) = true := by
      intro hf
      simp [field?, hf] at h
    have hrest : field? rest name = none := by simpa [field?, hf] using h
    simp [modifyField, hf, ih hrest]

/-- A record that is the first of its name is the one that the name finds. -/
theorem field?_of_first {table : Table} {i : Nat} {f : Field} (hi : table[i]? = some f)
    (hfirst : f.name ∉ (table.take i).map Field.name) : table.field? f.name = some f := by
  induction table generalizing i with
  | nil => simp at hi
  | cons g rest ih =>
    cases i with
    | zero =>
      have he : g = f := by simpa using hi
      simp [field?, he]
    | succ i =>
      simp only [List.take_succ_cons, List.map_cons, List.mem_cons, not_or] at hfirst
      have hrest := ih (by simpa using hi) hfirst.2
      simp only [field?] at hrest
      simp [field?, Ne.symm hfirst.1, hrest]

end Table

namespace Schema

/-- The tables with all first fields changed, by a change that knows the name of the table. -/
def changeFirsts (change : String → Field → Field) (tables : OrderedMap String Table) :
    OrderedMap String Table :=
  tables.mapValues fun name table => table.mapFirsts (change name) []

theorem modify_eq_changeFirsts (tables : OrderedMap String Table) (name field : String)
    (change : Field → Field) :
    tables.modify name (Table.modifyField field change) =
      changeFirsts (fun table f => if table = name ∧ f.name = field then change f else f) tables := by
  rw [OrderedMap.modify_eq_mapValues]
  unfold changeFirsts
  congr 1
  funext k table
  by_cases hk : k = name
  · simpa [hk] using Table.modifyField_eq_mapFirsts change (List.not_mem_nil) table
  · simpa [hk] using (Table.mapFirsts_id [] table).symm

theorem field?_changeFirsts (change : String → Field → Field)
    (hname : ∀ table f, (change table f).name = f.name) (tables : OrderedMap String Table)
    (table field : String) :
    (((changeFirsts change tables).get? table).bind fun records => records.field? field) =
      ((tables.get? table).bind fun records => records.field? field).map (change table) := by
  rw [changeFirsts, OrderedMap.get?_mapValues]
  cases tables.get? table with
  | none => rfl
  | some records => exact Table.field?_mapFirsts (hname table) List.not_mem_nil records

end Schema

end SchemaDiagram
