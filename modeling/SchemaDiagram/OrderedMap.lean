namespace SchemaDiagram

section Entries

variable {κ α : Type} [DecidableEq κ]

/-- The value of the first entry with the key. -/
def lookupEntry (key : κ) : List (κ × α) → Option α
  | [] => none
  | (k, value) :: rest => if k = key then some value else lookupEntry key rest

/-- The entries with the key's value replaced in place, or with a new entry at the end. -/
def insertEntry (key : κ) (value : α) : List (κ × α) → List (κ × α)
  | [] => [(key, value)]
  | (k, old) :: rest =>
    if k = key then (k, value) :: rest else (k, old) :: insertEntry key value rest

def modifyEntry (key : κ) (change : α → α) (entries : List (κ × α)) : List (κ × α) :=
  entries.map fun entry => if entry.1 = key then (entry.1, change entry.2) else entry

theorem lookupEntry_insertEntry (key other : κ) (value : α) (entries : List (κ × α)) :
    lookupEntry other (insertEntry key value entries) =
      if key = other then some value else lookupEntry other entries := by
  induction entries with
  | nil => simp [insertEntry, lookupEntry]
  | cons entry rest ih =>
    obtain ⟨k, old⟩ := entry
    by_cases hk : k = key
    · subst hk
      by_cases ho : k = other <;> simp [insertEntry, lookupEntry, ho]
    · by_cases ho : k = other
      · subst ho
        simp [insertEntry, lookupEntry, hk, Ne.symm hk]
      · simp [insertEntry, lookupEntry, hk, ho, ih]

theorem keys_insertEntry (key : κ) (value : α) (entries : List (κ × α)) :
    (insertEntry key value entries).map Prod.fst =
      if key ∈ entries.map Prod.fst then entries.map Prod.fst
      else entries.map Prod.fst ++ [key] := by
  induction entries with
  | nil => simp [insertEntry]
  | cons entry rest ih =>
    obtain ⟨k, old⟩ := entry
    by_cases hk : k = key
    · simp [insertEntry, hk]
    · by_cases hm : key ∈ rest.map Prod.fst
      · simp only [hm, if_true] at ih
        simp [insertEntry, hk, Ne.symm hk, ih]
        simpa using hm
      · simp only [hm, if_false] at ih
        have hm' : ∀ x, (key, x) ∉ rest := by simpa using hm
        simp [insertEntry, hk, Ne.symm hk, ih, hm']

theorem lookupEntry_isSome_iff (key : κ) (entries : List (κ × α)) :
    (lookupEntry key entries).isSome ↔ key ∈ entries.map Prod.fst := by
  induction entries with
  | nil => simp [lookupEntry]
  | cons entry rest ih =>
    obtain ⟨k, value⟩ := entry
    by_cases hk : k = key
    · simp [lookupEntry, hk]
    · simp only [lookupEntry, hk, if_false, ih, List.map_cons, List.mem_cons, Ne.symm hk,
        false_or]

theorem lookupEntry_filter (key other : κ) (entries : List (κ × α)) :
    lookupEntry other (entries.filter fun entry => entry.1 ≠ key) =
      if key = other then none else lookupEntry other entries := by
  induction entries with
  | nil => simp [lookupEntry]
  | cons entry rest ih =>
    obtain ⟨k, value⟩ := entry
    by_cases hk : k = key
    · subst hk
      by_cases ho : k = other <;> simp_all [lookupEntry]
    · by_cases ho : k = other
      · subst ho
        simp [lookupEntry, hk, Ne.symm hk]
      · simp_all [lookupEntry]

theorem nodup_keys_insertEntry (key : κ) (value : α) {entries : List (κ × α)}
    (h : (entries.map Prod.fst).Nodup) :
    ((insertEntry key value entries).map Prod.fst).Nodup := by
  rw [keys_insertEntry]
  split
  · exact h
  · next hm =>
    refine List.nodup_append.mpr ⟨h, by simp, ?_⟩
    intro k hk k' hk' he
    have : k' = key := by simpa using hk'
    exact hm (this ▸ he ▸ hk)

theorem insertEntry_append_of_not_mem {key : κ} {first : List (κ × α)}
    (h : key ∉ first.map Prod.fst) (value : α) (rest : List (κ × α)) :
    insertEntry key value (first ++ rest) = first ++ insertEntry key value rest := by
  induction first with
  | nil => rfl
  | cons entry first ih =>
    obtain ⟨k, old⟩ := entry
    simp only [List.map_cons, List.mem_cons, not_or] at h
    rw [List.cons_append, insertEntry, if_neg (Ne.symm h.1), ih h.2, List.cons_append]

theorem keys_modifyEntry (key : κ) (change : α → α) (entries : List (κ × α)) :
    (modifyEntry key change entries).map Prod.fst = entries.map Prod.fst := by
  simp only [modifyEntry, List.map_map]
  refine List.map_congr_left ?_
  intro entry _
  by_cases h : entry.1 = key <;> simp [h]

theorem lookupEntry_modifyEntry (key other : κ) (change : α → α) (entries : List (κ × α)) :
    lookupEntry other (modifyEntry key change entries) =
      if key = other then (lookupEntry other entries).map change
      else lookupEntry other entries := by
  induction entries with
  | nil => simp [modifyEntry, lookupEntry]
  | cons entry rest ih =>
    obtain ⟨k, old⟩ := entry
    simp only [modifyEntry] at ih
    by_cases hk : k = key
    · subst hk
      by_cases ho : k = other <;> simp [modifyEntry, lookupEntry, ho, ih]
    · by_cases ho : k = other
      · subst ho
        simp [modifyEntry, lookupEntry, hk, Ne.symm hk]
      · simp [modifyEntry, lookupEntry, hk, ho, ih]

end Entries

/-- A finite map whose keys stand in the order of their first insertion. -/
structure OrderedMap (κ α : Type) where
  /-- Keys and values, in order. -/
  entries : List (κ × α) := []
  /-- No key stands twice. -/
  keys_nodup : (entries.map Prod.fst).Nodup := by simp

namespace OrderedMap

variable {κ α : Type}

def empty : OrderedMap κ α where

instance : EmptyCollection (OrderedMap κ α) := ⟨empty⟩

instance : Inhabited (OrderedMap κ α) := ⟨empty⟩

def keys (m : OrderedMap κ α) : List κ := m.entries.map Prod.fst

def values (m : OrderedMap κ α) : List α := m.entries.map Prod.snd

def size (m : OrderedMap κ α) : Nat := m.entries.length

def isEmpty (m : OrderedMap κ α) : Bool := m.entries.isEmpty

theorem ext_entries {m n : OrderedMap κ α} (h : m.entries = n.entries) : m = n := by
  cases m
  cases n
  cases h
  rfl

variable [DecidableEq κ]

instance [DecidableEq α] : DecidableEq (OrderedMap κ α) := fun m n =>
  if h : m.entries = n.entries then isTrue (ext_entries h)
  else isFalse fun he => h (congrArg entries he)

def get? (m : OrderedMap κ α) (key : κ) : Option α := lookupEntry key m.entries

def contains (m : OrderedMap κ α) (key : κ) : Bool := (m.get? key).isSome

/-- Gives the key a value: in its place if it has one already, else after all others. -/
def insert (m : OrderedMap κ α) (key : κ) (value : α) : OrderedMap κ α where
  entries := insertEntry key value m.entries
  keys_nodup := nodup_keys_insertEntry key value m.keys_nodup

/-- Changes the value of the key, if it has one. -/
def modify (m : OrderedMap κ α) (key : κ) (change : α → α) : OrderedMap κ α where
  entries := modifyEntry key change m.entries
  keys_nodup := by simpa [keys_modifyEntry] using m.keys_nodup

def erase (m : OrderedMap κ α) (key : κ) : OrderedMap κ α where
  entries := m.entries.filter fun entry => entry.1 ≠ key
  keys_nodup := m.keys_nodup.sublist (List.filter_sublist.map _)

def ofList (entries : List (κ × α)) : OrderedMap κ α :=
  entries.foldl (fun m entry => m.insert entry.1 entry.2) empty

/-- Two maps are the same when they give the same keys the same values, in whatever order. -/
def same [BEq α] (m n : OrderedMap κ α) : Bool :=
  m.size == n.size && m.entries.all fun entry =>
    match n.get? entry.1 with
    | some value => entry.2 == value
    | none => false

theorem get?_insert (m : OrderedMap κ α) (key other : κ) (value : α) :
    (m.insert key value).get? other = if key = other then some value else m.get? other :=
  lookupEntry_insertEntry key other value m.entries

theorem keys_insert (m : OrderedMap κ α) (key : κ) (value : α) :
    (m.insert key value).keys = if key ∈ m.keys then m.keys else m.keys ++ [key] :=
  keys_insertEntry key value m.entries

theorem entries_insert_of_not_mem (m : OrderedMap κ α) {key : κ} (h : key ∉ m.keys) (value : α) :
    (m.insert key value).entries = m.entries ++ [(key, value)] := by
  have happend := insertEntry_append_of_not_mem h value []
  rwa [List.append_nil] at happend

@[simp] theorem keys_modify (m : OrderedMap κ α) (key : κ) (change : α → α) :
    (m.modify key change).keys = m.keys :=
  keys_modifyEntry key change m.entries

theorem get?_modify (m : OrderedMap κ α) (key other : κ) (change : α → α) :
    (m.modify key change).get? other =
      if key = other then (m.get? other).map change else m.get? other :=
  lookupEntry_modifyEntry key other change m.entries

theorem contains_iff_mem_keys (m : OrderedMap κ α) (key : κ) :
    m.contains key = true ↔ key ∈ m.keys :=
  lookupEntry_isSome_iff key m.entries

theorem get?_erase (m : OrderedMap κ α) (key other : κ) :
    (m.erase key).get? other = if key = other then none else m.get? other :=
  lookupEntry_filter key other m.entries

theorem contains_insert (m : OrderedMap κ α) (key other : κ) (value : α) :
    (m.insert key value).contains other = (decide (key = other) || m.contains other) := by
  unfold contains
  rw [get?_insert]
  by_cases h : key = other <;> simp [h]

@[simp] theorem get?_empty (key : κ) : (empty : OrderedMap κ α).get? key = none := rfl

end OrderedMap

end SchemaDiagram
