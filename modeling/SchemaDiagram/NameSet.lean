import SchemaDiagram.Json

namespace SchemaDiagram

/-- The names with one more in its place. -/
def insertName (name : String) : List String → List String
  | [] => [name]
  | other :: rest =>
    if name = other then other :: rest
    else if name < other then name :: other :: rest
    else other :: insertName name rest

theorem mem_insertName (name other : String) (names : List String) :
    other ∈ insertName name names ↔ other = name ∨ other ∈ names := by
  induction names with
  | nil => simp [insertName]
  | cons first rest ih =>
    unfold insertName
    split
    · next h => simp [h]
    · split
      · simp
      · simp only [List.mem_cons, ih]
        constructor
        · rintro (h | h | h) <;> simp [h]
        · rintro (h | h | h) <;> simp [h]

theorem sorted_insertName (name : String) {names : List String}
    (h : names.Pairwise (· < ·)) : (insertName name names).Pairwise (· < ·) := by
  induction names with
  | nil => simp [insertName]
  | cons first rest ih =>
    obtain ⟨hfirst, hrest⟩ := List.pairwise_cons.mp h
    unfold insertName
    split
    · exact h
    · next hne =>
      split
      · next hlt =>
        refine List.pairwise_cons.mpr ⟨?_, h⟩
        intro x hx
        rcases List.mem_cons.mp hx with rfl | hx
        · exact hlt
        · exact String.lt_trans hlt (hfirst x hx)
      · next hnlt =>
        refine List.pairwise_cons.mpr ⟨?_, ih hrest⟩
        intro x hx
        rcases (mem_insertName name x rest).mp hx with rfl | hx
        · exact Std.lt_of_le_of_ne (String.not_lt.mp hnlt) (Ne.symm hne)
        · exact hfirst x hx

structure NameSet where
  names : List String := []
  sorted : names.Pairwise (· < ·) := by simp

namespace NameSet

def empty : NameSet where

instance : Inhabited NameSet := ⟨empty⟩

def contains (s : NameSet) (name : String) : Bool := s.names.contains name

def insert (s : NameSet) (name : String) : NameSet where
  names := insertName name s.names
  sorted := sorted_insertName name s.sorted

def erase (s : NameSet) (name : String) : NameSet where
  names := s.names.filter (· ≠ name)
  sorted := s.sorted.filter _

/-- The set with the name if it was not there, and without it if it was. -/
def toggle (s : NameSet) (name : String) : NameSet :=
  if s.contains name then s.erase name else s.insert name

@[simp] theorem contains_insert (s : NameSet) (name other : String) :
    (s.insert name).contains other = (other == name || s.contains other) := by
  rw [Bool.eq_iff_iff]
  simp [contains, insert, mem_insertName]

@[simp] theorem contains_erase (s : NameSet) (name other : String) :
    (s.erase name).contains other = (other != name && s.contains other) := by
  rw [Bool.eq_iff_iff]
  simp [contains, erase, and_comm]

theorem contains_toggle_self (s : NameSet) (name : String) :
    (s.toggle name).contains name = !s.contains name := by
  unfold toggle
  split <;> simp_all

def ofList (names : List String) : NameSet := names.foldl insert empty

/-- The JSON form of a set: its names in order. -/
def toJson (s : NameSet) : Json := .array (s.names.map Json.string)

end NameSet

end SchemaDiagram
