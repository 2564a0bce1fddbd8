import Mathlib.Data.List.DropRight
import SchemaDiagram.Proofs.GroupReaders

namespace SchemaDiagram

/-- The text neither begins nor ends with white space. -/
structure NoOuterBlanks (text : List Char) : Prop where
  first : ∀ c ∈ text.head?, isBlank c = false
  last : ∀ c ∈ text.getLast?, isBlank c = false

theorem ne_of_isBlank {c d : Char} (hc : isBlank c = true) (hd : isBlank d = false) : c ≠ d := by
  rintro rfl
  rw [hc] at hd
  cases hd

theorem trimStart_of_head? {text : List Char} (h : ∀ c ∈ text.head?, isBlank c = false) :
    trimStart text = text :=
  (trimStart_eq_iff h).mpr ⟨[], List.forall_mem_nil _, rfl⟩

theorem trimStart_blanks_append {blanks : List Char} (h : ∀ c ∈ blanks, isBlank c = true)
    (text : List Char) : trimStart (blanks ++ text) = trimStart text :=
  List.dropWhile_append_of_pos h

theorem trimEnd_eq_rdropWhile (text : List Char) : trimEnd text = text.rdropWhile isBlank := rfl

theorem trimEnd_append_blanks {blanks : List Char} (h : ∀ c ∈ blanks, isBlank c = true)
    (text : List Char) : trimEnd (text ++ blanks) = trimEnd text := by
  have hblanks : ∀ c ∈ blanks.reverse, isBlank c = true := fun c hc => h c (List.mem_reverse.mp hc)
  unfold trimEnd
  rw [List.reverse_append, List.dropWhile_append_of_pos hblanks]

theorem trimEnd_append_cons {c : Char} (h : isBlank c = false) (text rest : List Char) :
    trimEnd (text ++ c :: rest) = text ++ c :: trimEnd rest := by
  unfold trimEnd
  rw [List.reverse_append, List.reverse_cons, List.append_assoc, List.dropWhile_append]
  split
  next hnil =>
    have hrest : rest.reverse.dropWhile isBlank = [] := by simpa using hnil
    simp [hrest, h]
  next => simp

theorem trimStart_append_cons {c : Char} (h : isBlank c = false) (text rest : List Char) :
    trimStart (text ++ c :: rest) = trimStart text ++ c :: rest := by
  unfold trimStart
  rw [List.dropWhile_append]
  split
  next hnil =>
    have htext : text.dropWhile isBlank = [] := by simpa using hnil
    simp [htext, h]
  next => rfl

theorem trimEnd_isPrefix (text : List Char) : trimEnd text <+: text :=
  List.rdropWhile_prefix isBlank text

theorem trim_isInfix (text : List Char) : trim text <:+: text :=
  (trimEnd_isPrefix _).isInfix.trans (List.dropWhile_suffix isBlank).isInfix

theorem trim_blanks_append {blanks : List Char} (h : ∀ c ∈ blanks, isBlank c = true) (text : List Char) :
    trim (blanks ++ text) = trim text := by
  rw [trim, trimStart_blanks_append h, trim]

theorem trim_eq_nil {blanks : List Char} (h : ∀ c ∈ blanks, isBlank c = true) : trim blanks = [] := by
  have hblanks := trim_blanks_append h []
  rwa [List.append_nil] at hblanks

theorem trim_append_blanks {blanks : List Char} (h : ∀ c ∈ blanks, isBlank c = true) (text : List Char) :
    trim (text ++ blanks) = trim text := by
  by_cases hall : ∀ c ∈ text, isBlank c = true
  · rw [trim_blanks_append hall, trim_eq_nil h, trim_eq_nil hall]
  · have hne : ¬ (text.dropWhile isBlank).isEmpty = true := by
      simpa [List.dropWhile_eq_nil_iff] using hall
    rw [trim, trimStart, List.dropWhile_append, if_neg hne, trimEnd_append_blanks h]
    rfl

theorem noOuterBlanks_trim (text : List Char) : NoOuterBlanks (trim text) := by
  constructor
  · intro c hc
    obtain ⟨rest, hrest⟩ := trimEnd_isPrefix (trimStart text)
    refine isBlank_of_mem_head?_trimStart text c ?_
    rw [← hrest]
    exact List.mem_head?_append_of_mem_head? hc
  · intro c hc
    have hne : trim text ≠ [] := by
      intro hnil
      rw [hnil] at hc
      cases hc
    rw [List.getLast?_eq_some_getLast hne] at hc
    cases hc
    exact Bool.eq_false_iff.mpr (List.rdropWhile_last_not isBlank (trimStart text) hne)

theorem NoOuterBlanks.trim_eq {text : List Char} (h : NoOuterBlanks text) : trim text = text := by
  have hlast : trimEnd text = text := by
    rw [trimEnd_eq_rdropWhile, List.rdropWhile_eq_self_iff]
    intro hne
    simp [h.last _ (List.getLast?_eq_some_getLast hne)]
  rw [trim, trimStart_of_head? h.first, hlast]

end SchemaDiagram
