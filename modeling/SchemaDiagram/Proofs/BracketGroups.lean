import Mathlib.Data.List.Perm.Basic
import Mathlib.Data.List.TakeWhile
import SchemaDiagram.Proofs.GroupReaders

namespace SchemaDiagram

theorem not_mem_of_forall {α : Type} {p : α → Bool} {xs : List α} {x : α}
    (hall : ∀ y ∈ xs, p y = true) (hx : p x = false) : x ∉ xs := by
  intro hm
  rw [hall x hm] at hx
  cases hx

theorem splitAtFirst?_eq_some_iff {mark : Char} {text before after : List Char} :
    splitAtFirst? mark text = some (before, after) ↔
      mark ∉ before ∧ text = before ++ mark :: after := by
  induction text generalizing before with
  | nil => simp [splitAtFirst?]
  | cons c rest ih =>
    rw [splitAtFirst?]
    split
    next hc =>
      subst hc
      cases before <;> simp +contextual [eq_comm]
    next hc =>
      rw [Option.map_eq_some_iff]
      constructor
      · rintro ⟨⟨between, _⟩, hrest, heq⟩
        cases heq
        obtain ⟨hm, rfl⟩ := ih.mp hrest
        exact ⟨List.not_mem_cons_of_ne_of_not_mem (Ne.symm hc) hm, rfl⟩
      · rintro ⟨hm, heq⟩
        cases before with
        | nil =>
          cases heq
          exact absurd rfl hc
        | cons d between =>
          cases heq
          exact ⟨(between, after), ih.mpr ⟨List.not_mem_of_not_mem_cons hm, rfl⟩, rfl⟩

namespace FieldDefinition

/-- The content of a group that is a note with this text. -/
inductive SpellsNote : List Char → List Char → Prop where
  | intro {body : List Char} : (∃ c ∈ body, isBlank c = false) →
      SpellsNote (['n', 'o', 't', 'e', ':'] ++ body) (trimStart body)

/-- A reader of groups finds something just where a group begins whose content spells it. -/
def ReadsGroups {α : Type} (read : List Char → Option α) (spells : List Char → α → Prop) : Prop :=
  ∀ text found, read text = some found ↔
    ∃ content, ']' ∉ content ∧ spells content found ∧ '[' :: (content ++ [']']) <+: text

theorem readsGroups_word {word : List Char} (h : ']' ∉ word) :
    ReadsGroups (fun text => if ('[' :: (word ++ [']'])).isPrefixOf text then some () else none)
      fun content _ => content = word := by
  intro text found
  simp only [List.isPrefixOf_iff_prefix]
  constructor
  · intro hread
    split at hread
    next hprefix => exact ⟨word, h, rfl, hprefix⟩
    next => cases hread
  · rintro ⟨content, _, rfl, hprefix⟩
    exact if_pos hprefix

theorem isBlank_closing : isBlank ']' = false := by decide

theorem SpellsReference.closing_not_mem {content : List Char} {r : Reference}
    (h : SpellsReference content r) : ']' ∉ content := by
  cases h with
  | @intro before between table field direction hbefore hbetween ht hf =>
    have hmark : ']' ≠ direction.toChar := by cases direction <;> decide
    have htable := not_mem_of_forall ht.all isIdentifierChar_closing
    have hfield := not_mem_of_forall hf.all isIdentifierChar_closing
    simp [not_mem_of_forall hbefore isBlank_closing, not_mem_of_forall hbetween isBlank_closing, htable,
      hfield, hmark]

theorem readsGroups_reference : ReadsGroups referenceHere? SpellsReference := by
  intro text r
  rw [referenceHere?_eq_some_iff]
  constructor
  · rintro ⟨content, hspells, hprefix⟩
    exact ⟨content, hspells.closing_not_mem, hspells, hprefix⟩
  · rintro ⟨content, _, hspells, hprefix⟩
    exact ⟨content, hspells, hprefix⟩

theorem trimStart_ne_nil_iff {text : List Char} :
    trimStart text ≠ [] ↔ ∃ c ∈ text, isBlank c = false := by
  simp [trimStart, List.dropWhile_eq_nil_iff]

/-- The reader leaves out the white space before it looks for the end, which makes no difference because the
bracket that ends the group is none. -/
theorem readsGroups_note : ReadsGroups noteHere? SpellsNote := by
  intro text note
  unfold noteHere?
  simp only [Option.bind_eq_bind, Option.bind_eq_some_iff, Prod.exists,
    List.isPrefixOf?_eq_some_iff_append_eq, splitAtFirst?_eq_some_iff]
  constructor
  · rintro ⟨afterLead, rfl, found, after, ⟨hclosing, hafterLead⟩, hfound⟩
    split at hfound
    next => cases hfound
    next hne =>
      cases hfound
      have hhead : ∀ c ∈ (note ++ ']' :: after).head?, isBlank c = false := by
        rw [← hafterLead]
        exact isBlank_of_mem_head?_trimStart _
      obtain ⟨blanks, hblanks, rfl⟩ := (trimStart_eq_iff hhead).mp hafterLead
      have hnote : trimStart (blanks ++ note) = note := by
        refine (trimStart_eq_iff ?_).mpr ⟨blanks, hblanks, rfl⟩
        intro c hc
        exact hhead c (List.mem_head?_append_of_mem_head? hc)
      have hspells : SpellsNote (['n', 'o', 't', 'e', ':'] ++ (blanks ++ note)) note := by
        have hbody : trimStart (blanks ++ note) ≠ [] := by simpa [hnote] using hne
        simpa only [hnote] using SpellsNote.intro (trimStart_ne_nil_iff.mp hbody)
      refine ⟨_, ?_, hspells, after, by simp⟩
      simp [not_mem_of_forall hblanks isBlank_closing, hclosing]
  · rintro ⟨content, hclosing, hspells, after, rfl⟩
    cases hspells with
    | @intro body hbody =>
      have hne : trimStart body ≠ [] := trimStart_ne_nil_iff.mpr hbody
      have htrim : trimStart (body ++ ']' :: after) = trimStart body ++ ']' :: after := by
        unfold trimStart at hne ⊢
        rw [List.dropWhile_append, if_neg (by simpa using hne)]
      have hclosing' : ']' ∉ body := fun hm => hclosing (List.mem_append_right _ hm)
      have hnote : ']' ∉ trimStart body := fun hm => hclosing' ((List.dropWhile_sublist _).subset hm)
      exact ⟨_, by simp, trimStart body, after, ⟨hnote, htrim⟩, if_neg (by simpa using hne)⟩

/-- Text in which no square bracket stands. -/
structure PlainText where
  chars : List Char
  opening_not_mem : '[' ∉ chars
  closing_not_mem : ']' ∉ chars

/-- A group in square brackets and the text that follows it. -/
structure BracketGroup where
  content : PlainText
  after : PlainText

/-- Plain text with groups in square brackets. -/
structure GroupedText where
  lead : PlainText
  groups : List BracketGroup

def BracketGroup.text (group : BracketGroup) : List Char :=
  '[' :: (group.content.chars ++ ']' :: group.after.chars)

namespace GroupedText

variable (d : GroupedText)

def definition : String := String.ofList (d.lead.chars ++ d.groups.flatMap BracketGroup.text)

def contents : List (List Char) := d.groups.map fun group => group.content.chars

/-- What stands before the groups, between them and after them. -/
def pieces : List (List Char) := d.lead.chars :: d.groups.map fun group => group.after.chars

end GroupedText

/-- What is spelled by the first of the contents that spells anything, if one does. -/
inductive FirstSpelled {α : Type} (spells : List Char → α → Prop) :
    List (List Char) → Option α → Prop where
  | found {before after : List (List Char)} {content : List Char} {found : α} :
      (∀ earlier ∈ before, ∀ other, ¬ spells earlier other) → spells content found →
      FirstSpelled spells (before ++ content :: after) (some found)
  | nowhere {contents : List (List Char)} :
      (∀ content ∈ contents, ∀ other, ¬ spells content other) → FirstSpelled spells contents none

section Readers

variable {α : Type} {read : List Char → Option α} {spells : List Char → α → Prop}

theorem FirstSpelled.cons {content : List Char} {contents : List (List Char)} {found : Option α}
    (hcontent : ∀ other, ¬ spells content other) (h : FirstSpelled spells contents found) :
    FirstSpelled spells (content :: contents) found := by
  cases h with
  | found hbefore hfound =>
    rw [← List.cons_append]
    exact .found (List.forall_mem_cons.mpr ⟨hcontent, hbefore⟩) hfound
  | nowhere hall => exact .nowhere (List.forall_mem_cons.mpr ⟨hcontent, hall⟩)

theorem FirstSpelled.isSome_iff {word : List Char} {contents : List (List Char)} {found : Option Unit}
    (h : FirstSpelled (fun content _ => content = word) contents found) :
    found.isSome = true ↔ word ∈ contents := by
  cases h with
  | found _ hfound =>
    subst hfound
    simp
  | nowhere hall =>
    have hnot : word ∉ contents := fun hm => hall word hm () rfl
    simp [hnot]

variable (h : ReadsGroups read spells)

include h

theorem ReadsGroups.firstReading?_append {text : List Char} (htext : '[' ∉ text) (rest : List Char) :
    firstReading? read (text ++ rest) = firstReading? read rest := by
  induction text with
  | nil => rfl
  | cons c text ih =>
    obtain ⟨hc, htext⟩ := List.ne_and_not_mem_of_not_mem_cons htext
    have hnone : read (c :: (text ++ rest)) = none := by
      rw [Option.eq_none_iff_forall_ne_some]
      intro found hfound
      obtain ⟨content, _, _, hprefix⟩ := (h _ _).mp hfound
      exact hc (List.cons_prefix_cons.mp hprefix).1
    rw [List.cons_append, firstReading?, hnone]
    exact ih htext

theorem ReadsGroups.firstReading?_nil : firstReading? read [] = none := by
  rw [firstReading?, Option.eq_none_iff_forall_ne_some]
  intro found hfound
  obtain ⟨content, _, _, hprefix⟩ := (h _ _).mp hfound
  cases List.prefix_nil.mp hprefix

theorem ReadsGroups.read_group (content : PlainText) (rest : List Char) (found : α) :
    read ('[' :: (content.chars ++ ']' :: rest)) = some found ↔ spells content.chars found := by
  rw [h]
  constructor
  · rintro ⟨other, hother, hspells, after, heq⟩
    -- the first closing bracket ends both
    have hsplit : splitAtFirst? ']' (content.chars ++ ']' :: rest) = some (other, after) := by
      rw [splitAtFirst?_eq_some_iff]
      exact ⟨hother, by simpa using heq.symm⟩
    rw [splitAtFirst?_eq_some_iff.mpr ⟨content.closing_not_mem, rfl⟩] at hsplit
    cases hsplit
    exact hspells
  · intro hspells
    exact ⟨content.chars, content.closing_not_mem, hspells, rest, by simp⟩

theorem ReadsGroups.firstSpelled_groups (groups : List BracketGroup) :
    FirstSpelled spells (groups.map fun group => group.content.chars)
      (firstReading? read (groups.flatMap BracketGroup.text)) := by
  induction groups with
  | nil =>
    rw [List.flatMap_nil, h.firstReading?_nil]
    exact .nowhere (List.forall_mem_nil _)
  | cons group groups ih =>
    let rest := group.after.chars ++ groups.flatMap BracketGroup.text
    have htext : (group :: groups).flatMap BracketGroup.text =
        '[' :: (group.content.chars ++ ']' :: rest) := by
      simp [rest, BracketGroup.text]
    rw [htext, firstReading?]
    have hread := h.read_group group.content rest
    split
    next found hfound => exact .found (List.forall_mem_nil _) ((hread found).mp hfound)
    next hnone =>
      have hcontent : ∀ other, ¬ spells group.content.chars other := by
        intro other hother
        rw [(hread other).mpr hother] at hnone
        cases hnone
      have hopening : '[' ∉ group.content.chars ++ ']' :: group.after.chars := by
        simp [group.content.opening_not_mem, group.after.opening_not_mem]
      have hskip := h.firstReading?_append hopening (groups.flatMap BracketGroup.text)
      rw [List.append_assoc, List.cons_append] at hskip
      rw [hskip]
      exact ih.cons hcontent

theorem ReadsGroups.firstSpelled (d : GroupedText) :
    FirstSpelled spells d.contents (firstReading? read d.definition.toList) := by
  rw [GroupedText.definition, String.toList_ofList, h.firstReading?_append d.lead.opening_not_mem]
  exact h.firstSpelled_groups d.groups

end Readers

theorem outsideGroups_inside {content : List Char} (hc : ']' ∉ content) (rest : List Char) :
    outsideGroups true (content ++ ']' :: rest) = outsideGroups false rest := by
  induction content with
  | nil => rfl
  | cons c content ih =>
    obtain ⟨hne, hc⟩ := List.ne_and_not_mem_of_not_mem_cons hc
    rw [List.cons_append, outsideGroups, decide_eq_true (Ne.symm hne)]
    exact ih hc

theorem outsideGroups_append {text : List Char} (htext : '[' ∉ text) (rest : List Char) :
    outsideGroups false (text ++ rest) = text ++ outsideGroups false rest := by
  induction text with
  | nil => rfl
  | cons c text ih =>
    obtain ⟨hne, htext⟩ := List.ne_and_not_mem_of_not_mem_cons htext
    rw [List.cons_append, outsideGroups, if_neg (fun hand => hne hand.1.symm), ih htext]
    rfl

theorem outsideGroups_groups (groups : List BracketGroup) :
    outsideGroups false (groups.flatMap BracketGroup.text) =
      (groups.map fun group => group.after.chars).flatten := by
  induction groups with
  | nil => rfl
  | cons group groups ih =>
    have hinside := outsideGroups_inside group.content.closing_not_mem
      (group.after.chars ++ groups.flatMap BracketGroup.text)
    have hclosed : ']' ∈ group.content.chars ++
        ']' :: (group.after.chars ++ groups.flatMap BracketGroup.text) := by simp
    rw [List.flatMap_cons, BracketGroup.text, List.cons_append, List.append_assoc, List.cons_append,
      outsideGroups, if_pos ⟨rfl, hclosed⟩, hinside, outsideGroups_append group.after.opening_not_mem, ih]
    rfl

theorem declaredType_definition (d : GroupedText) :
    declaredType d.definition = String.ofList (trim d.pieces.flatten) := by
  rw [declaredType, GroupedText.definition, String.toList_ofList,
    outsideGroups_append d.lead.opening_not_mem, outsideGroups_groups]
  rfl

theorem hasInfix_definition (word : List Char) (h : ']' ∉ word) (d : GroupedText) :
    hasInfix ('[' :: (word ++ [']'])) d.definition.toList = true ↔ word ∈ d.contents :=
  ((readsGroups_word h).firstSpelled d).isSome_iff

theorem isPrimaryKey_definition (d : GroupedText) :
    isPrimaryKey d.definition = true ↔ ['p', 'k'] ∈ d.contents :=
  hasInfix_definition ['p', 'k'] (by decide) d

theorem isNullable_definition (d : GroupedText) :
    isNullable d.definition = true ↔ ['n', 'u', 'l', 'l'] ∈ d.contents :=
  hasInfix_definition ['n', 'u', 'l', 'l'] (by decide) d

/-- What the readers of a definition make of its groups and of the text around them. -/
theorem readings_of_groups (d : GroupedText) :
    (isPrimaryKey d.definition = true ↔ ['p', 'k'] ∈ d.contents) ∧
    (isNullable d.definition = true ↔ ['n', 'u', 'l', 'l'] ∈ d.contents) ∧
    declaredType d.definition = String.ofList (trim d.pieces.flatten) ∧
    FirstSpelled SpellsNote d.contents ((note? d.definition).map String.toList) ∧
    FirstSpelled SpellsReference d.contents (reference? d.definition) ∧
    ∀ other : GroupedText, other.pieces = d.pieces → other.contents.Perm d.contents →
      declaredType other.definition = declaredType d.definition ∧
        isPrimaryKey other.definition = isPrimaryKey d.definition ∧
        isNullable other.definition = isNullable d.definition := by
  refine ⟨isPrimaryKey_definition d, isNullable_definition d, declaredType_definition d, ?_,
    readsGroups_reference.firstSpelled d, ?_⟩
  · have hnote := readsGroups_note.firstSpelled d
    simpa [note?, Option.map_map, Function.comp_def] using hnote
  · intro other hpieces hperm
    refine ⟨?_, ?_, ?_⟩
    · rw [declaredType_definition, declaredType_definition, hpieces]
    · rw [Bool.eq_iff_iff, isPrimaryKey_definition, isPrimaryKey_definition, hperm.mem_iff]
    · rw [Bool.eq_iff_iff, isNullable_definition, isNullable_definition, hperm.mem_iff]

end FieldDefinition

end SchemaDiagram
