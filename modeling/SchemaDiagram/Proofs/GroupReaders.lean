import Mathlib.Data.List.Basic
import SchemaDiagram.FieldDefinition
import SchemaDiagram.Proofs.TokenStream

namespace SchemaDiagram

section Scanning

variable {α : Type} {read : List Char → Option α}

theorem firstReading?_eq_none_iff {text : List Char} :
    firstReading? read text = none ↔ ∀ offset, read (text.drop offset) = none := by
  induction text with
  | nil => simp [firstReading?]
  | cons c rest ih =>
    have hoffsets : (∀ offset, read ((c :: rest).drop offset) = none) ↔
        read (c :: rest) = none ∧ ∀ offset, read (rest.drop offset) = none :=
      ⟨fun h => ⟨h 0, fun offset => h (offset + 1)⟩, fun ⟨h, h'⟩ => Nat.rec h fun offset _ => h' offset⟩
    rw [hoffsets, ← ih, firstReading?]
    cases read (c :: rest) <;> simp

theorem firstReading?_eq_some_iff {text : List Char} {found : α} :
    firstReading? read text = some found ↔
      ∃ offset, read (text.drop offset) = some found ∧
        ∀ earlier < offset, read (text.drop earlier) = none := by
  induction text with
  | nil =>
    simp only [firstReading?, List.drop_nil]
    exact ⟨fun h => ⟨0, h, fun _ hlt => absurd hlt (Nat.not_lt_zero _)⟩, fun ⟨_, h, _⟩ => h⟩
  | cons c rest ih =>
    rw [firstReading?]
    cases hc : read (c :: rest) with
    | some here =>
      constructor
      · intro h
        exact ⟨0, hc.trans h, fun _ hlt => absurd hlt (Nat.not_lt_zero _)⟩
      · rintro ⟨offset, h, hearlier⟩
        cases offset with
        | zero => exact hc.symm.trans h
        | succ offset =>
          have hnone := hearlier 0 (Nat.zero_lt_succ offset)
          rw [List.drop_zero, hc] at hnone
          cases hnone
    | none =>
      refine ih.trans ⟨?_, ?_⟩
      · rintro ⟨offset, h, hearlier⟩
        refine ⟨offset + 1, h, ?_⟩
        intro earlier hlt
        cases earlier with
        | zero => exact hc
        | succ earlier => exact hearlier earlier (Nat.lt_of_succ_lt_succ hlt)
      · rintro ⟨offset, h, hearlier⟩
        cases offset with
        | zero =>
          rw [List.drop_zero, hc] at h
          cases h
        | succ offset =>
          exact ⟨offset, h, fun earlier hlt => hearlier (earlier + 1) (Nat.succ_lt_succ hlt)⟩

theorem trimStart_eq_iff {text rest : List Char} (h : ∀ c ∈ rest.head?, isBlank c = false) :
    trimStart text = rest ↔ ∃ blanks, (∀ c ∈ blanks, isBlank c = true) ∧ text = blanks ++ rest := by
  constructor
  · rintro rfl
    exact ⟨text.takeWhile isBlank, List.all_eq_true.mp List.all_takeWhile,
      List.takeWhile_append_dropWhile.symm⟩
  · rintro ⟨blanks, hblanks, rfl⟩
    exact dropWhile_append_of_head? hblanks h

theorem isBlank_of_mem_head?_trimStart (text : List Char) :
    ∀ c ∈ (trimStart text).head?, isBlank c = false := by
  intro c hc
  have h := List.head?_dropWhile_not isBlank text
  rw [← trimStart, Option.mem_def.mp hc] at h
  exact h

theorem IsWord.isBlank_of_head? {word : List Char} (h : IsWord word) (rest : List Char) :
    ∀ c ∈ (word ++ rest).head?, isBlank c = false := by
  obtain ⟨c, tail, rfl, hc, _⟩ := h.exists_cons
  intro d hd
  cases Option.some.inj hd
  exact isBlank_of_isIdentifierChar hc

end Scanning

namespace FieldDefinition

theorem identifier?_eq_some_iff {text name rest : List Char} :
    identifier? text = some (name, rest) ↔ text = name ++ rest ∧ IsWord name ∧ AtBoundary rest := by
  unfold identifier?
  constructor
  · intro h
    split at h
    next => cases h
    next c tail htake =>
      cases h
      have hall : ∀ d ∈ c :: tail, isIdentifierChar d = true := by
        rw [← htake]
        exact List.all_eq_true.mp List.all_takeWhile
      refine ⟨?_, ⟨List.cons_ne_nil c tail, hall⟩, atBoundary_dropWhile text⟩
      rw [← htake, List.takeWhile_append_dropWhile]
  · rintro ⟨rfl, hw, hr⟩
    rw [takeWhile_append_of_head? hw.all hr, dropWhile_append_of_head? hw.all hr]
    obtain ⟨c, tail, rfl, _, _⟩ := hw.exists_cons
    rfl

theorem expect?_eq_some_iff {mark : Char} {text rest : List Char} :
    expect? mark text = some rest ↔ text = mark :: rest := by
  cases text with
  | nil => simp [expect?]
  | cons c tail => by_cases h : c = mark <;> simp [expect?, h]

theorem direction?_eq_some_iff {text rest : List Char} {direction : Direction} :
    direction? text = some (direction, rest) ↔ text = direction.toChar :: rest := by
  cases text with
  | nil => simp [direction?]
  | cons c tail =>
    by_cases hr : c = '>'
    · subst hr
      cases direction <;> simp [direction?, Direction.ofChar?, Direction.toChar]
    · by_cases hl : c = '<'
      · subst hl
        cases direction <;> simp [direction?, Direction.ofChar?, Direction.toChar]
      · cases direction <;> simp [direction?, Direction.ofChar?, Direction.toChar, hr, hl]

theorem isBlank_toChar (direction : Direction) : isBlank direction.toChar = false := by
  cases direction <;> decide

theorem isIdentifierChar_dot : isIdentifierChar '.' = false := by decide +kernel

theorem isIdentifierChar_closing : isIdentifierChar ']' = false := by decide +kernel

/-- The content of a group that spells the reference out. -/
inductive SpellsReference : List Char → Reference → Prop where
  | intro {before between table field : List Char} (direction : Direction) :
      (∀ c ∈ before, isBlank c = true) → (∀ c ∈ between, isBlank c = true) → IsWord table →
      IsWord field →
      SpellsReference
        (['r', 'e', 'f', ':'] ++ (before ++ direction.toChar :: (between ++ (table ++ '.' :: field))))
        { direction, table := String.ofList table, field := String.ofList field }

/-- Each part of the reader is greedy, and what follows a part can never belong to it. -/
theorem referenceHere?_eq_some_iff {text : List Char} {r : Reference} :
    referenceHere? text = some r ↔
      ∃ content, SpellsReference content r ∧ '[' :: (content ++ [']']) <+: text := by
  unfold referenceHere?
  simp only [Option.bind_eq_bind, Option.bind_eq_some_iff, Prod.exists,
    List.isPrefixOf?_eq_some_iff_append_eq, direction?_eq_some_iff, identifier?_eq_some_iff,
    expect?_eq_some_iff]
  constructor
  · rintro ⟨afterLead, rfl, direction, afterDirection, hdirection, table, _, ⟨htable, hw, _⟩, _, rfl,
      field, _, ⟨rfl, hf, _⟩, after, rfl, hr⟩
    cases hr
    have hmark : ∀ c ∈ (direction.toChar :: afterDirection).head?, isBlank c = false := by
      simp [isBlank_toChar]
    obtain ⟨before, hbefore, rfl⟩ := (trimStart_eq_iff hmark).mp hdirection
    obtain ⟨between, hbetween, rfl⟩ := (trimStart_eq_iff (hw.isBlank_of_head? _)).mp htable
    exact ⟨_, .intro direction hbefore hbetween hw hf, after, by simp⟩
  · rintro ⟨content, hspells, after, rfl⟩
    cases hspells with
    | @intro before between table field direction hbefore hbetween hw hf =>
      let afterTable := '.' :: (field ++ ']' :: after)
      let afterDirection := between ++ (table ++ afterTable)
      have hdirection : trimStart (before ++ direction.toChar :: afterDirection) =
          direction.toChar :: afterDirection :=
        (trimStart_eq_iff (by simp [isBlank_toChar])).mpr ⟨before, hbefore, rfl⟩
      have htable : trimStart afterDirection = table ++ afterTable :=
        (trimStart_eq_iff (hw.isBlank_of_head? _)).mpr ⟨between, hbetween, rfl⟩
      exact ⟨_, by simp [afterDirection, afterTable], direction, _, hdirection, table, _,
        ⟨htable, hw, atBoundary_cons isIdentifierChar_dot _⟩, _, rfl, field, _,
        ⟨rfl, hf, atBoundary_cons isIdentifierChar_closing _⟩, after, rfl, rfl⟩

/-- The reference is spelled out in brackets behind so many characters of the text. -/
def StandsAt (r : Reference) (text : List Char) (offset : Nat) : Prop :=
  ∃ content, SpellsReference content r ∧ '[' :: (content ++ [']']) <+: text.drop offset

theorem not_standsAt_iff {text : List Char} {offset : Nat} :
    referenceHere? (text.drop offset) = none ↔ ∀ r, ¬ StandsAt r text offset := by
  simp only [Option.eq_none_iff_forall_ne_some, ne_eq, referenceHere?_eq_some_iff, StandsAt]

/-- The reference of a definition is the one that stands at the smallest offset at which any stands; there
is only one at each offset, and there is none in the definition just if none stands anywhere. -/
theorem reference?_first_standing (definition : String) :
    (∀ r, reference? definition = some r ↔ ∃ offset, StandsAt r definition.toList offset ∧
      ∀ earlier < offset, ∀ other, ¬ StandsAt other definition.toList earlier) ∧
    (∀ offset r other, StandsAt r definition.toList offset → StandsAt other definition.toList offset →
      r = other) ∧
    (reference? definition = none ↔ ∀ offset r, ¬ StandsAt r definition.toList offset) := by
  refine ⟨?_, ?_, ?_⟩
  · intro r
    rw [reference?, firstReading?_eq_some_iff]
    simp only [not_standsAt_iff, referenceHere?_eq_some_iff, StandsAt]
  · intro offset r other hr hother
    have hread := referenceHere?_eq_some_iff.mpr hr
    rw [referenceHere?_eq_some_iff.mpr hother] at hread
    exact (Option.some.inj hread).symm
  · rw [reference?, firstReading?_eq_none_iff]
    exact forall_congr' fun offset => not_standsAt_iff

/-- A reference that is not written in full hides none that stands within it. -/
example : reference? "int [ref: > a. [ref:< b.c] d]" = some ⟨.oneToMany, "b", "c"⟩ := by
  decide +kernel

end FieldDefinition

end SchemaDiagram
