import SchemaDiagram.Proofs.BracketGroups
import SchemaDiagram.Proofs.TrimmedText

namespace SchemaDiagram

namespace FieldDefinition

/-- No opening bracket of the text is closed further on. -/
def GroupFree (text : List Char) : Prop :=
  ∀ before after, text = before ++ '[' :: after → ']' ∉ after

theorem groupFree_nil : GroupFree [] := by
  intro before after h
  exact absurd h.symm (List.append_ne_nil_of_right_ne_nil _ (List.cons_ne_nil _ _))

theorem groupFree_cons_iff {c : Char} {rest : List Char} :
    GroupFree (c :: rest) ↔ (c = '[' → ']' ∉ rest) ∧ GroupFree rest := by
  constructor
  · intro h
    refine ⟨?_, ?_⟩
    · rintro rfl
      exact h [] rest rfl
    · rintro before after rfl
      exact h (c :: before) after rfl
  · rintro ⟨hc, hrest⟩ before after heq
    cases before with
    | nil =>
      obtain ⟨rfl, rfl⟩ := List.cons.inj heq
      exact hc rfl
    | cons d before =>
      obtain ⟨rfl, rfl⟩ := List.cons.inj heq
      exact hrest before after rfl

theorem groupFree_of_not_mem {text : List Char} (h : ']' ∉ text) : GroupFree text := by
  rintro before after rfl hm
  exact h (List.mem_append_right before (List.mem_cons_of_mem '[' hm))

theorem GroupFree.of_isInfix {part text : List Char} (h : GroupFree text) (hpart : part <:+: text) :
    GroupFree part := by
  obtain ⟨first, last, rfl⟩ := hpart
  rintro before after rfl hm
  exact h (first ++ before) (after ++ last) (by simp) (List.mem_append_left last hm)

theorem outsideGroups_sublist (inside : Bool) (text : List Char) :
    (outsideGroups inside text).Sublist text := by
  induction text generalizing inside with
  | nil => cases inside <;> exact .slnil
  | cons c rest ih =>
    cases inside with
    | true => exact (ih _).cons c
    | false =>
      rw [outsideGroups]
      split
      · exact (ih true).cons c
      · exact (ih false).cons_cons c

/-- Whatever is taken out before it, a bracket that is kept has no closing bracket in the rest of the text,
and so has none in what is kept of the rest. -/
theorem groupFree_outsideGroups (inside : Bool) (text : List Char) :
    GroupFree (outsideGroups inside text) := by
  induction text generalizing inside with
  | nil => cases inside <;> exact groupFree_nil
  | cons c rest ih =>
    cases inside with
    | true => exact ih _
    | false =>
      rw [outsideGroups]
      split
      next => exact ih true
      next hopen =>
        refine groupFree_cons_iff.mpr ⟨?_, ih false⟩
        intro hc hm
        exact hopen ⟨hc, (outsideGroups_sublist false rest).subset hm⟩

theorem outsideGroups_of_groupFree {text : List Char} (h : GroupFree text) :
    outsideGroups false text = text := by
  induction text with
  | nil => rfl
  | cons c rest ih =>
    obtain ⟨hc, hrest⟩ := groupFree_cons_iff.mp h
    rw [outsideGroups, if_neg fun hopen => hc hopen.1 hopen.2, ih hrest]

/-- A bracket that is never closed ends no group that was opened before it, and begins none. -/
theorem outsideGroups_append_unclosed {after : List Char} (hafter : ']' ∉ after) (inside : Bool)
    (before : List Char) (hclosed : inside = true → ']' ∈ before) :
    outsideGroups inside (before ++ '[' :: after) = outsideGroups inside before ++ '[' :: after := by
  induction before generalizing inside with
  | nil =>
    cases inside with
    | true => exact absurd (hclosed rfl) List.not_mem_nil
    | false =>
      refine outsideGroups_of_groupFree (groupFree_cons_iff.mpr ⟨fun _ => hafter, ?_⟩)
      exact groupFree_of_not_mem hafter
  | cons c before ih =>
    have hmem : ']' ∈ before ++ '[' :: after ↔ ']' ∈ before := by simp [hafter]
    cases inside with
    | true =>
      refine ih (decide (c ≠ ']')) ?_
      intro hc
      exact (List.mem_cons.mp (hclosed rfl)).resolve_left (Ne.symm (of_decide_eq_true hc))
    | false =>
      have hfalse := ih false fun h => absurd h Bool.false_ne_true
      rw [List.cons_append, outsideGroups, outsideGroups]
      by_cases hopen : c = '[' ∧ ']' ∈ before
      · rw [if_pos ⟨hopen.1, hmem.mpr hopen.2⟩, if_pos hopen]
        exact ih true fun _ => hopen.2
      · rw [if_neg fun h => hopen ⟨h.1, hmem.mp h.2⟩, if_neg hopen, hfalse, List.cons_append]

section Readers

variable {α : Type} {read : List Char → Option α} {spells : List Char → α → Prop}

theorem ReadsGroups.firstReading?_of_groupFree (h : ReadsGroups read spells) {text : List Char}
    (htext : GroupFree text) : firstReading? read text = none := by
  refine firstReading?_eq_none_iff.mpr ?_
  intro offset
  rw [Option.eq_none_iff_forall_ne_some]
  intro found hfound
  obtain ⟨content, _, _, after, hafter⟩ := (h _ _).mp hfound
  have hsplit : text = text.take offset ++ '[' :: (content ++ ']' :: after) := by
    have hdrop : text.drop offset = '[' :: (content ++ ']' :: after) := by
      rw [← hafter]
      simp
    rw [← hdrop, List.take_append_drop]
  exact htext _ _ hsplit (List.mem_append_right content List.mem_cons_self)

theorem hasInfix_of_groupFree (word : List Char) (hword : ']' ∉ word) {text : List Char}
    (htext : GroupFree text) : hasInfix ('[' :: (word ++ [']'])) text = false := by
  unfold hasInfix
  rw [(readsGroups_word hword).firstReading?_of_groupFree htext]
  rfl

end Readers

theorem toList_declaredType (definition : String) :
    (declaredType definition).toList = trim (outsideGroups false definition.toList) :=
  String.toList_ofList

theorem groupFree_declaredType (definition : String) : GroupFree (declaredType definition).toList := by
  rw [toList_declaredType]
  exact (groupFree_outsideGroups false _).of_isInfix (trim_isInfix _)

theorem noOuterBlanks_declaredType (definition : String) :
    NoOuterBlanks (declaredType definition).toList := by
  rw [toList_declaredType]
  exact noOuterBlanks_trim _

theorem declaredType_eq_self_iff {definition : String} :
    declaredType definition = definition ↔
      GroupFree definition.toList ∧ NoOuterBlanks definition.toList := by
  constructor
  · intro h
    rw [← h]
    exact ⟨groupFree_declaredType definition, noOuterBlanks_declaredType definition⟩
  · rintro ⟨hfree, hblanks⟩
    rw [declaredType, outsideGroups_of_groupFree hfree, hblanks.trim_eq, String.ofList_toList]

theorem toList_declaredType_unclosed {definition : String} {before after : List Char}
    (hsplit : definition.toList = before ++ '[' :: after) (hafter : ']' ∉ after) :
    (declaredType definition).toList =
      trimStart (outsideGroups false before) ++ '[' :: trimEnd after := by
  have hopening : isBlank '[' = false := by decide
  have hbefore : false = true → ']' ∈ before := fun h => absurd h Bool.false_ne_true
  rw [toList_declaredType, hsplit, outsideGroups_append_unclosed hafter false before hbefore, trim,
    trimStart_append_cons hopening, trimEnd_append_cons hopening]

/-- No group and no outer white space is left in the declared type of a definition, and the definitions without
any are those that are their own declared types; so a declared type is one, and holds neither flag, note nor
reference. An opening bracket that is never closed is kept with all that follows it up to the white space at the
end, behind what the text before it comes to by itself. -/
theorem declaredType_without_groups (definition : String) :
    GroupFree (declaredType definition).toList ∧ NoOuterBlanks (declaredType definition).toList ∧
    (declaredType definition = definition ↔
      GroupFree definition.toList ∧ NoOuterBlanks definition.toList) ∧
    declaredType (declaredType definition) = declaredType definition ∧
    isPrimaryKey (declaredType definition) = false ∧ isNullable (declaredType definition) = false ∧
    note? (declaredType definition) = none ∧ reference? (declaredType definition) = none ∧
    ∀ before after, definition.toList = before ++ '[' :: after → ']' ∉ after →
      ∃ kept, (declaredType definition).toList = kept ++ '[' :: trimEnd after ∧
        trimEnd kept = (declaredType (String.ofList before)).toList := by
  have hfree := groupFree_declaredType definition
  have hblanks := noOuterBlanks_declaredType definition
  refine ⟨hfree, hblanks, declaredType_eq_self_iff, declaredType_eq_self_iff.mpr ⟨hfree, hblanks⟩,
    hasInfix_of_groupFree ['p', 'k'] (by decide) hfree,
    hasInfix_of_groupFree ['n', 'u', 'l', 'l'] (by decide) hfree, ?_,
    readsGroups_reference.firstReading?_of_groupFree hfree, ?_⟩
  · rw [note?, readsGroups_note.firstReading?_of_groupFree hfree, Option.map_none]
  · intro before after hsplit hafter
    refine ⟨trimStart (outsideGroups false before), toList_declaredType_unclosed hsplit hafter, ?_⟩
    rw [toList_declaredType, String.toList_ofList, trim]

/-- Brackets in brackets, one that closes nothing, and one that is never closed. -/
example : declaredType " a ] [x [y] b] c [pk] d [e  " = "a ]  b] c  d [e" := by decide +kernel

end FieldDefinition

end SchemaDiagram
