import Mathlib.Data.List.Forall2
import SchemaDiagram.Session
import SchemaDiagram.Proofs.BracketGroups
import SchemaDiagram.Proofs.RenderedBlocks
import SchemaDiagram.Proofs.TrimmedText

namespace SchemaDiagram

/-- White space that holds a line feed. -/
structure LineBreak where
  chars : List Char
  blank : ∀ c ∈ chars, isBlank c = true
  lineFeed_mem : '\n' ∈ chars

/-- The text with each line feed replaced by the line break that is chosen for it, the first one by the first
choice. -/
def replaceLineFeeds : (Nat → LineBreak) → List Char → List Char
  | _, [] => []
  | breaks, c :: rest =>
    if c = '\n' then (breaks 0).chars ++ replaceLineFeeds (fun i => breaks (i + 1)) rest
    else c :: replaceLineFeeds breaks rest

/-- The other text comes from the text by replacing each line feed by some line break. -/
inductive Rebroken : List Char → List Char → Prop where
  | nil : Rebroken [] []
  | char {c : Char} {rest other : List Char} : c ≠ '\n' → Rebroken rest other →
      Rebroken (c :: rest) (c :: other)
  | lineFeed (gap : LineBreak) {rest other : List Char} : Rebroken rest other →
      Rebroken ('\n' :: rest) (gap.chars ++ other)

theorem rebroken_replaceLineFeeds (breaks : Nat → LineBreak) (text : List Char) :
    Rebroken text (replaceLineFeeds breaks text) := by
  induction text generalizing breaks with
  | nil => exact .nil
  | cons c rest ih =>
    rw [replaceLineFeeds]
    split
    next hc =>
      subst hc
      exact .lineFeed (breaks 0) (ih _)
    next hc => exact .char hc (ih breaks)

theorem isBlank_lineFeed : isBlank '\n' = true := by decide

theorem ne_lineFeed_of_isIdentifierChar {c : Char} (h : isIdentifierChar c = true) : c ≠ '\n' := by
  rintro rfl
  rw [isIdentifierChar_lineFeed] at h
  cases h

namespace Rebroken

variable {text other : List Char}

theorem atBoundary (h : Rebroken text other) (htext : AtBoundary text) : AtBoundary other := by
  cases h with
  | nil => exact atBoundary_nil
  | char _ _ => exact atBoundary_cons (htext _ rfl) _
  | lineFeed gap _ =>
    obtain ⟨c, tail, hchars⟩ := List.exists_cons_of_ne_nil (List.ne_nil_of_mem gap.lineFeed_mem)
    have hblank : isBlank c = true := gap.blank c (hchars ▸ List.mem_cons_self)
    rw [hchars]
    exact atBoundary_cons (isIdentifierChar_of_isBlank hblank) _

theorem append {first : List Char} (h : Rebroken text other) (hfirst : '\n' ∉ first) :
    Rebroken (first ++ text) (first ++ other) := by
  induction first with
  | nil => exact h
  | cons c first ih =>
    obtain ⟨hc, hrest⟩ := List.ne_and_not_mem_of_not_mem_cons hfirst
    exact .char (Ne.symm hc) (ih hrest)

theorem exists_append {first rest : List Char} (h : Rebroken (first ++ rest) other)
    (hfirst : '\n' ∉ first) : ∃ after, other = first ++ after ∧ Rebroken rest after := by
  induction first generalizing other with
  | nil => exact ⟨other, rfl, h⟩
  | cons c first ih =>
    obtain ⟨hc, hrest⟩ := List.ne_and_not_mem_of_not_mem_cons hfirst
    cases h with
    | char _ htail =>
      obtain ⟨after, rfl, hafter⟩ := ih htail hrest
      exact ⟨after, rfl, hafter⟩
    | lineFeed => exact absurd rfl hc

theorem mem_iff (h : Rebroken text other) {c : Char} (hc : isBlank c = false) : c ∈ text ↔ c ∈ other := by
  induction h with
  | nil => exact Iff.rfl
  | char _ _ ih => simp only [List.mem_cons, ih]
  | lineFeed gap _ ih =>
    have hne : c ≠ '\n' := (ne_of_isBlank isBlank_lineFeed hc).symm
    have hgap : c ∉ gap.chars := not_mem_of_forall gap.blank hc
    simp only [List.mem_cons, List.mem_append, hne, hgap, false_or, ih]

theorem dropBlanks (h : Rebroken text other) :
    Rebroken (text.dropWhile isBlank) (other.dropWhile isBlank) := by
  induction h with
  | nil => exact .nil
  | @char c rest other hc hrest ih =>
    cases hb : isBlank c with
    | true => simpa only [List.dropWhile_cons, hb, if_true] using ih
    | false => simpa [hb] using Rebroken.char hc hrest
  | lineFeed gap _ ih =>
    rw [List.dropWhile_cons_of_pos isBlank_lineFeed, List.dropWhile_append_of_pos gap.blank]
    exact ih

theorem takeWhile {p : Char → Bool} (hp : ∀ c, isBlank c = true → p c = true) (h : Rebroken text other) :
    Rebroken (text.takeWhile p) (other.takeWhile p) := by
  induction h with
  | nil => exact .nil
  | @char c rest other hc hrest ih =>
    cases hpc : p c with
    | true => simpa only [List.takeWhile_cons, hpc, if_true] using Rebroken.char hc ih
    | false => simpa [hpc] using Rebroken.nil
  | lineFeed gap _ ih =>
    rw [List.takeWhile_cons_of_pos (hp _ isBlank_lineFeed),
      List.takeWhile_append_of_pos fun c hc => hp c (gap.blank c hc)]
    exact .lineFeed gap ih

end Rebroken

section Pieces

theorem keywordPieces_blanks_append {blanks : List Char} (h : ∀ c ∈ blanks, isBlank c = true)
    (text : List Char) :
    keywordPieces (blanks ++ text) = (keywordPieces text).modifyHead (blanks ++ ·) := by
  induction blanks with
  | nil => exact (congrFun List.modifyHead_id (keywordPieces text)).symm
  | cons c blanks ih =>
    obtain ⟨hc, hblanks⟩ := List.forall_mem_cons.mp h
    rw [List.cons_append, keywordPieces_other (isIdentifierChar_of_isBlank hc), ih hblanks,
      List.modifyHead_modifyHead]
    congr 1

theorem headOfPiece?_blanks_append {blanks : List Char} (h : ∀ c ∈ blanks, isBlank c = true)
    (text : List Char) : headOfPiece? (blanks ++ text) = headOfPiece? text := by
  induction blanks with
  | nil => rfl
  | cons c blanks ih =>
    obtain ⟨hc, hblanks⟩ := List.forall_mem_cons.mp h
    rw [List.cons_append, headOfPiece?_other (isIdentifierChar_of_isBlank hc), ih hblanks]

theorem forall₂_modifyHead {α : Type} {R : α → α → Prop} {xs ys : List α} (h : List.Forall₂ R xs ys)
    {change other : α → α} (hchange : ∀ x y, R x y → R (change x) (other y)) :
    List.Forall₂ R (xs.modifyHead change) (ys.modifyHead other) := by
  cases h with
  | nil => exact .nil
  | cons hhead htail => exact .cons (hchange _ _ hhead) htail

theorem IsWord.lineFeed_not_mem {word : List Char} (h : IsWord word) : '\n' ∉ word :=
  fun hm => ne_lineFeed_of_isIdentifierChar (h.all _ hm) rfl

/-- A text with other line breaks is cut at the same keywords. -/
theorem forall₂_keywordPieces {text other : List Char} (h : Rebroken text other) :
    List.Forall₂ Rebroken (keywordPieces text) (keywordPieces other) := by
  induction text using word_induction generalizing other with
  | nil =>
    cases h
    rw [keywordPieces_nil]
    exact .cons .nil .nil
  | word word rest hw hr ih =>
    obtain ⟨after, rfl, hafter⟩ := h.exists_append hw.lineFeed_not_mem
    rw [keywordPieces_word hw hr, keywordPieces_word hw (hafter.atBoundary hr)]
    split
    · exact .cons .nil (ih hafter)
    · exact forall₂_modifyHead (ih hafter) fun _ _ hpiece => hpiece.append hw.lineFeed_not_mem
  | other c rest hc ih =>
    cases h with
    | char hne hrest =>
      rw [keywordPieces_other hc, keywordPieces_other hc]
      exact forall₂_modifyHead (ih hrest) fun _ _ hpiece => .char hne hpiece
    | lineFeed gap hrest =>
      rw [keywordPieces_other hc, keywordPieces_blanks_append gap.blank]
      exact forall₂_modifyHead (ih hrest) fun _ _ hpiece => .lineFeed gap hpiece

end Pieces

section Head

/-- Behind white space, a brace opens both texts or neither. -/
theorem Rebroken.openBrace_or {text other : List Char} (h : Rebroken text other) :
    (∃ body after, text.dropWhile isBlank = '{' :: body ∧ other.dropWhile isBlank = '{' :: after ∧
        Rebroken body after) ∨
      (∀ body, text.dropWhile isBlank ≠ '{' :: body) ∧ ∀ body, other.dropWhile isBlank ≠ '{' :: body := by
  have hdrop := h.dropBlanks
  have hfirst := List.head?_dropWhile_not isBlank text
  generalize text.dropWhile isBlank = rest at hdrop hfirst ⊢
  generalize other.dropWhile isBlank = after at hdrop ⊢
  cases hdrop with
  | nil => exact .inr ⟨fun _ => List.cons_ne_nil _ _ |>.symm, fun _ => List.cons_ne_nil _ _ |>.symm⟩
  | @char c rest after _ hrest =>
    by_cases hc : c = '{'
    · subst hc
      exact .inl ⟨rest, after, rfl, rfl, hrest⟩
    · exact .inr ⟨fun _ heq => hc (List.cons.inj heq).1, fun _ heq => hc (List.cons.inj heq).1⟩
  | lineFeed gap _ =>
    -- White space was dropped, so no line feed comes first.
    have hblank : isBlank '\n' = false := hfirst
    rw [isBlank_lineFeed] at hblank
    cases hblank

theorem rel_headOfPiece? {text other : List Char} (h : Rebroken text other) :
    Option.Rel (fun head after => head.1 = after.1 ∧ Rebroken head.2 after.2) (headOfPiece? text)
      (headOfPiece? other) := by
  induction text using word_induction generalizing other with
  | nil =>
    cases h
    rw [headOfPiece?]
    exact .none
  | word word rest hw hr ih =>
    obtain ⟨after, rfl, hafter⟩ := h.exists_append hw.lineFeed_not_mem
    rw [headOfPiece?_word hw hr, headOfPiece?_word hw (hafter.atBoundary hr)]
    obtain ⟨body, body', hbody, hbody', hsame⟩ | ⟨hno, hno'⟩ := hafter.openBrace_or
    · rw [hbody, hbody']
      exact .some ⟨rfl, hsame⟩
    · split
      next body hd => exact absurd hd (hno body)
      next => exact ih hafter
  | other c rest hc ih =>
    cases h with
    | char _ hrest =>
      rw [headOfPiece?_other hc, headOfPiece?_other hc]
      exact ih hrest
    | lineFeed gap hrest =>
      rw [headOfPiece?_other hc, headOfPiece?_blanks_append gap.blank]
      exact ih hrest

end Head

namespace FieldLine

theorem ofText?_congr {line other : List Char} (h : trim line = trim other) :
    ofText? line = ofText? other := by
  unfold ofText?
  rw [h]

theorem ofBody_of_not_mem {line : List Char} (h : '\n' ∉ line) : ofBody line = (ofText? line).toList := by
  have hwhole : ∀ c ∈ line, (c == '\n') = false := fun c hc => by
    simpa using ne_of_mem_of_not_mem hc h
  rw [ofBody, splitWhere_of_forall hwhole]
  cases hline : ofText? line <;> simp [hline]

theorem ofBody_line_append {line : List Char} (h : '\n' ∉ line) (rest : List Char) :
    ofBody (line ++ '\n' :: rest) = (ofText? line).toList ++ ofBody rest := by
  have hsplit : ofBody (line ++ '\n' :: rest) = ofBody line ++ ofBody rest := by
    unfold ofBody
    rw [splitWhere_eq_splitOnP, List.splitOnP_append_cons line rest rfl, List.filterMap_append,
      ← splitWhere_eq_splitOnP, ← splitWhere_eq_splitOnP]
  rw [hsplit, ofBody_of_not_mem h]

/-- A text is one line, or a line and what follows its line feed. -/
theorem line_cases (text : List Char) :
    '\n' ∉ text ∨ ∃ line rest, text = line ++ '\n' :: rest ∧ '\n' ∉ line := by
  by_cases h : '\n' ∈ text
  · exact .inr (List.eq_append_cons_of_mem h)
  · exact .inl h

theorem ofBody_cons_blank {c : Char} (hc : isBlank c = true) (text : List Char) :
    ofBody (c :: text) = ofBody text := by
  by_cases hfeed : c = '\n'
  · subst hfeed
    exact ofBody_line_append List.not_mem_nil text
  · have hblank : ∀ d ∈ [c], isBlank d = true := by simpa using hc
    have htrim : ∀ line, ofText? (c :: line) = ofText? line := fun line =>
      ofText?_congr (trim_blanks_append hblank line)
    obtain hline | ⟨line, rest, rfl, hline⟩ := line_cases text
    · have hcons := List.not_mem_cons_of_ne_of_not_mem (Ne.symm hfeed) hline
      rw [ofBody_of_not_mem hcons, ofBody_of_not_mem hline, htrim]
    · have hcons := List.not_mem_cons_of_ne_of_not_mem (Ne.symm hfeed) hline
      rw [← List.cons_append, ofBody_line_append hcons, ofBody_line_append hline, htrim]

theorem ofBody_blanks_append {blanks : List Char} (h : ∀ c ∈ blanks, isBlank c = true)
    (text : List Char) : ofBody (blanks ++ text) = ofBody text := by
  induction blanks with
  | nil => rfl
  | cons c blanks ih =>
    obtain ⟨hc, hblanks⟩ := List.forall_mem_cons.mp h
    rw [List.cons_append, ofBody_cons_blank hc, ih hblanks]

/-- The white space before the first line feed of a break goes to the line that ends there, what comes after it
makes blank lines and indents the next one. The line that has been read so far comes first. -/
theorem ofBody_append_of_rebroken {text other : List Char} (h : Rebroken text other) {line : List Char}
    (hline : '\n' ∉ line) : ofBody (line ++ text) = ofBody (line ++ other) := by
  induction h generalizing line with
  | nil => rfl
  | @char c rest other hc _ ih =>
    have hlonger : '\n' ∉ line ++ [c] := by simp [hline, Ne.symm hc]
    simpa using ih hlonger
  | @lineFeed gap rest other _ ih =>
    obtain ⟨first, last, hchars, hfirst⟩ := List.eq_append_cons_of_mem gap.lineFeed_mem
    have hblank := gap.blank
    rw [hchars, List.forall_mem_append, List.forall_mem_cons] at hblank
    have hrest : ofBody rest = ofBody (last ++ other) := by
      rw [ofBody_blanks_append hblank.2.2]
      exact ih List.not_mem_nil
    have hlonger : '\n' ∉ line ++ first := by simp [hline, hfirst]
    have hsame : ofText? (line ++ first) = ofText? line := ofText?_congr (trim_append_blanks hblank.1 line)
    have hwhole : line ++ (gap.chars ++ other) = (line ++ first) ++ '\n' :: (last ++ other) := by
      rw [hchars]
      simp
    rw [hwhole, ofBody_line_append hline, ofBody_line_append hlonger, hsame, hrest]

end FieldLine

theorem TableBlock.ofPiece?_eq_of_rebroken {piece other : List Char} (h : Rebroken piece other) :
    TableBlock.ofPiece? piece = TableBlock.ofPiece? other := by
  have hhead := rel_headOfPiece? h
  unfold TableBlock.ofPiece?
  generalize headOfPiece? piece = head at hhead
  generalize headOfPiece? other = head' at hhead
  cases hhead with
  | none => rfl
  | @some head head' hsame =>
    obtain ⟨name, rest⟩ := head
    obtain ⟨name', rest'⟩ := head'
    obtain ⟨rfl, hrest⟩ := hsame
    have hclosing : isBlank '}' = false := by decide
    have hpass : ∀ c, isBlank c = true → (c != '}') = true := fun c hc =>
      bne_iff_ne.mpr (ne_of_isBlank hc hclosing)
    have hbody := FieldLine.ofBody_append_of_rebroken (hrest.takeWhile hpass) List.not_mem_nil
    simp only [List.nil_append, FieldLine.ofBody_eq] at hbody
    simp only [Option.bind_some, hrest.mem_iff hclosing, hbody]

theorem parseBlocks_eq_of_rebroken {source other : String} (h : Rebroken source.toList other.toList) :
    parseBlocks source = parseBlocks other := by
  rw [parseBlocks_eq, parseBlocks_eq]
  exact filterMap_eq_of_forall₂ (forall₂_keywordPieces h) fun _ _ => TableBlock.ofPiece?_eq_of_rebroken

/-- How the lines of a source text are broken makes no difference to its blocks, and so none to its schema and
to the texts that are written from it. -/
theorem readings_replaceLineFeeds (breaks : Nat → LineBreak) (source : String) :
    let other := String.ofList (replaceLineFeeds breaks source.toList)
    parseBlocks other = parseBlocks source ∧ Schema.ofSource other = Schema.ofSource source ∧
      exportSql other = exportSql source ∧ parseSchema other = parseSchema source := by
  intro other
  have hbroken : Rebroken source.toList other.toList := by
    rw [String.toList_ofList]
    exact rebroken_replaceLineFeeds breaks source.toList
  have hblocks : parseBlocks other = parseBlocks source := (parseBlocks_eq_of_rebroken hbroken).symm
  have hschema : Schema.ofSource other = Schema.ofSource source := by
    rw [Schema.ofSource, hblocks, Schema.ofSource]
  refine ⟨hblocks, hschema, ?_, ?_⟩
  · rw [exportSql, hschema, exportSql]
  · rw [parseSchema, hschema, parseSchema]

/-- Carriage returns, indented lines, white space behind a line and a blank line. -/
example : parseBlocks "Table t \x7b\r\n\tid int  \n\n  name text\r\n \x7d" =
    parseBlocks "Table t \x7b\nid int\nname text\n\x7d" := by decide +kernel

end SchemaDiagram
