import SchemaDiagram.Proofs.BlockGrammar

namespace SchemaDiagram

/-- The longest runs of identifier characters in a text. -/
def identifierRuns (text : List Char) : List (List Char) :=
  (text.splitOnP fun c => !isIdentifierChar c).filter fun run => !run.isEmpty

/-- The keyword stands nowhere in the text as a whole word. -/
def KeywordFree (text : List Char) : Prop := tableKeyword.toList ∉ identifierRuns text

instance (text : List Char) : Decidable (KeywordFree text) :=
  inferInstanceAs (Decidable (_ ∉ _))

def FieldLine.text (f : FieldLine) : List Char := f.name.toList ++ ' ' :: f.definition.toList

/-- The text of a block after its keyword. -/
def TableBlock.textAfterKeyword (b : TableBlock) : List Char :=
  ' ' :: (b.name.toList ++ (' ' :: '{' :: '\n' ::
    (b.lines.flatMap (fun f => f.text ++ ['\n']) ++ ['}', '\n'])))

def renderBlocks (blocks : List TableBlock) : String :=
  String.ofList (blocks.flatMap fun b => tableKeyword.toList ++ b.textAfterKeyword)

/-- What a line must be like to be read as it is written. -/
structure FieldLine.IsPlain (f : FieldLine) : Prop where
  name_ne_nil : f.name.toList ≠ []
  name_chars : ∀ c ∈ f.name.toList, isBlank c = false ∧ c ≠ '{' ∧ c ≠ '}'
  definition_chars : ∀ c ∈ f.definition.toList, c ≠ '\n' ∧ c ≠ '{' ∧ c ≠ '}'
  definition_end : ∀ c ∈ f.definition.toList.getLast?, isBlank c = false
  name_keywordFree : KeywordFree f.name.toList
  definition_keywordFree : KeywordFree f.definition.toList

/-- What a block must be like to be read as it is written. -/
structure TableBlock.IsPlain (b : TableBlock) : Prop where
  name_isWord : IsWord b.name.toList
  name_ne_keyword : b.name.toList ≠ tableKeyword.toList
  lines : ∀ f ∈ b.lines, f.IsPlain

instance (f : FieldLine) : Decidable f.IsPlain :=
  decidable_of_iff (f.name.toList ≠ [] ∧
      f.name.toList.all (fun c => !isBlank c && c != '{' && c != '}') = true ∧
      f.definition.toList.all (fun c => c != '\n' && c != '{' && c != '}') = true ∧
      f.definition.toList.getLast?.all (fun c => !isBlank c) = true ∧
      KeywordFree f.name.toList ∧ KeywordFree f.definition.toList) <| by
    simp only [List.all_eq_true, Option.all_eq_true, Bool.and_eq_true, Bool.not_eq_true', bne_iff_ne,
      and_assoc]
    exact ⟨fun ⟨h, hn, hd, he, hk, hk'⟩ => ⟨h, hn, hd, he, hk, hk'⟩,
      fun ⟨h, hn, hd, he, hk, hk'⟩ => ⟨h, hn, hd, he, hk, hk'⟩⟩

instance (b : TableBlock) : Decidable b.IsPlain :=
  decidable_of_iff (IsWord b.name.toList ∧ b.name.toList ≠ tableKeyword.toList ∧
      ∀ f ∈ b.lines, f.IsPlain)
    ⟨fun ⟨h, hk, hl⟩ => ⟨h, hk, hl⟩, fun ⟨h, hk, hl⟩ => ⟨h, hk, hl⟩⟩

section Runs

theorem identifierRuns_append_cons (first rest : List Char) {c : Char}
    (h : isIdentifierChar c = false) :
    identifierRuns (first ++ c :: rest) = identifierRuns first ++ identifierRuns rest := by
  simp only [identifierRuns]
  rw [List.splitOnP_append_cons first rest (by simp [h]), List.filter_append]

theorem identifierRuns_cons {c : Char} (h : isIdentifierChar c = false) (rest : List Char) :
    identifierRuns (c :: rest) = identifierRuns rest :=
  identifierRuns_append_cons [] rest h

theorem identifierRuns_word {word : List Char} (hw : IsWord word) : identifierRuns word = [word] := by
  have hnone : ∀ c ∈ word, (!isIdentifierChar c) = false := fun c hc => by simp [hw.all c hc]
  have hne : word.isEmpty = false := by simpa using hw.ne_nil
  simp [identifierRuns, List.splitOnP_eq_singleton hnone, hne]

theorem identifierRuns_word_append {word rest : List Char} (hw : IsWord word) (hr : AtBoundary rest) :
    identifierRuns (word ++ rest) = word :: identifierRuns rest := by
  cases rest with
  | nil =>
    rw [List.append_nil, identifierRuns_word hw]
    rfl
  | cons c rest =>
    have hc : isIdentifierChar c = false := hr c rfl
    rw [identifierRuns_append_cons word rest hc, identifierRuns_word hw, identifierRuns_cons hc]
    rfl

theorem keywordFree_append_cons {first rest : List Char} {c : Char} (h : isIdentifierChar c = false) :
    KeywordFree (first ++ c :: rest) ↔ KeywordFree first ∧ KeywordFree rest := by
  simp [KeywordFree, identifierRuns_append_cons first rest h]

theorem keywordFree_cons {rest : List Char} {c : Char} (h : isIdentifierChar c = false) :
    KeywordFree (c :: rest) ↔ KeywordFree rest := by
  simp [KeywordFree, identifierRuns_cons h]

theorem keywordFree_word_append {word rest : List Char} (hw : IsWord word) (hr : AtBoundary rest) :
    KeywordFree (word ++ rest) ↔ tableKeyword.toList ≠ word ∧ KeywordFree rest := by
  simp [KeywordFree, identifierRuns_word_append hw hr]

/-- A text without the keyword is not cut. -/
theorem keywordPieces_append_cons {text : List Char} (ht : KeywordFree text) {c : Char}
    (hc : isIdentifierChar c = false) (rest : List Char) :
    keywordPieces (text ++ c :: rest) = (keywordPieces rest).modifyHead (text ++ [c] ++ ·) := by
  induction text using word_induction with
  | nil => exact keywordPieces_other hc rest
  | word word after hw hr ih =>
    obtain ⟨hne, hafter⟩ := (keywordFree_word_append hw hr).mp ht
    -- The word ends where it ended in the text, or at the character after the text.
    have hboundary : AtBoundary (after ++ c :: rest) := by
      cases after with
      | nil => exact atBoundary_cons hc rest
      | cons d after => exact fun x hx => hr x hx
    rw [List.append_assoc, keywordPieces_word hw hboundary, if_neg (Ne.symm hne), ih hafter,
      List.modifyHead_modifyHead]
    congr 1
    funext piece
    simp
  | other d after hd ih =>
    rw [List.cons_append, keywordPieces_other hd, ih ((keywordFree_cons hd).mp ht),
      List.modifyHead_modifyHead]
    congr 1

end Runs

section Rendered

theorem isIdentifierChar_blank : isIdentifierChar ' ' = false := isIdentifierChar_of_isBlank (by decide)

theorem isIdentifierChar_lineFeed : isIdentifierChar '\n' = false :=
  isIdentifierChar_of_isBlank (by decide)

theorem FieldLine.IsPlain.keywordFree {f : FieldLine} (h : f.IsPlain) : KeywordFree f.text :=
  (keywordFree_append_cons isIdentifierChar_blank).mpr
    ⟨h.name_keywordFree, h.definition_keywordFree⟩

theorem keywordFree_lines {lines : List FieldLine} (h : ∀ f ∈ lines, f.IsPlain) :
    KeywordFree (lines.flatMap fun f => f.text ++ ['\n']) := by
  induction lines with
  | nil => exact List.not_mem_nil
  | cons f rest ih =>
    have hf : f.IsPlain := h f List.mem_cons_self
    have hrest := ih fun g hg => h g (List.mem_cons_of_mem f hg)
    rw [List.flatMap_cons, List.append_assoc, List.singleton_append]
    exact (keywordFree_append_cons isIdentifierChar_lineFeed).mpr ⟨hf.keywordFree, hrest⟩

/-- The text of a block after its keyword, without the last line feed. -/
def TableBlock.innerText (b : TableBlock) : List Char :=
  ' ' :: (b.name.toList ++ ' ' :: '{' :: '\n' ::
    (b.lines.flatMap (fun f => f.text ++ ['\n']) ++ ['}']))

theorem TableBlock.textAfterKeyword_eq (b : TableBlock) :
    b.textAfterKeyword = b.innerText ++ ['\n'] := by
  simp [textAfterKeyword, innerText]

theorem TableBlock.IsPlain.keywordFree {b : TableBlock} (h : b.IsPlain) : KeywordFree b.innerText := by
  have hname : KeywordFree b.name.toList := by
    rw [KeywordFree, identifierRuns_word h.name_isWord]
    simpa using Ne.symm h.name_ne_keyword
  have hlines := keywordFree_lines h.lines
  have hend : KeywordFree [] := List.not_mem_nil
  refine (keywordFree_cons isIdentifierChar_blank).mpr ?_
  refine (keywordFree_append_cons isIdentifierChar_blank).mpr ⟨hname, ?_⟩
  refine (keywordFree_cons isIdentifierChar_openBrace).mpr ?_
  refine (keywordFree_cons isIdentifierChar_lineFeed).mpr ?_
  exact (keywordFree_append_cons isIdentifierChar_closeBrace).mpr ⟨hlines, hend⟩

/-- The text that is written is cut between its blocks and nowhere else. -/
theorem keywordPieces_render {blocks : List TableBlock} (h : ∀ b ∈ blocks, b.IsPlain) :
    keywordPieces (blocks.flatMap fun b => tableKeyword.toList ++ b.textAfterKeyword) =
      [] :: blocks.map TableBlock.textAfterKeyword := by
  induction blocks with
  | nil => exact keywordPieces_nil
  | cons b rest ih =>
    have hb : b.IsPlain := h b List.mem_cons_self
    have hrest := ih fun other hm => h other (List.mem_cons_of_mem b hm)
    have hboundary : AtBoundary (b.textAfterKeyword ++
        rest.flatMap fun b => tableKeyword.toList ++ b.textAfterKeyword) :=
      atBoundary_cons isIdentifierChar_blank _
    rw [List.flatMap_cons, List.append_assoc, keywordPieces_word isWord_tableKeyword hboundary,
      if_pos rfl, b.textAfterKeyword_eq, List.append_assoc, List.singleton_append,
      keywordPieces_append_cons hb.keywordFree isIdentifierChar_lineFeed, hrest]
    simp [TableBlock.textAfterKeyword_eq]

/-- A line is cut where its name ends. -/
theorem FieldLine.ofPlainLine?_of_trimmed {line name rest : List Char}
    (htrim : (line.dropWhile isBlank).rdropWhile isBlank = name ++ rest) (hname : name ≠ [])
    (hplain : ∀ c ∈ name, isBlank c = false) (hrest : ∀ c ∈ rest.head?, isBlank c = true) :
    ofPlainLine? line = some ⟨String.ofList name, String.ofList rest.tail⟩ := by
  have hfirst : ∀ c ∈ name, (!isBlank c) = true := fun c hc => by simp [hplain c hc]
  have hstop : ∀ c ∈ rest.head?, (!isBlank c) = false := fun c hc => by simp [hrest c hc]
  have htake := takeWhile_append_of_head? hfirst hstop
  have hdrop := dropWhile_append_of_head? hfirst hstop
  simp only [ofPlainLine?, htrim, htake, hdrop, List.append_eq_nil_iff, hname, false_and, if_false]

theorem FieldLine.IsPlain.ofPlainLine? {f : FieldLine} (h : f.IsPlain) :
    FieldLine.ofPlainLine? f.text = some f := by
  obtain ⟨c, tail, hname⟩ := List.exists_cons_of_ne_nil h.name_ne_nil
  have hplain : ∀ d ∈ f.name.toList, isBlank d = false := fun d hd => (h.name_chars d hd).1
  have hstart : f.text.dropWhile isBlank = f.text := by
    have hc : isBlank c = false := hplain c (hname ▸ List.mem_cons_self)
    simp [FieldLine.text, hname, hc]
  by_cases hd : f.definition.toList = []
  -- Without a definition the space after the name is outer white space and goes with it.
  · have htrim : (f.text.dropWhile isBlank).rdropWhile isBlank = f.name.toList ++ [] := by
      have hlast : isBlank (f.name.toList.getLast h.name_ne_nil) = false :=
        hplain _ (List.getLast_mem _)
      rw [hstart, FieldLine.text, hd, List.rdropWhile_concat_pos _ _ _ (by decide),
        List.append_nil, List.rdropWhile_eq_self_iff]
      simp [hlast]
    have hdefinition : f.definition = String.ofList [] := by rw [← hd, String.ofList_toList]
    rw [ofPlainLine?_of_trimmed htrim h.name_ne_nil hplain (by simp), List.tail_nil,
      String.ofList_toList, ← hdefinition]
  · have htrim : (f.text.dropWhile isBlank).rdropWhile isBlank =
        f.name.toList ++ ' ' :: f.definition.toList := by
      have hlast := h.definition_end (f.definition.toList.getLast hd)
        (List.getLast?_eq_some_getLast hd)
      rw [hstart, ← FieldLine.text, List.rdropWhile_eq_self_iff]
      intro hne
      simp [FieldLine.text, hd, hlast]
    have hblank : ∀ c ∈ (' ' :: f.definition.toList).head?, isBlank c = true := by
      intro c hc
      cases Option.some.inj hc
      decide
    rw [ofPlainLine?_of_trimmed htrim h.name_ne_nil hplain hblank, List.tail_cons,
      String.ofList_toList, String.ofList_toList]

theorem FieldLine.not_mem_text {f : FieldLine} {c : Char} (hname : c ∉ f.name.toList) (hc : c ≠ ' ')
    (hdefinition : c ∉ f.definition.toList) : c ∉ f.text := by
  intro hm
  rcases List.mem_append.mp hm with hm | hm
  · exact hname hm
  · rcases List.mem_cons.mp hm with he | hm
    · exact hc he
    · exact hdefinition hm

theorem FieldLine.IsPlain.lineFeed_not_mem {f : FieldLine} (h : f.IsPlain) : '\n' ∉ f.text :=
  not_mem_text (fun hm => absurd (h.name_chars _ hm).1 (by decide)) (by decide)
    fun hm => (h.definition_chars _ hm).1 rfl

theorem FieldLine.IsPlain.closeBrace_not_mem {f : FieldLine} (h : f.IsPlain) : '}' ∉ f.text :=
  not_mem_text (fun hm => (h.name_chars _ hm).2.2 rfl) (by decide)
    fun hm => (h.definition_chars _ hm).2.2 rfl

theorem filterMap_lines {lines : List FieldLine} (h : ∀ f ∈ lines, f.IsPlain) :
    ((lines.flatMap fun f => f.text ++ ['\n']).splitOn '\n').filterMap FieldLine.ofPlainLine? =
      lines := by
  induction lines with
  | nil => rfl
  | cons f rest ih =>
    have hf : f.IsPlain := h f List.mem_cons_self
    have hrest := ih fun g hg => h g (List.mem_cons_of_mem f hg)
    have hwhole : ∀ c ∈ f.text, (c == '\n') = false := fun c hc => by
      simpa using ne_of_mem_of_not_mem hc hf.lineFeed_not_mem
    rw [List.splitOn_eq_splitOnP] at hrest ⊢
    rw [List.flatMap_cons, List.append_assoc, List.singleton_append,
      List.splitOnP_append_cons_of_forall_mem hwhole '\n' rfl,
      List.filterMap_cons_some hf.ofPlainLine?, hrest]

theorem closeBrace_not_mem_lines {lines : List FieldLine} (h : ∀ f ∈ lines, f.IsPlain) :
    '}' ∉ lines.flatMap fun f => f.text ++ ['\n'] := by
  intro hm
  obtain ⟨f, hf, hmem⟩ := List.mem_flatMap.mp hm
  rcases List.mem_append.mp hmem with hmem | hmem
  · exact (h f hf).closeBrace_not_mem hmem
  · exact absurd hmem (by decide)

theorem headOfPiece?_textAfterKeyword {b : TableBlock} (h : IsWord b.name.toList) :
    headOfPiece? b.textAfterKeyword = some (b.name.toList,
      '\n' :: (b.lines.flatMap (fun f => f.text ++ ['\n']) ++ ['}', '\n'])) := by
  have hboundary : ∀ rest, AtBoundary (' ' :: rest) := atBoundary_cons isIdentifierChar_blank
  have hblank : isBlank ' ' = true := by decide
  have hbrace : isBlank '{' = false := by decide
  rw [TableBlock.textAfterKeyword, headOfPiece?_other isIdentifierChar_blank,
    headOfPiece?_word h (hboundary _), List.dropWhile_cons_of_pos hblank,
    List.dropWhile_cons_of_neg (by simp [hbrace])]
  rfl

theorem TableBlock.ofPiece?_of_head {piece name rest : List Char}
    (h : headOfPiece? piece = some (name, rest)) (hc : '}' ∈ rest) :
    ofPiece? piece = some {
      name := String.ofList name
      lines := ((rest.takeWhile (· != '}')).splitOn '\n').filterMap FieldLine.ofPlainLine? } := by
  rw [ofPiece?, h, Option.bind_some]
  exact if_pos hc

theorem TableBlock.IsPlain.ofPiece? {b : TableBlock} (h : b.IsPlain) :
    TableBlock.ofPiece? b.textAfterKeyword = some b := by
  have hhead := headOfPiece?_textAfterKeyword h.name_isWord
  have hbrace := closeBrace_not_mem_lines h.lines
  have hlines := filterMap_lines h.lines
  generalize b.lines.flatMap (fun f => f.text ++ ['\n']) = lines at hhead hbrace hlines
  have hpass : ∀ c ∈ '\n' :: lines, (c != '}') = true := by
    intro c hc
    rcases List.mem_cons.mp hc with rfl | hc
    · rfl
    · simpa using ne_of_mem_of_not_mem hc hbrace
  have hbody : ('\n' :: (lines ++ ['}', '\n'])).takeWhile (· != '}') = '\n' :: lines := by
    rw [← List.cons_append, List.takeWhile_append_of_pos hpass]
    simp
  have hfirst : ('\n' :: lines).splitOn '\n' = [] :: lines.splitOn '\n' := by
    rw [List.splitOn_eq_splitOnP, List.splitOnP_cons_eq_if_modifyHead]
    rfl
  rw [ofPiece?_of_head hhead (by simp), hbody, hfirst, List.filterMap_cons_none rfl, hlines,
    String.ofList_toList]

end Rendered

/-- What is written for a list of blocks is read as that list, with its repeated names and with every
definition to the letter. -/
theorem parseBlocks_renderBlocks {blocks : List TableBlock} (h : ∀ b ∈ blocks, b.IsPlain) :
    parseBlocks (renderBlocks blocks) = blocks := by
  rw [parseBlocks_eq, renderBlocks, String.toList_ofList, grammarBlocks, keywordPieces_render h]
  have hfirst : TableBlock.ofPiece? [] = none := by
    rw [TableBlock.ofPiece?, headOfPiece?]
    rfl
  have hrest : ∀ b ∈ blocks, (TableBlock.ofPiece? ∘ TableBlock.textAfterKeyword) b = some b :=
    fun b hb => (h b hb).ofPiece?
  rw [List.filterMap_cons_none hfirst, List.filterMap_map, List.filterMap_congr hrest,
    List.filterMap_some]

/-- Repeated names, names that begin with the keyword, letters of another script, definitions that begin
with white space or are empty, and a block without lines. -/
def plainBlocks : List TableBlock :=
  [⟨"Tables", [⟨"x.Tabled", "  int [ref: > Tables.id]"⟩, ⟨"flag", ""⟩, ⟨"flag", "\tint"⟩]⟩, ⟨"表", []⟩,
    ⟨"Tables", [⟨"id", "int\rx"⟩]⟩]

theorem parseBlocks_renderBlocks_plainBlocks :
    (∀ b ∈ plainBlocks, b.IsPlain) ∧ parseBlocks (renderBlocks plainBlocks) = plainBlocks := by
  have h : ∀ b ∈ plainBlocks, b.IsPlain := by decide +kernel
  exact ⟨h, parseBlocks_renderBlocks h⟩

end SchemaDiagram
