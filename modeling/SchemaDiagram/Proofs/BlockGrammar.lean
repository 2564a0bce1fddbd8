import Mathlib.Data.List.DropRight
import Mathlib.Data.List.Forall2
import SchemaDiagram.Block
import SchemaDiagram.Proofs.TokenStream

namespace SchemaDiagram

/-- The text cut at every longest run of identifier characters that is the keyword. -/
def keywordPieces : List Char → List (List Char)
  | [] => [[]]
  | c :: rest =>
    if isIdentifierChar c then
      let word := c :: rest.takeWhile isIdentifierChar
      let pieces := keywordPieces (rest.dropWhile isIdentifierChar)
      if word = tableKeyword.toList then [] :: pieces else pieces.modifyHead (word ++ ·)
    else (keywordPieces rest).modifyHead (c :: ·)
termination_by text => text.length
decreasing_by
  · have := length_dropWhile_le isIdentifierChar rest
    simp only [List.length_cons]
    omega
  · simp

/-- The first longest run of identifier characters that an opening brace follows, with or without white
space between them, and the text after the brace. -/
def headOfPiece? : List Char → Option (List Char × List Char)
  | [] => none
  | c :: rest =>
    if isIdentifierChar c then
      match (rest.dropWhile isIdentifierChar).dropWhile isBlank with
      | '{' :: body => some (c :: rest.takeWhile isIdentifierChar, body)
      | _ => headOfPiece? (rest.dropWhile isIdentifierChar)
    else headOfPiece? rest
termination_by text => text.length
decreasing_by
  · have := length_dropWhile_le isIdentifierChar rest
    simp only [List.length_cons]
    omega
  · simp

namespace FieldLine

/-- A line without outer white space, cut at its first white space character, which is dropped. -/
def ofPlainLine? (line : List Char) : Option FieldLine :=
  let text := (line.dropWhile isBlank).rdropWhile isBlank
  if text = [] then none
  else some {
    name := String.ofList (text.takeWhile fun c => !isBlank c)
    definition := String.ofList (text.dropWhile fun c => !isBlank c).tail }

end FieldLine

/-- The block that a piece of the text declares: it needs a head and a closing brace after it. -/
def TableBlock.ofPiece? (piece : List Char) : Option TableBlock :=
  (headOfPiece? piece).bind fun (name, rest) =>
    if '}' ∈ rest then
      let body := rest.takeWhile (· != '}')
      some {
        name := String.ofList name
        lines := (body.splitOn '\n').filterMap FieldLine.ofPlainLine? }
    else none

/-- The blocks of a plain text, in order. -/
def grammarBlocks (text : List Char) : List TableBlock :=
  (keywordPieces text).filterMap TableBlock.ofPiece?

theorem splitWhere_eq_splitOnP {α : Type} (cut : α → Bool) (xs : List α) :
    splitWhere cut xs = xs.splitOnP cut := by
  induction xs with
  | nil => rfl
  | cons x rest ih =>
    rw [splitWhere, ih, List.splitOnP_cons_eq_if_modifyHead]
    split
    · rfl
    · obtain ⟨piece, pieces, h⟩ := List.exists_cons_of_ne_nil (List.splitOnP_ne_nil cut rest)
      rw [h]
      rfl

theorem FieldLine.ofText?_eq_ofPlainLine? (line : List Char) :
    ofText? line = ofPlainLine? line := by
  have htrim : trim line = (line.dropWhile isBlank).rdropWhile isBlank := rfl
  unfold ofText? ofPlainLine?
  rw [htrim]
  cases (line.dropWhile isBlank).rdropWhile isBlank with
  | nil => rfl
  | cons c rest => simp

theorem FieldLine.ofBody_eq (body : List Char) :
    ofBody body = (body.splitOn '\n').filterMap ofPlainLine? := by
  rw [ofBody, splitWhere_eq_splitOnP, List.splitOn_eq_splitOnP]
  exact List.filterMap_congr fun line _ => ofText?_eq_ofPlainLine? line

section Pieces

theorem isWord_tableKeyword : IsWord tableKeyword.toList := by decide +kernel

@[simp] theorem keywordPieces_nil : keywordPieces [] = [[]] := by rw [keywordPieces]

theorem keywordPieces_word {word rest : List Char} (hw : IsWord word) (hr : AtBoundary rest) :
    keywordPieces (word ++ rest) =
      if word = tableKeyword.toList then [] :: keywordPieces rest
      else (keywordPieces rest).modifyHead (word ++ ·) := by
  obtain ⟨c, tail, rfl, hc, htail⟩ := hw.exists_cons
  rw [List.cons_append, keywordPieces]
  simp only [hc, if_true, takeWhile_append_of_head? htail hr,
    dropWhile_append_of_head? htail hr]

theorem keywordPieces_other {c : Char} (h : isIdentifierChar c = false) (rest : List Char) :
    keywordPieces (c :: rest) = (keywordPieces rest).modifyHead (c :: ·) := by
  rw [keywordPieces]
  simp only [h, Bool.false_eq_true, if_false]

theorem headOfPiece?_word {word rest : List Char} (hw : IsWord word) (hr : AtBoundary rest) :
    headOfPiece? (word ++ rest) =
      match rest.dropWhile isBlank with
      | '{' :: body => some (word, body)
      | _ => headOfPiece? rest := by
  obtain ⟨c, tail, rfl, hc, htail⟩ := hw.exists_cons
  rw [List.cons_append, headOfPiece?]
  simp only [hc, if_true, takeWhile_append_of_head? htail hr,
    dropWhile_append_of_head? htail hr]

theorem headOfPiece?_other {c : Char} (h : isIdentifierChar c = false) (rest : List Char) :
    headOfPiece? (c :: rest) = headOfPiece? rest := by
  rw [headOfPiece?]
  simp only [h, Bool.false_eq_true, if_false]

end Pieces

/-- The tokens are those of the piece, at its place in the source. -/
def StandsFor (source : List Char) (chunk : List PlacedToken) (piece : List Char) : Prop :=
  ∃ before after, source = before ++ (piece ++ after) ∧
    chunk = innerTokens (byteLength before) piece

theorem isTableKeyword_word_iff (word : List Char) (start stop : Nat) :
    PlacedToken.isTableKeyword ⟨.word (String.ofList word), start, stop⟩ = true ↔
      word = tableKeyword.toList := by
  have hword : String.ofList word = tableKeyword ↔ word = tableKeyword.toList := by
    constructor
    · intro h
      rw [← h, String.toList_ofList]
    · intro h
      rw [h, String.ofList_toList]
  simpa [PlacedToken.isTableKeyword] using hword

theorem isTableKeyword_ofMark (c : Char) (start stop : Nat) :
    PlacedToken.isTableKeyword ⟨Token.ofMark c, start, stop⟩ = false := by
  unfold Token.ofMark PlacedToken.isTableKeyword
  split
  · rfl
  · split <;> rfl

theorem AtBoundary.of_append {first rest : List Char} (h : AtBoundary (first ++ rest)) :
    AtBoundary first := by
  cases first with
  | nil => exact atBoundary_nil
  | cons c first => exact fun d hd => h d hd

/-- The runs of tokens between two keywords are the tokens of the pieces between two keywords. The
first piece begins where the text begins. -/
theorem exists_pieces (before text : List Char) :
    ∃ chunk chunks piece pieces,
      (innerTokens (byteLength before) text).splitOnP PlacedToken.isTableKeyword = chunk :: chunks ∧
      keywordPieces text = piece :: pieces ∧
      (∃ after, text = piece ++ after) ∧ chunk = innerTokens (byteLength before) piece ∧
      List.Forall₂ (StandsFor (before ++ text)) chunks pieces := by
  induction text using word_induction generalizing before with
  | nil => exact ⟨[], [], [], [], by simp, by simp, ⟨[], rfl⟩, by simp, .nil⟩
  | word word rest hw hr ih =>
    obtain ⟨chunk, chunks, piece, pieces, hchunks, hpieces, ⟨after, ha⟩, hchunk, hrest⟩ :=
      ih (before ++ word)
    rw [byteLength_append] at hchunks hchunk
    rw [List.append_assoc] at hrest
    rw [innerTokens_word _ hw hr, keywordPieces_word hw hr,
      List.splitOnP_cons_eq_if_modifyHead, hchunks, hpieces]
    by_cases hk : word = tableKeyword.toList
    -- The keyword closes the run before it; what follows is a run of its own, at its place.
    · refine ⟨[], chunk :: chunks, [], piece :: pieces, ?_, if_pos hk, ⟨_, rfl⟩, by simp, ?_⟩
      · rw [if_pos ((isTableKeyword_word_iff ..).mpr hk)]
      · refine .cons ⟨before ++ word, after, ?_, ?_⟩ hrest
        · rw [List.append_assoc, ← ha]
        · rw [byteLength_append]
          exact hchunk
    · refine ⟨_, chunks, word ++ piece, pieces, ?_, if_neg hk, ⟨after, ?_⟩, rfl, hrest⟩
      · have hboundary : AtBoundary piece := (ha ▸ hr).of_append
        rw [if_neg (mt (isTableKeyword_word_iff ..).mp hk), innerTokens_word _ hw hboundary, hchunk]
        rfl
      · rw [List.append_assoc, ← ha]
  | other c rest hi ih =>
    obtain ⟨chunk, chunks, piece, pieces, hchunks, hpieces, ⟨after, ha⟩, hchunk, hrest⟩ :=
      ih (before ++ [c])
    have hbytes : byteLength (before ++ [c]) = byteLength before + c.utf8Size := by simp
    rw [hbytes] at hchunks hchunk
    rw [List.append_assoc] at hrest
    rw [keywordPieces_other hi, hpieces]
    -- A mark and white space both stay in the piece; only the mark leaves a token.
    refine ⟨innerTokens (byteLength before) (c :: piece), chunks, c :: piece, pieces, ?_, rfl,
      ⟨after, congrArg (c :: ·) ha⟩, rfl, hrest⟩
    cases hb : isBlank c with
    | true => rw [innerTokens_blank _ hb, innerTokens_blank _ hb, hchunks, hchunk]
    | false =>
      rw [innerTokens_mark _ hb hi, innerTokens_mark _ hb hi, List.splitOnP_cons_eq_if_modifyHead,
        hchunks, isTableKeyword_ofMark, hchunk]
      rfl

theorem forall₂_standsFor (source : List Char) :
    List.Forall₂ (StandsFor source)
      ((innerTokens 0 source).splitOnP PlacedToken.isTableKeyword) (keywordPieces source) := by
  obtain ⟨chunk, chunks, piece, pieces, hchunks, hpieces, ⟨after, ha⟩, hchunk, hrest⟩ :=
    exists_pieces [] source
  rw [byteLength_nil] at hchunks
  rw [hchunks, hpieces]
  exact .cons ⟨[], after, ha, hchunk⟩ hrest

section Head

theorem blockHead?_word_cons (name : String) (start stop : Nat) {tokens : List PlacedToken}
    (h : ∀ t ∈ tokens.head?, t.token ≠ .openBrace) :
    blockHead? (⟨.word name, start, stop⟩ :: tokens) = blockHead? tokens := by
  cases tokens with
  | nil => rfl
  | cons t rest =>
    obtain ⟨token, start', stop'⟩ := t
    have hne : token ≠ .openBrace := h _ rfl
    cases token with
    | openBrace => exact absurd rfl hne
    | word | closeBrace | symbol | endOfText => rfl

theorem blockHead?_ofMark_cons (c : Char) (start stop : Nat) (tokens : List PlacedToken) :
    blockHead? (⟨Token.ofMark c, start, stop⟩ :: tokens) = blockHead? tokens := by
  unfold Token.ofMark
  split
  · rfl
  · split <;> rfl

theorem innerTokens_openBrace (before body : List Char) :
    innerTokens (byteLength before) ('{' :: body) =
      ⟨.openBrace, byteLength before, byteLength (before ++ ['{'])⟩ ::
        innerTokens (byteLength (before ++ ['{'])) body := by
  have hb : isBlank '{' = false := by decide
  have hsize : byteLength (before ++ ['{']) = byteLength before + '{'.utf8Size := by simp
  rw [innerTokens_mark _ hb isIdentifierChar_openBrace, hsize]
  rfl

theorem token_ne_openBrace_of_mem_head? (offset : Nat) {text : List Char}
    (h : ∀ body, text.dropWhile isBlank ≠ '{' :: body) :
    ∀ t ∈ (innerTokens offset text).head?, t.token ≠ .openBrace := by
  rw [innerTokens_dropBlanks]
  have hnot := List.head?_dropWhile_not isBlank text
  generalize text.dropWhile isBlank = tail at h hnot ⊢
  induction tail using word_induction with
  | nil => simp
  | word word rest hw hr ih =>
    intro t ht
    rw [innerTokens_word _ hw hr] at ht
    cases Option.some.inj ht
    simp
  | other c rest hi ih =>
    intro t ht
    rw [innerTokens_mark _ hnot hi] at ht
    cases Option.some.inj ht
    have hne : c ≠ '{' := fun he => h rest (he ▸ rfl)
    simp only [Token.ofMark, hne, if_false]
    split <;> simp

/-- The head of a piece, found among its tokens: the body begins after what the grammar skips. -/
inductive SameHead (before piece : List Char) :
    Option (List Char × List Char) → Option (String × Nat × List PlacedToken) → Prop where
  | none : SameHead before piece none none
  | some (name skipped body : List Char) : piece = skipped ++ body →
      SameHead before piece (some (name, body))
        (some (String.ofList name, byteLength (before ++ skipped),
          innerTokens (byteLength (before ++ skipped)) body))

theorem SameHead.append {before first rest : List Char} {head : Option (List Char × List Char)}
    {found : Option (String × Nat × List PlacedToken)}
    (h : SameHead (before ++ first) rest head found) : SameHead before (first ++ rest) head found := by
  cases h with
  | none => exact .none
  | some name skipped body hp =>
    rw [List.append_assoc]
    exact .some name (first ++ skipped) body (by rw [hp, List.append_assoc])

theorem sameHead (before piece : List Char) :
    SameHead before piece (headOfPiece? piece)
      (blockHead? (innerTokens (byteLength before) piece)) := by
  induction piece using word_induction generalizing before with
  | nil =>
    rw [headOfPiece?, innerTokens_nil]
    exact .none
  | word word rest hw hr ih =>
    rw [headOfPiece?_word hw hr, innerTokens_word _ hw hr]
    have hbytes : byteLength before + byteLength word = byteLength (before ++ word) := by simp
    rw [hbytes]
    split
    -- The word is the name: white space leaves no tokens, so the brace is the next one.
    next body hd =>
      have hrest : rest = rest.takeWhile isBlank ++ '{' :: body := by
        rw [← hd, List.takeWhile_append_dropWhile]
      have hbefore : byteLength (before ++ word) + byteLength (rest.takeWhile isBlank) =
          byteLength (before ++ (word ++ rest.takeWhile isBlank)) := by
        simp [Nat.add_assoc]
      rw [innerTokens_dropBlanks, hd, hbefore, innerTokens_openBrace, List.append_assoc before]
      refine SameHead.some word _ body ?_
      rw [List.append_assoc, List.append_assoc, List.singleton_append, ← hrest]
    next hd =>
      rw [blockHead?_word_cons _ _ _ (token_ne_openBrace_of_mem_head? _ hd)]
      exact (ih (before ++ word)).append
  | other c rest hi ih =>
    have hbytes : byteLength before + c.utf8Size = byteLength (before ++ [c]) := by simp
    have hstep := ih (before ++ [c])
    rw [headOfPiece?_other hi]
    cases hb : isBlank c with
    | true =>
      rw [innerTokens_blank _ hb, hbytes]
      exact hstep.append
    | false =>
      rw [innerTokens_mark _ hb hi, blockHead?_ofMark_cons, hbytes]
      exact hstep.append

/-- The first closing brace of a body stands where its token says. -/
theorem find?_closeBrace (before body : List Char) :
    (innerTokens (byteLength before) body).find? (·.token == .closeBrace) =
      if '}' ∈ body then
        some ⟨.closeBrace, byteLength (before ++ body.takeWhile (· != '}')),
          byteLength (before ++ body.takeWhile (· != '}')) + 1⟩
      else none := by
  induction body using word_induction generalizing before with
  | nil => simp
  | word word rest hw hr ih =>
    -- A word holds no brace, so its token and its text are both passed over.
    have hnot : '}' ∉ word := fun hm => by
      have h := hw.all _ hm
      simp [isIdentifierChar_closeBrace] at h
    have hpass : ∀ c ∈ word, (c != '}') = true := fun c hc => by
      simpa using ne_of_mem_of_not_mem hc hnot
    have hbytes : byteLength before + byteLength word = byteLength (before ++ word) := by simp
    rw [innerTokens_word _ hw hr, List.find?_cons_of_neg (by simp), hbytes, ih,
      List.takeWhile_append_of_pos hpass, List.append_assoc]
    simp [hnot]
  | other c rest hi ih =>
    have hbytes : byteLength before + c.utf8Size = byteLength (before ++ [c]) := by simp
    cases hb : isBlank c with
    | true =>
      have hne : c ≠ '}' := fun he => by
        rw [he] at hb
        revert hb
        decide
      rw [innerTokens_blank _ hb, hbytes, ih]
      simp [hne, Ne.symm hne]
    | false =>
      by_cases he : c = '}'
      · subst he
        have hmark : Token.ofMark '}' = .closeBrace := rfl
        rw [innerTokens_mark _ hb hi, hmark, List.find?_cons_of_pos rfl]
        simp
        rfl
      · have hnot : (Token.ofMark c == .closeBrace) = false := by
          unfold Token.ofMark
          split
          · rfl
          · simp
        rw [innerTokens_mark _ hb hi, List.find?_cons_of_neg (by simp [hnot]), hbytes, ih]
        simp [he, Ne.symm he]

end Head

/-- The body between a head and the first closing brace is a slice of the source. -/
theorem byteSlice?_body {source before piece skipped rest after : List Char}
    (hs : source = before ++ (piece ++ after)) (hp : piece = skipped ++ rest) :
    byteSlice? source (byteLength (before ++ skipped))
      (byteLength (before ++ skipped ++ rest.takeWhile (· != '}'))) =
      some (rest.takeWhile (· != '}')) := by
  have hsource : source = (before ++ skipped) ++
      (rest.takeWhile (· != '}') ++ (rest.dropWhile (· != '}') ++ after)) := by
    rw [hs, hp, ← List.append_assoc (rest.takeWhile _), List.takeWhile_append_dropWhile]
    simp only [List.append_assoc]
  rw [hsource, byteLength_append (before ++ skipped)]
  exact byteSlice?_append ..

theorem ofTokens?_of_standsFor {source piece : List Char} {chunk : List PlacedToken}
    (h : StandsFor source chunk piece) :
    TableBlock.ofTokens? source chunk = TableBlock.ofPiece? piece := by
  obtain ⟨before, after, hs, rfl⟩ := h
  have hhead := sameHead before piece
  unfold TableBlock.ofTokens? TableBlock.ofPiece?
  generalize headOfPiece? piece = head at hhead
  generalize blockHead? (innerTokens (byteLength before) piece) = found at hhead
  cases hhead with
  | none => rfl
  | some name skipped rest hp =>
    simp only [Option.bind_eq_bind, Option.bind_some, find?_closeBrace]
    split
    next => simp only [Option.bind_some, byteSlice?_body hs hp, FieldLine.ofBody_eq]; rfl
    next => rfl

theorem isSome_body_of_standsFor {source piece : List Char} {chunk : List PlacedToken}
    (h : StandsFor source chunk piece) :
    ∀ head ∈ blockHead? chunk, ∀ close ∈ head.2.2.find? (·.token == .closeBrace),
      (byteSlice? source head.2.1 close.start).isSome = true := by
  obtain ⟨before, after, hs, rfl⟩ := h
  have hhead := sameHead before piece
  intro head hm close hclose
  rw [Option.mem_def.mp hm] at hhead
  generalize headOfPiece? piece = plain at hhead
  cases hhead with
  | some name skipped rest hp =>
    rw [find?_closeBrace, Option.mem_def] at hclose
    split at hclose
    next =>
      cases hclose
      rw [byteSlice?_body hs hp]
      rfl
    next => cases hclose

theorem filterMap_eq_of_forall₂ {α β γ : Type} {R : α → β → Prop} {read : α → Option γ}
    {other : β → Option γ} {xs : List α} {ys : List β} (h : List.Forall₂ R xs ys)
    (hread : ∀ x y, R x y → read x = other y) : xs.filterMap read = ys.filterMap other := by
  induction h with
  | nil => rfl
  | cons hhead _ ih => rw [List.filterMap_cons, List.filterMap_cons, hread _ _ hhead, ih]

/-- Reading by tokens and byte offsets comes to the same as reading the plain text. -/
theorem parseBlocks_eq (source : String) : parseBlocks source = grammarBlocks source.toList := by
  rw [parseBlocks, splitWhere_eq_splitOnP]
  exact filterMap_eq_of_forall₂ (forall₂_standsFor source.toList) fun _ _ => ofTokens?_of_standsFor

namespace FieldLine

/-- The name is the slice from the start of the line, and the definition the slice from the character
after the next one to its end. -/
structure IsCutFrom (f : FieldLine) (text : List Char) : Prop where
  name : byteSlice? text 0 (byteLength f.name.toList) = some f.name.toList
  definition : byteSlice? text (byteLength (text.take (f.name.toList.length + 1))) (byteLength text) =
    some f.definition.toList

theorem isCutFrom_of_ofText? {line : List Char} {f : FieldLine} (h : ofText? line = some f) :
    f.IsCutFrom (trim line) := by
  unfold ofText? at h
  generalize trim line = text at h ⊢
  cases text with
  | nil => cases h
  | cons c rest =>
    cases h
    generalize c :: rest = text
    let name := text.takeWhile fun c => !isBlank c
    let after := text.dropWhile fun c => !isBlank c
    have hsplit : text = name ++ after := List.takeWhile_append_dropWhile.symm
    have hdrop : text.drop (name.length + 1) = after.drop 1 := by
      rw [← List.drop_drop, hsplit, List.drop_left]
    constructor
    · have hslice := byteSlice?_append [] name after
      rw [List.nil_append, ← hsplit] at hslice
      simpa using hslice
    · have hslice := byteSlice?_append (text.take (name.length + 1)) (text.drop (name.length + 1)) []
      rw [← byteLength_append, List.append_nil, List.take_append_drop, hdrop] at hslice
      simpa using hslice

end FieldLine

/-- The blocks of a source text are those of its plain text. Every token covers its own text, every body
that has both its braces is a slice of the source, and every line is cut where its name ends. -/
theorem parseBlocks_eq_grammarBlocks (source : String) :
    parseBlocks source = grammarBlocks source.toList ∧
    (∀ t ∈ tokenize source, t.IsSliceOf source.toList) ∧
    (∀ chunk ∈ splitWhere PlacedToken.isTableKeyword (tokenize source).dropLast,
      ∀ head ∈ blockHead? chunk, ∀ close ∈ head.2.2.find? (·.token == .closeBrace),
        (byteSlice? source.toList head.2.1 close.start).isSome = true) ∧
    ∀ line, ∀ f ∈ FieldLine.ofText? line, f.IsCutFrom (trim line) := by
  refine ⟨parseBlocks_eq source, isSliceOf_of_mem_tokenize source, ?_, ?_⟩
  · intro chunk hm
    rw [splitWhere_eq_splitOnP] at hm
    have hbodies := (forall₂_standsFor source.toList).imp fun chunk piece h =>
      And.intro (isSome_body_of_standsFor h) h
    exact ((List.forall₂_and_left _ _).mp hbodies).1 chunk hm
  · intro line f hf
    exact FieldLine.isCutFrom_of_ofText? hf

end SchemaDiagram
