import SchemaDiagram.Token
import SchemaDiagram.Proofs.TextSlices

namespace SchemaDiagram

theorem mem_of_inRanges {n : Nat} {ranges : List (Nat × Nat)} (h : inRanges n ranges = true) :
    ∃ range ∈ ranges, range.1 ≤ n ∧ n ≤ range.2 := by
  induction ranges with
  | nil => cases h
  | cons range rest ih =>
    obtain ⟨low, high⟩ := range
    obtain ⟨hlow, hrest⟩ := Bool.and_eq_true_iff.mp h
    rcases Bool.or_eq_true_iff.mp hrest with hhigh | hrest
    · exact ⟨(low, high), List.mem_cons_self, by simpa using hlow, by simpa using hhigh⟩
    · obtain ⟨range, hm, hr⟩ := ih hrest
      exact ⟨range, List.mem_cons_of_mem _ hm, hr⟩

/-- The white space characters, by their numbers. -/
def blankCodes : List Nat :=
  blankRanges.flatMap fun range => List.range' range.1 (range.2 - range.1 + 1)

theorem mem_blankCodes_of_isBlank {c : Char} (h : isBlank c = true) : c.toNat ∈ blankCodes := by
  obtain ⟨range, hm, hlow, hhigh⟩ := mem_of_inRanges h
  refine List.mem_flatMap.mpr ⟨range, hm, List.mem_range'_1.mpr ⟨hlow, ?_⟩⟩
  omega

theorem not_inRanges_of_mem_blankCodes :
    ∀ n ∈ blankCodes, inRanges n alphanumericRanges = false ∧ n ≠ '_'.toNat := by
  decide +kernel

/-- White space is never part of a word. -/
theorem isIdentifierChar_of_isBlank {c : Char} (h : isBlank c = true) :
    isIdentifierChar c = false := by
  obtain ⟨hletter, hscore⟩ := not_inRanges_of_mem_blankCodes _ (mem_blankCodes_of_isBlank h)
  have hne : c ≠ '_' := fun he => hscore (congrArg Char.toNat he)
  simp [isIdentifierChar, isAlphanumeric, hletter, hne]

theorem isBlank_of_isIdentifierChar {c : Char} (h : isIdentifierChar c = true) : isBlank c = false := by
  cases hb : isBlank c with
  | false => rfl
  | true =>
    rw [isIdentifierChar_of_isBlank hb] at h
    cases h

theorem isIdentifierChar_openBrace : isIdentifierChar '{' = false := by decide +kernel

theorem isIdentifierChar_closeBrace : isIdentifierChar '}' = false := by decide +kernel

/-- A run of identifier characters that is not empty. -/
structure IsWord (text : List Char) : Prop where
  ne_nil : text ≠ []
  all : ∀ c ∈ text, isIdentifierChar c = true

-- `List.all`, since a bounded quantifier over characters may be decided by trying every character.
instance (text : List Char) : Decidable (IsWord text) :=
  decidable_of_iff (text ≠ [] ∧ text.all isIdentifierChar = true)
    ⟨fun ⟨h, h'⟩ => ⟨h, List.all_eq_true.mp h'⟩, fun ⟨h, h'⟩ => ⟨h, List.all_eq_true.mpr h'⟩⟩

theorem IsWord.exists_cons {word : List Char} (h : IsWord word) :
    ∃ c rest, word = c :: rest ∧ isIdentifierChar c = true ∧
      ∀ d ∈ rest, isIdentifierChar d = true := by
  obtain ⟨c, rest, rfl⟩ := List.exists_cons_of_ne_nil h.ne_nil
  exact ⟨c, rest, rfl, h.all c List.mem_cons_self, fun d hd => h.all d (List.mem_cons_of_mem c hd)⟩

/-- No word goes on where the text begins. -/
def AtBoundary (text : List Char) : Prop := ∀ c ∈ text.head?, isIdentifierChar c = false

theorem atBoundary_nil : AtBoundary [] := fun _ h => by cases h

theorem atBoundary_cons {c : Char} (h : isIdentifierChar c = false) (rest : List Char) :
    AtBoundary (c :: rest) := fun _ hm => Option.some.inj hm ▸ h

theorem atBoundary_dropWhile (text : List Char) : AtBoundary (text.dropWhile isIdentifierChar) := by
  intro c hm
  have h := List.head?_dropWhile_not isIdentifierChar text
  rw [Option.mem_def.mp hm] at h
  simpa using h

theorem takeWhile_append_of_head? {α : Type} {p : α → Bool} {first rest : List α}
    (hfirst : ∀ a ∈ first, p a = true) (hrest : ∀ a ∈ rest.head?, p a = false) :
    (first ++ rest).takeWhile p = first := by
  have hstop : rest.takeWhile p = [] := by
    cases rest with
    | nil => rfl
    | cons a rest => simp [hrest a rfl]
  rw [List.takeWhile_append_of_pos hfirst, hstop, List.append_nil]

theorem dropWhile_append_of_head? {α : Type} {p : α → Bool} {first rest : List α}
    (hfirst : ∀ a ∈ first, p a = true) (hrest : ∀ a ∈ rest.head?, p a = false) :
    (first ++ rest).dropWhile p = rest := by
  rw [List.dropWhile_append_of_pos hfirst]
  cases rest with
  | nil => rfl
  | cons a rest => simp [hrest a rfl]

/-- A text is read word by word, and outside of words character by character. -/
@[elab_as_elim]
theorem word_induction {P : List Char → Prop} (nil : P [])
    (word : ∀ word rest, IsWord word → AtBoundary rest → P rest → P (word ++ rest))
    (other : ∀ c rest, isIdentifierChar c = false → P rest → P (c :: rest)) (text : List Char) :
    P text := by
  match text with
  | [] => exact nil
  | c :: rest =>
    cases hc : isIdentifierChar c with
    | false => exact other c rest hc (word_induction nil word other rest)
    | true =>
      have hsplit : c :: rest =
          (c :: rest.takeWhile isIdentifierChar) ++ rest.dropWhile isIdentifierChar := by
        simp
      have hword : IsWord (c :: rest.takeWhile isIdentifierChar) := by
        refine ⟨List.cons_ne_nil _ _, ?_⟩
        intro d hd
        rcases List.mem_cons.mp hd with rfl | hd
        · exact hc
        · exact List.all_eq_true.mp List.all_takeWhile d hd
      have hshorter := length_dropWhile_le isIdentifierChar rest
      rw [hsplit]
      exact word _ _ hword (atBoundary_dropWhile rest) (word_induction nil word other _)
termination_by text.length
decreasing_by
  · simp
  · simp only [List.length_cons]
    omega

section Tokens

variable (offset : Nat)

theorem nextToken_blank {c : Char} (h : isBlank c = true) (rest : List Char) :
    nextToken offset (c :: rest) = nextToken (offset + c.utf8Size) rest := by
  simp only [nextToken, List.takeWhile_cons, List.dropWhile_cons, h, if_true, byteLength_cons,
    Nat.add_assoc]

theorem nextToken_word {word rest : List Char} (hw : IsWord word) (hr : AtBoundary rest) :
    nextToken offset (word ++ rest) =
      (⟨.word (String.ofList word), offset, offset + byteLength word⟩, rest) := by
  obtain ⟨c, tail, rfl, hc, htail⟩ := hw.exists_cons
  have hblank : isBlank c = false := isBlank_of_isIdentifierChar hc
  simp only [nextToken, List.cons_append, List.takeWhile_cons, List.dropWhile_cons, hblank, hc, if_true,
    Bool.false_eq_true, if_false, byteLength_nil, Nat.add_zero,
    takeWhile_append_of_head? htail hr, dropWhile_append_of_head? htail hr]

theorem nextToken_mark {c : Char} (hb : isBlank c = false) (hi : isIdentifierChar c = false)
    (rest : List Char) :
    nextToken offset (c :: rest) =
      (⟨Token.ofMark c, offset, offset + c.utf8Size⟩, rest) := by
  simp [nextToken, hb, hi]

theorem tokensFrom_nil : tokensFrom offset [] = [⟨.endOfText, offset, offset⟩] := by
  simp [tokensFrom, nextToken]

theorem tokensFrom_blank {c : Char} (h : isBlank c = true) (rest : List Char) :
    tokensFrom offset (c :: rest) = tokensFrom (offset + c.utf8Size) rest := by
  rw [tokensFrom, nextToken_blank offset h, ← tokensFrom]

theorem tokensFrom_word {word rest : List Char} (hw : IsWord word) (hr : AtBoundary rest) :
    tokensFrom offset (word ++ rest) =
      ⟨.word (String.ofList word), offset, offset + byteLength word⟩ ::
        tokensFrom (offset + byteLength word) rest := by
  rw [tokensFrom, nextToken_word offset hw hr, dif_neg (by simp)]

theorem ofMark_ne_endOfText (c : Char) : Token.ofMark c ≠ .endOfText := by
  unfold Token.ofMark
  split
  · simp
  · split <;> simp

theorem tokensFrom_mark {c : Char} (hb : isBlank c = false) (hi : isIdentifierChar c = false)
    (rest : List Char) :
    tokensFrom offset (c :: rest) =
      ⟨Token.ofMark c, offset, offset + c.utf8Size⟩ :: tokensFrom (offset + c.utf8Size) rest := by
  rw [tokensFrom, nextToken_mark offset hb hi, dif_neg (ofMark_ne_endOfText c)]

theorem tokensFrom_ne_nil (text : List Char) : tokensFrom offset text ≠ [] := by
  rw [tokensFrom]
  split <;> simp

/-- The tokens of a text without its end. -/
def innerTokens (text : List Char) : List PlacedToken := (tokensFrom offset text).dropLast

@[simp] theorem innerTokens_nil : innerTokens offset [] = [] := by
  simp [innerTokens, tokensFrom_nil]

theorem innerTokens_blank {c : Char} (h : isBlank c = true) (rest : List Char) :
    innerTokens offset (c :: rest) = innerTokens (offset + c.utf8Size) rest := by
  simp only [innerTokens, tokensFrom_blank offset h]

theorem innerTokens_word {word rest : List Char} (hw : IsWord word) (hr : AtBoundary rest) :
    innerTokens offset (word ++ rest) =
      ⟨.word (String.ofList word), offset, offset + byteLength word⟩ ::
        innerTokens (offset + byteLength word) rest := by
  rw [innerTokens, tokensFrom_word offset hw hr,
    List.dropLast_cons_of_ne_nil (tokensFrom_ne_nil _ rest), innerTokens]

theorem innerTokens_mark {c : Char} (hb : isBlank c = false) (hi : isIdentifierChar c = false)
    (rest : List Char) :
    innerTokens offset (c :: rest) =
      ⟨Token.ofMark c, offset, offset + c.utf8Size⟩ :: innerTokens (offset + c.utf8Size) rest := by
  rw [innerTokens, tokensFrom_mark offset hb hi,
    List.dropLast_cons_of_ne_nil (tokensFrom_ne_nil _ rest), innerTokens]

theorem innerTokens_dropBlanks (text : List Char) :
    innerTokens offset text =
      innerTokens (offset + byteLength (text.takeWhile isBlank)) (text.dropWhile isBlank) := by
  induction text generalizing offset with
  | nil => simp
  | cons c rest ih =>
    cases hb : isBlank c with
    | false => simp [hb]
    | true =>
      rw [innerTokens_blank offset hb, ih, List.takeWhile_cons_of_pos hb,
        List.dropWhile_cons_of_pos hb, byteLength_cons, Nat.add_assoc]

end Tokens

/-- The text that a token stands for. -/
def Token.spelling : Token → List Char
  | .word text => text.toList
  | .openBrace => ['{']
  | .closeBrace => ['}']
  | .symbol c => [c]
  | .endOfText => []

theorem spelling_ofMark (c : Char) : (Token.ofMark c).spelling = [c] := by
  unfold Token.ofMark
  split
  next h => rw [h]; rfl
  next =>
    split
    next h => rw [h]; rfl
    next => rfl

/-- The slice of the source that the token covers exists and is the text of the token. -/
def PlacedToken.IsSliceOf (t : PlacedToken) (source : List Char) : Prop :=
  byteSlice? source t.start t.stop = some t.token.spelling

theorem isSliceOf_append (before after : List Char) (token : Token) :
    PlacedToken.IsSliceOf
      ⟨token, byteLength before, byteLength before + byteLength token.spelling⟩
      (before ++ (token.spelling ++ after)) :=
  byteSlice?_append before token.spelling after

theorem isSliceOf_of_mem_tokensFrom (before text : List Char) :
    ∀ t ∈ tokensFrom (byteLength before) text, t.IsSliceOf (before ++ text) := by
  induction text using word_induction generalizing before with
  | nil =>
    intro t hm
    rw [tokensFrom_nil] at hm
    cases List.mem_singleton.mp hm
    exact isSliceOf_append before [] .endOfText
  | word word rest hw hr ih =>
    intro t hm
    rw [tokensFrom_word _ hw hr] at hm
    rcases List.mem_cons.mp hm with rfl | hm
    · simpa [Token.spelling] using isSliceOf_append before rest (.word (String.ofList word))
    · have h := ih (before ++ word) t (by simpa using hm)
      rwa [List.append_assoc] at h
  | other c rest hi ih =>
    intro t hm
    have hrest : t ∈ tokensFrom (byteLength before + c.utf8Size) rest →
        t.IsSliceOf (before ++ c :: rest) := by
      intro hm
      have h := ih (before ++ [c]) t (by simpa using hm)
      rwa [List.append_assoc] at h
    cases hb : isBlank c with
    | true => exact hrest (by rwa [tokensFrom_blank _ hb] at hm)
    | false =>
      rw [tokensFrom_mark _ hb hi] at hm
      rcases List.mem_cons.mp hm with rfl | hm
      · simpa [spelling_ofMark] using isSliceOf_append before rest (Token.ofMark c)
      · exact hrest hm

/-- Every token covers its own text and no other bytes. -/
theorem isSliceOf_of_mem_tokenize (source : String) :
    ∀ t ∈ tokenize source, t.IsSliceOf source.toList :=
  isSliceOf_of_mem_tokensFrom [] source.toList

end SchemaDiagram
