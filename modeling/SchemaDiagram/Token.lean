import SchemaDiagram.TextScan

namespace SchemaDiagram

/-- The units that table blocks are recognised by. -/
inductive Token where
  /-- A longest run of identifier characters. -/
  | word (text : String)
  | openBrace
  | closeBrace
  /-- Any other character that is not white space. -/
  | symbol (c : Char)
  | endOfText
  deriving DecidableEq, Repr, Inhabited

/-- A token with the offsets of its first byte and of the byte after its last. -/
structure PlacedToken where
  token : Token
  start : Nat
  stop : Nat
  deriving DecidableEq, Repr, Inhabited

/-- The token that begins with a character which is neither white space nor part of a word. -/
def Token.ofMark (c : Char) : Token :=
  if c = '{' then .openBrace else if c = '}' then .closeBrace else .symbol c

/-- The next token of a text that begins at the offset, and the text after the token. -/
def nextToken (offset : Nat) (text : List Char) : PlacedToken × List Char :=
  let start := offset + byteLength (text.takeWhile isBlank)
  match text.dropWhile isBlank with
  | [] => (⟨.endOfText, start, start⟩, [])
  | c :: rest =>
    if isIdentifierChar c then
      let word := c :: rest.takeWhile isIdentifierChar
      (⟨.word (String.ofList word), start, start + byteLength word⟩,
        rest.dropWhile isIdentifierChar)
    else (⟨Token.ofMark c, start, start + c.utf8Size⟩, rest)

theorem length_dropWhile_le {α : Type} (p : α → Bool) (xs : List α) :
    (xs.dropWhile p).length ≤ xs.length :=
  (List.dropWhile_sublist p).length_le

/-- Every token but the last takes something off the text. -/
theorem length_nextToken_lt {offset : Nat} {text : List Char}
    (h : (nextToken offset text).1.token ≠ .endOfText) :
    (nextToken offset text).2.length < text.length := by
  have hle := length_dropWhile_le isBlank text
  unfold nextToken at h ⊢
  split
  · next hd => simp [hd] at h
  · next c rest hd =>
    rw [hd, List.length_cons] at hle
    have := length_dropWhile_le isIdentifierChar rest
    split <;> simp only <;> omega

/-- All tokens of a text that begins at the offset, the end of the text last. White space separates tokens
and belongs to none; every other character belongs to exactly one. -/
def tokensFrom (offset : Nat) (text : List Char) : List PlacedToken :=
  if _h : (nextToken offset text).1.token = .endOfText then [(nextToken offset text).1]
  else (nextToken offset text).1 ::
    tokensFrom (nextToken offset text).1.stop (nextToken offset text).2
termination_by text.length
decreasing_by exact length_nextToken_lt _h

/-- All tokens of a source text, the end of the text last. -/
def tokenize (source : String) : List PlacedToken :=
  tokensFrom 0 source.toList

/-- So many tokens of the text; the end of the text is given again and again. -/
def takeTokens : Nat → Nat → List Char → List PlacedToken
  | 0, _, _ => []
  | count + 1, offset, text =>
    (nextToken offset text).1 ::
      takeTokens count (nextToken offset text).1.stop (nextToken offset text).2

end SchemaDiagram
