import SchemaDiagram.JsonReader

namespace SchemaDiagram

namespace Toml

def isSpace (c : Char) : Bool := c == ' ' || c == '\t'

/-- The characters that a comment may hold: all but the control characters. -/
def isTextChar (c : Char) : Bool :=
  c == '\t' || (0x20 ≤ c.toNat && c.toNat != 0x7F)

def skipSpace (text : List Char) : List Char := text.dropWhile isSpace

def lineEnd? : List Char → Option (List Char)
  | '\n' :: rest => some rest
  | '\r' :: '\n' :: rest => some rest
  | _ => none

def skipComment : List Char → List Char
  | '#' :: rest => rest.dropWhile isTextChar
  | text => text

/-- The text after the end of the line, before which only white space and a comment may stand. -/
def restOfLine? (text : List Char) : Option (List Char) :=
  match skipComment (skipSpace text) with
  | [] => some []
  | text => lineEnd? text

/-- The text after white space, line ends and comments. The flag tells whether the text begins inside a
comment. -/
def skipFiller : Bool → List Char → List Char
  | _, [] => []
  | _, '\n' :: rest => skipFiller false rest
  | _, '\r' :: '\n' :: rest => skipFiller false rest
  | inComment, c :: rest =>
    if inComment then if isTextChar c then skipFiller true rest else c :: rest
    else if isSpace c then skipFiller false rest
    else if c = '#' then skipFiller true rest
    else c :: rest

/-- The character with the number, unless it is half a surrogate pair or too large. -/
def charOf? (n : Nat) : Option Char :=
  if n < 0xD800 ∨ (0xDFFF < n ∧ n < 0x110000) then some (Char.ofNat n) else none

def escape? (c : Char) : Option Char :=
  if c = '/' then none else simpleEscape? c

/-- Puts a character before a text that was read. -/
def withChar (c : Char) (result : List Char × List Char) : List Char × List Char :=
  (c :: result.1, result.2)

def readBasic? : List Char → Option (List Char × List Char)
  | [] => none
  | '"' :: rest => some ([], rest)
  | '\\' :: 'u' :: a :: b :: c :: d :: rest => do
    let char ← charOf? (← hexNumber? [a, b, c, d])
    (readBasic? rest).map (withChar char)
  | '\\' :: 'U' :: a :: b :: c :: d :: e :: f :: g :: h :: rest => do
    let char ← charOf? (← hexNumber? [a, b, c, d, e, f, g, h])
    (readBasic? rest).map (withChar char)
  | '\\' :: c :: rest => do
    let char ← escape? c
    (readBasic? rest).map (withChar char)
  | c :: rest => if isTextChar c then (readBasic? rest).map (withChar c) else none

def readLiteral? : List Char → Option (List Char × List Char)
  | [] => none
  | c :: rest =>
    if c = '\'' then some ([], rest)
    else if isTextChar c then (readLiteral? rest).map (withChar c)
    else none

/-- Where a text over several lines stands: inside the text, behind a backslash that has to be the last
of its line, or in the white space that such a backslash takes away. -/
inductive LineState where
  | inside
  | lineEnding
  | skipping
  deriving DecidableEq, Repr, Inhabited

/-- Reads a text in three double quotes each, from behind the first three. Up to two more quotes may
stand right before the last three. -/
def readMultilineBasic? : LineState → List Char → Option (List Char × List Char)
  | _, [] => none
  | .lineEnding, '\n' :: rest => readMultilineBasic? .skipping rest
  | .lineEnding, '\r' :: '\n' :: rest => readMultilineBasic? .skipping rest
  | .lineEnding, c :: rest => if isSpace c then readMultilineBasic? .lineEnding rest else none
  | .skipping, '\n' :: rest => readMultilineBasic? .skipping rest
  | .skipping, '\r' :: '\n' :: rest => readMultilineBasic? .skipping rest
  | _, '"' :: '"' :: '"' :: '"' :: '"' :: rest => some (['"', '"'], rest)
  | _, '"' :: '"' :: '"' :: '"' :: rest => some (['"'], rest)
  | _, '"' :: '"' :: '"' :: rest => some ([], rest)
  | _, '\n' :: rest => (readMultilineBasic? .inside rest).map (withChar '\n')
  | _, '\r' :: '\n' :: rest => (readMultilineBasic? .inside rest).map (withChar '\n')
  | _, '\\' :: '\n' :: rest => readMultilineBasic? .skipping rest
  | _, '\\' :: '\r' :: '\n' :: rest => readMultilineBasic? .skipping rest
  | _, '\\' :: ' ' :: rest => readMultilineBasic? .lineEnding rest
  | _, '\\' :: '\t' :: rest => readMultilineBasic? .lineEnding rest
  | _, '\\' :: 'u' :: a :: b :: c :: d :: rest => do
    let char ← charOf? (← hexNumber? [a, b, c, d])
    (readMultilineBasic? .inside rest).map (withChar char)
  | _, '\\' :: 'U' :: a :: b :: c :: d :: e :: f :: g :: h :: rest => do
    let char ← charOf? (← hexNumber? [a, b, c, d, e, f, g, h])
    (readMultilineBasic? .inside rest).map (withChar char)
  | _, '\\' :: c :: rest => do
    let char ← escape? c
    (readMultilineBasic? .inside rest).map (withChar char)
  | state, c :: rest =>
    if state = .skipping ∧ isSpace c then readMultilineBasic? .skipping rest
    else if isTextChar c then (readMultilineBasic? .inside rest).map (withChar c)
    else none

/-- Reads a text in three single quotes each, from behind the first three. Up to two more quotes may
stand right before the last three. -/
def readMultilineLiteral? : List Char → Option (List Char × List Char)
  | [] => none
  | '\'' :: '\'' :: '\'' :: '\'' :: '\'' :: rest => some (['\'', '\''], rest)
  | '\'' :: '\'' :: '\'' :: '\'' :: rest => some (['\''], rest)
  | '\'' :: '\'' :: '\'' :: rest => some ([], rest)
  | '\n' :: rest => (readMultilineLiteral? rest).map (withChar '\n')
  | '\r' :: '\n' :: rest => (readMultilineLiteral? rest).map (withChar '\n')
  | c :: rest => if isTextChar c then (readMultilineLiteral? rest).map (withChar c) else none

def dropLineEnd (text : List Char) : List Char := (lineEnd? text).getD text

def readString? : List Char → Option (List Char × List Char)
  | '"' :: '"' :: '"' :: rest => readMultilineBasic? .inside (dropLineEnd rest)
  | '\'' :: '\'' :: '\'' :: rest => readMultilineLiteral? (dropLineEnd rest)
  | '"' :: rest => readBasic? rest
  | '\'' :: rest => readLiteral? rest
  | _ => none

def isBareKeyChar (c : Char) : Bool :=
  c.isAlphanum || c == '_' || c == '-'

def readKeyPart? (text : List Char) : Option (String × List Char) :=
  match text with
  | '"' :: rest => (readBasic? rest).map fun (key, rest) => (String.ofList key, rest)
  | '\'' :: rest => (readLiteral? rest).map fun (key, rest) => (String.ofList key, rest)
  | text =>
    match text.takeWhile isBareKeyChar with
    | [] => none
    | key@(_ :: _) => some (String.ofList key, text.dropWhile isBareKeyChar)

/-- A dotted key has to have fewer parts than this. -/
def keyPartLimit : Nat := 80

/-- Reads the parts of a key, of which there may be so many at most, and the white space around each. -/
def readKeyParts? : Nat → List Char → Option (List String × List Char)
  | 0, _ => none
  | count + 1, text => do
    let (part, rest) ← readKeyPart? (skipSpace text)
    match skipSpace rest with
    | '.' :: rest =>
      let (parts, rest) ← readKeyParts? count rest
      return (part :: parts, rest)
    | rest => return ([part], rest)

/-- Reads a key: the parts before its last dot, and the last part. -/
def readKey? (text : List Char) : Option (List String × String × List Char) := do
  let (parts, rest) ← readKeyParts? (keyPartLimit - 1) text
  let last ← parts.getLast?
  return (parts.dropLast, last, rest)

end Toml

end SchemaDiagram
