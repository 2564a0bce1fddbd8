import SchemaDiagram.JsonNumber
import SchemaDiagram.TextScan

namespace SchemaDiagram

def isJsonSpace (c : Char) : Bool :=
  c == ' ' || c == '\t' || c == '\n' || c == '\r'

def decimalDigit? (c : Char) : Option Nat :=
  if '0' ≤ c ∧ c ≤ '9' then some (c.toNat - 48) else none

def hexDigit? (c : Char) : Option Nat :=
  if '0' ≤ c ∧ c ≤ '9' then some (c.toNat - 48)
  else if 'a' ≤ c ∧ c ≤ 'f' then some (c.toNat - 87)
  else if 'A' ≤ c ∧ c ≤ 'F' then some (c.toNat - 55)
  else none

def hexNumber? : List Char → Option Nat
  | [] => some 0
  | digits => digits.foldlM (fun value c => (hexDigit? c).map fun d => value * 16 + d) 0

def readDigits (text : List Char) : List Nat × List Char :=
  ((text.takeWhile Char.isDigit).filterMap decimalDigit?, text.dropWhile Char.isDigit)

/-- One part of a quoted text: a character, or a code unit given by its number. -/
inductive StringPiece where
  | char (c : Char)
  | unit (n : Nat)
  deriving DecidableEq, Repr, Inhabited

/-- The character that a letter stands for after a backslash. -/
def simpleEscape? (c : Char) : Option Char :=
  if c = '"' ∨ c = '\\' ∨ c = '/' then some c
  else if c = 'b' then some (Char.ofNat 8)
  else if c = 'f' then some (Char.ofNat 12)
  else if c = 'n' then some '\n'
  else if c = 'r' then some '\r'
  else if c = 't' then some '\t'
  else none

/-- Reads a quoted text from behind its opening quote. Control characters have to be escaped. -/
def readPieces : List Char → Option (List StringPiece × List Char)
  | [] => none
  | '"' :: rest => some ([], rest)
  | '\\' :: 'u' :: a :: b :: c :: d :: rest => do
    let n ← hexNumber? [a, b, c, d]
    let (pieces, rest) ← readPieces rest
    return (.unit n :: pieces, rest)
  | '\\' :: c :: rest => do
    let escaped ← simpleEscape? c
    let (pieces, rest) ← readPieces rest
    return (.char escaped :: pieces, rest)
  | c :: rest =>
    if c.toNat < 32 then none
    else do
      let (pieces, rest) ← readPieces rest
      return (.char c :: pieces, rest)

def isHighSurrogate (n : Nat) : Bool := 0xD800 ≤ n && n < 0xDC00

def isLowSurrogate (n : Nat) : Bool := 0xDC00 ≤ n && n < 0xE000

/-- The text of the pieces, unless half a pair of code units is left over. -/
def joinPieces? : List StringPiece → Option (List Char)
  | [] => some []
  | .char c :: rest => (joinPieces? rest).map (c :: ·)
  | .unit high :: .unit low :: rest =>
    if isHighSurrogate high && isLowSurrogate low then
      (joinPieces? rest).map
        (Char.ofNat (0x10000 + (high - 0xD800) * 0x400 + (low - 0xDC00)) :: ·)
    else if isHighSurrogate high || isLowSurrogate high then none
    else (joinPieces? (.unit low :: rest)).map (Char.ofNat high :: ·)
  | .unit n :: rest =>
    if isHighSurrogate n || isLowSurrogate n then none
    else (joinPieces? rest).map (Char.ofNat n :: ·)

def readFraction? : List Char → Option (Option (List Nat) × List Char)
  | '.' :: rest =>
    match readDigits rest with
    | ([], _) => none
    | (digits, rest) => some (some digits, rest)
  | text => some (none, text)

def readExponentDigits? (isDown : Bool) (text : List Char) :
    Option (Option (Bool × List Nat) × List Char) :=
  match readDigits text with
  | ([], _) => none
  | (digits, rest) => some (some (isDown, digits), rest)

def readExponent? : List Char → Option (Option (Bool × List Nat) × List Char)
  | [] => some (none, [])
  | mark :: rest =>
    if mark = 'e' ∨ mark = 'E' then
      match rest with
      | '+' :: digits => readExponentDigits? false digits
      | '-' :: digits => readExponentDigits? true digits
      | digits => readExponentDigits? false digits
    else some (none, mark :: rest)

/-- Reads a number. No zero may stand before another digit. -/
def readNumber? (text : List Char) : Option (NumberLiteral × List Char) := do
  let (isNegative, text) := match text with
    | '-' :: rest => (true, rest)
    | text => (false, text)
  let (whole, text) := readDigits text
  if whole = [] ∨ (whole.head? = some 0 ∧ 1 < whole.length) then none
  else
    let (fraction, text) ← readFraction? text
    let (exponent, text) ← readExponent? text
    return ({ isNegative, whole, fraction, exponent }, text)

namespace Json

def ofPieces (pieces : List StringPiece) : Json :=
  match joinPieces? pieces with
  | some text => .string (String.ofList text)
  | none => .unrepresentable

def named? : List (List StringPiece × Json) → Option (List (String × Json))
  | [] => some []
  | (pieces, value) :: rest => do
    let name ← joinPieces? pieces
    let members ← named? rest
    return (String.ofList name, value) :: members

/-- An object is as good as its names. -/
def ofMembers (members : List (List StringPiece × Json)) : Json :=
  match named? members with
  | some members => .object members
  | none => .unrepresentable

mutual

/-- Reads a value and gives the text after it. The number bounds the depth of the recursion. -/
def readValue : Nat → List Char → Option (Json × List Char)
  | 0, _ => none
  | fuel + 1, text =>
    match text.dropWhile isJsonSpace with
    | 'n' :: 'u' :: 'l' :: 'l' :: rest => some (.null, rest)
    | 't' :: 'r' :: 'u' :: 'e' :: rest => some (.bool true, rest)
    | 'f' :: 'a' :: 'l' :: 's' :: 'e' :: rest => some (.bool false, rest)
    | '"' :: rest => do
      let (pieces, rest) ← readPieces rest
      return (ofPieces pieces, rest)
    | '[' :: rest =>
      match rest.dropWhile isJsonSpace with
      | ']' :: rest => some (.array [], rest)
      | rest => do
        let (items, rest) ← readItems fuel rest
        return (.array items, rest)
    | '{' :: rest =>
      match rest.dropWhile isJsonSpace with
      | '}' :: rest => some (.object [], rest)
      | rest => do
        let (members, rest) ← readMembers fuel rest
        return (ofMembers members, rest)
    | text => do
      let (number, rest) ← readNumber? text
      return (number.value, rest)

/-- Reads the items of an array, of which there is at least one, and its end. -/
def readItems : Nat → List Char → Option (List Json × List Char)
  | 0, _ => none
  | fuel + 1, text => do
    let (item, rest) ← readValue fuel text
    match rest.dropWhile isJsonSpace with
    | ']' :: rest => return ([item], rest)
    | ',' :: rest =>
      let (items, rest) ← readItems fuel rest
      return (item :: items, rest)
    | _ => none

/-- Reads the members of an object, of which there is at least one, and its end. They are kept in the order,
and as often, as they are written. -/
def readMembers : Nat → List Char → Option (List (List StringPiece × Json) × List Char)
  | 0, _ => none
  | fuel + 1, text =>
    match text.dropWhile isJsonSpace with
    | '"' :: rest => do
      let (name, rest) ← readPieces rest
      match rest.dropWhile isJsonSpace with
      | ':' :: rest =>
        let (value, rest) ← readValue fuel rest
        match rest.dropWhile isJsonSpace with
        | '}' :: rest => return ([(name, value)], rest)
        | ',' :: rest =>
          let (members, rest) ← readMembers fuel rest
          return ((name, value) :: members, rest)
        | _ => none
      | _ => none
    | _ => none

end

/-- The value that a text is written for, if it is one value and nothing else. -/
def ofString? (s : String) : Option Json :=
  let text := s.toList
  match readValue (text.length + 1) text with
  | some (value, rest) => if rest.all isJsonSpace then some value else none
  | none => none

end Json

end SchemaDiagram
