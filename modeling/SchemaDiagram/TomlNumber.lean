import SchemaDiagram.Toml
import SchemaDiagram.TomlText

namespace SchemaDiagram

namespace Toml

def moreDigits? (digit? : Char → Option Nat) : List Char → Option (List Nat × List Char)
  | [] => some ([], [])
  | '_' :: c :: rest => do
    let digit ← digit? c
    let (digits, rest) ← moreDigits? digit? rest
    return (digit :: digits, rest)
  | c :: rest =>
    if c = '_' then none
    else match digit? c with
      | none => some ([], c :: rest)
      | some digit => (moreDigits? digit? rest).map fun (digits, rest) => (digit :: digits, rest)

def someDigits? (digit? : Char → Option Nat) : List Char → Option (List Nat × List Char)
  | [] => none
  | c :: rest => do
    let digit ← digit? c
    let (digits, rest) ← moreDigits? digit? rest
    return (digit :: digits, rest)

def ofBase (base : Nat) (digits : List Nat) : Nat :=
  digits.foldl (fun value digit => value * base + digit) 0

def digitBelow? (base : Nat) (c : Char) : Option Nat :=
  (hexDigit? c).filter (· < base)

/-- The text after a sign, and whether the sign is a minus. -/
def readSign : List Char → Bool × List Char
  | '-' :: rest => (true, rest)
  | '+' :: rest => (false, rest)
  | text => (false, text)

def readWhole? : List Char → Option (List Nat × List Char)
  | '0' :: rest => some ([0], rest)
  | text => someDigits? decimalDigit? text

/-- The number, if it fits into sixty-four bits with a sign. -/
def integerItem? (n : Int) : Option TomlItem :=
  if -Int.pow 2 63 ≤ n ∧ n < Int.pow 2 63 then some (.integer n) else none

def readExponent? (text : List Char) : Option (Int × List Char) := do
  let (isDown, text) := readSign text
  let (digits, rest) ← someDigits? decimalDigit? text
  let n : Int := ofBase 10 digits
  return (if isDown then -n else n, rest)

def optionalExponent? : List Char → Option (Int × List Char)
  | [] => some (0, [])
  | c :: rest => if c = 'e' ∨ c = 'E' then readExponent? rest else some (0, c :: rest)

/-- The double nearest to digits times a power of ten. Positive infinity is refused. -/
def floatItem? (isNegative : Bool) (digits : List Nat) (exponent : Int) : Option TomlItem :=
  let f := Float.ofScientific (ofBase 10 digits) (exponent < 0) exponent.natAbs
  if isNegative then some (.float (-f))
  else if f.isInf then none
  else some (.float f)

/-- Reads what follows the digits before the point: a fraction, an exponent, both or nothing. -/
def readDecimal? (isNegative : Bool) (whole : List Nat) (text : List Char) :
    Option (TomlItem × List Char) :=
  match text with
  | '.' :: rest => do
    let (fraction, rest) ← someDigits? decimalDigit? rest
    let (exponent, rest) ← optionalExponent? rest
    let item ← floatItem? isNegative (whole ++ fraction) (exponent - fraction.length)
    return (item, rest)
  | c :: rest =>
    if c = 'e' ∨ c = 'E' then do
      let (exponent, rest) ← readExponent? rest
      let item ← floatItem? isNegative whole exponent
      return (item, rest)
    else do
      let n : Int := ofBase 10 whole
      return (← integerItem? (if isNegative then -n else n), c :: rest)
  | [] => do
    let n : Int := ofBase 10 whole
    return (← integerItem? (if isNegative then -n else n), [])

/-- Reads a whole number in a base other than ten, from behind the mark of the base. -/
def readBased? (base : Nat) (text : List Char) : Option (TomlItem × List Char) := do
  let (digits, rest) ← someDigits? (digitBelow? base) text
  return (← integerItem? (ofBase base digits), rest)

def readNumber? (text : List Char) : Option (TomlItem × List Char) :=
  match text with
  | '0' :: 'x' :: rest => readBased? 16 rest
  | '0' :: 'o' :: rest => readBased? 8 rest
  | '0' :: 'b' :: rest => readBased? 2 rest
  | text =>
    match readSign text with
    | (isNegative, 'i' :: 'n' :: 'f' :: rest) =>
      let f : Float := Float.ofBits 0x7FF0000000000000
      some (.float (if isNegative then -f else f), rest)
    | (_, 'n' :: 'a' :: 'n' :: rest) => some (.float (Float.ofBits 0x7FF8000000000000), rest)
    | (isNegative, text) => do
      let (whole, rest) ← readWhole? text
      readDecimal? isNegative whole rest

def fixedDigits? : Nat → List Char → Option (List Nat × List Char)
  | 0, text => some ([], text)
  | _ + 1, [] => none
  | count + 1, c :: rest => do
    let digit ← decimalDigit? c
    let (digits, rest) ← fixedDigits? count rest
    return (digit :: digits, rest)

/-- Reads a number of so many digits that lies between two bounds. -/
def boundedNumber? (count low high : Nat) (text : List Char) : Option (Nat × List Char) := do
  let (digits, rest) ← fixedDigits? count text
  let n := ofBase 10 digits
  if low ≤ n ∧ n ≤ high then some (n, rest) else none

def skipMark? (mark : Char) : List Char → Option (List Char)
  | [] => none
  | c :: rest => if c = mark then some rest else none

def isLeapYear (year : Nat) : Bool :=
  year % 4 = 0 && (year % 100 ≠ 0 || year % 400 = 0)

def daysInMonth (year month : Nat) : Nat :=
  if month = 2 then if isLeapYear year then 29 else 28
  else if month = 4 ∨ month = 6 ∨ month = 9 ∨ month = 11 then 30
  else 31

def skipDate? (text : List Char) : Option (List Char) := do
  let (year, text) ← boundedNumber? 4 0 9999 text
  let (month, text) ← boundedNumber? 2 1 12 (← skipMark? '-' text)
  let (_, text) ← boundedNumber? 2 1 (daysInMonth year month) (← skipMark? '-' text)
  return text

/-- Reads a time of day, to the second or finer. A minute may have a leap second. -/
def skipTime? (text : List Char) : Option (List Char) := do
  let (_, text) ← boundedNumber? 2 0 23 text
  let (_, text) ← boundedNumber? 2 0 59 (← skipMark? ':' text)
  let (_, text) ← boundedNumber? 2 0 60 (← skipMark? ':' text)
  match text with
  | '.' :: rest =>
    match rest.takeWhile Char.isDigit with
    | [] => none
    | _ => some (rest.dropWhile Char.isDigit)
  | text => some text

def skipOffset? : List Char → Option (List Char)
  | [] => some []
  | c :: rest =>
    if c = 'Z' ∨ c = 'z' then some rest
    else if c = '+' ∨ c = '-' then do
      let (_, text) ← boundedNumber? 2 0 23 rest
      let (_, text) ← boundedNumber? 2 0 59 (← skipMark? ':' text)
      return text
    else some (c :: rest)

def skipDatetime? (text : List Char) : Option (List Char) :=
  match skipDate? text with
  | none => skipTime? text
  | some [] => some []
  | some (c :: rest) =>
    if c = 'T' ∨ c = 't' ∨ c = ' ' then
      match skipTime? rest with
      | none => some (c :: rest)
      | some rest => skipOffset? rest
    else some (c :: rest)

def readNumeric? (text : List Char) : Option (TomlItem × List Char) :=
  match skipDatetime? text with
  | some rest => some (.datetime, rest)
  | none => readNumber? text

end Toml

end SchemaDiagram
