import SchemaDiagram.CharacterClass

namespace SchemaDiagram

def trimStart (text : List Char) : List Char :=
  text.dropWhile isBlank

def trimEnd (text : List Char) : List Char :=
  (text.reverse.dropWhile isBlank).reverse

def trim (text : List Char) : List Char :=
  trimEnd (trimStart text)

/-- The pieces between the elements that satisfy the condition; those elements are dropped. -/
def splitWhere {α : Type} (cut : α → Bool) : List α → List (List α)
  | [] => [[]]
  | x :: rest =>
    if cut x then [] :: splitWhere cut rest
    else match splitWhere cut rest with
      | [] => [[x]]
      | piece :: pieces => (x :: piece) :: pieces

theorem splitWhere_of_forall {α : Type} {cut : α → Bool} {xs : List α} (h : ∀ x ∈ xs, cut x = false) :
    splitWhere cut xs = [xs] := by
  induction xs with
  | nil => rfl
  | cons x rest ih =>
    obtain ⟨hx, hrest⟩ := List.forall_mem_cons.mp h
    simp [splitWhere, hx, ih hrest]

/-- What stands before the first occurrence of the character and what stands after it. -/
def splitAtFirst? (mark : Char) : List Char → Option (List Char × List Char)
  | [] => none
  | c :: rest =>
    if c = mark then some ([], rest)
    else (splitAtFirst? mark rest).map fun (before, after) => (c :: before, after)

/-- The text up to its first line feed, less the carriage return that may stand right before it. -/
def firstLine (text : List Char) : List Char :=
  let line := text.takeWhile (· != '\n')
  if line.getLast? = some '\r' then line.dropLast else line

/-- What the reader finds at the earliest place of the text at which it finds anything. -/
def firstReading? {α : Type} (read : List Char → Option α) : List Char → Option α
  | [] => read []
  | c :: rest =>
    match read (c :: rest) with
    | some found => some found
    | none => firstReading? read rest

/-- Whether the word stands somewhere in the text. -/
def hasInfix (word text : List Char) : Bool :=
  (firstReading? (fun rest => if word.isPrefixOf rest then some () else none) text).isSome

/-- The number of bytes that the text takes up when encoded. -/
def byteLength (text : List Char) : Nat :=
  text.foldr (fun c length => c.utf8Size + length) 0

/-- The text from the given number of bytes on, unless that lies beyond the end or inside a
character. -/
def dropBytes? : Nat → List Char → Option (List Char)
  | 0, text => some text
  | _ + 1, [] => none
  | count, c :: rest =>
    if c.utf8Size ≤ count then dropBytes? (count - c.utf8Size) rest else none

/-- The first so many bytes of the text, unless that lies beyond the end or inside a character. -/
def takeBytes? : Nat → List Char → Option (List Char)
  | 0, _ => some []
  | _ + 1, [] => none
  | count, c :: rest =>
    if c.utf8Size ≤ count then (takeBytes? (count - c.utf8Size) rest).map (c :: ·) else none

/-- The bytes of the text from one offset to another. -/
def byteSlice? (text : List Char) (start stop : Nat) : Option (List Char) :=
  if start ≤ stop then (dropBytes? start text).bind (takeBytes? (stop - start)) else none

end SchemaDiagram
