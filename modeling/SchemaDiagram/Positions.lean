import SchemaDiagram.Schema

namespace SchemaDiagram

instance natCastFloat : NatCast Float := ⟨Float.ofNat⟩

/-- The upper left corner of a table. -/
structure Position (κ : Type) where
  x : κ
  y : κ
  deriving Repr, Inhabited, DecidableEq

namespace Position

variable {κ : Type}

instance [BEq κ] : BEq (Position κ) where
  beq p q := p.x == q.x && p.y == q.y

def offset [Add κ] (p shift : Position κ) : Position κ := ⟨p.x + shift.x, p.y + shift.y⟩

end Position

/-- A position for each table name. Positions do not depend on the schema: a table that disappears keeps its
position, and takes it again when it comes back. -/
abbrev Positions (κ : Type) := OrderedMap String (Position κ)

namespace Positions

variable {κ : Type}

/-- Gives a table a position, and tells whether that changed anything. A position that compares equal
to the old one is not stored. -/
def set [BEq κ] (positions : Positions κ) (name : String) (position : Position κ) :
    Positions κ × Bool :=
  if positions.get? name == some position then (positions, false)
  else (positions.insert name position, true)

/-- Shifts the tables that are named and have a position, and tells whether that changed anything. -/
def translate [BEq κ] [Add κ] (shift : Position κ) :
    List String → Positions κ → Positions κ × Bool
  | [], positions => (positions, false)
  | name :: rest, positions =>
    match positions.get? name with
    | none => translate shift rest positions
    | some position =>
      let (positions, changed) := positions.set name (position.offset shift)
      let (positions, more) := translate shift rest positions
      (positions, changed || more)

end Positions

end SchemaDiagram
