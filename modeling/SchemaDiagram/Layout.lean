import SchemaDiagram.Positions

namespace SchemaDiagram

variable {κ : Type}

/-- The grid for tables without a position. A row ends once its next place lies beyond `wrapX`. -/
structure Grid (κ : Type) where
  originX : κ
  originY : κ
  cell : κ
  wrapX : κ
  deriving Repr, Inhabited

namespace Grid

/-- The grid that is used unless the settings say otherwise. -/
def standard [NatCast κ] : Grid κ where
  originX := ((50 : Nat) : κ)
  originY := ((50 : Nat) : κ)
  cell := ((300 : Nat) : κ)
  wrapX := ((900 : Nat) : κ)

def origin (grid : Grid κ) : Position κ := ⟨grid.originX, grid.originY⟩

/-- The place after a place: one cell to the right, or the start of the next row. -/
def next [Add κ] [LT κ] [DecidableLT κ] (grid : Grid κ) (place : Position κ) : Position κ :=
  if grid.wrapX < place.x + grid.cell then ⟨grid.originX, place.y + grid.cell⟩
  else ⟨place.x + grid.cell, place.y⟩

end Grid

/-- The sizes that the height of a drawn table is estimated from. -/
structure TextMetrics (κ : Type) where
  lineHeight : κ
  headerPadding : κ
  bodyPadding : κ
  minTableHeight : κ
  deriving Repr, Inhabited

namespace TextMetrics

def standard [NatCast κ] : TextMetrics κ where
  lineHeight := ((20 : Nat) : κ)
  headerPadding := ((4 : Nat) : κ)
  bodyPadding := ((8 : Nat) : κ)
  minTableHeight := ((60 : Nat) : κ)

/-- The larger of two coordinates, and of two equal ones the second: equal coordinates can still differ
in the sign of zero. What does not equal itself is no number and gives way to the other one. -/
def larger [BEq κ] [LT κ] [DecidableLT κ] (a b : κ) : κ :=
  if b == b then if b < a then a else b else a

def bodyHeight [NatCast κ] [Add κ] [Mul κ] (metrics : TextMetrics κ) (rows : Nat) : κ :=
  if rows = 0 then ((0 : Nat) : κ)
  else (rows : κ) * metrics.lineHeight + metrics.bodyPadding * ((2 : Nat) : κ)

/-- The height of a table: its header and one line a field, but never less than the least height. -/
def tableHeight [NatCast κ] [Add κ] [Mul κ] [BEq κ] [LT κ] [DecidableLT κ]
    (metrics : TextMetrics κ) (table : Table) : κ :=
  larger
    (metrics.lineHeight + metrics.headerPadding * ((2 : Nat) : κ)
      + metrics.bodyHeight table.length)
    metrics.minTableHeight

end TextMetrics

namespace Positions

/-- Gives each of the named tables that has no position the next place of the grid. -/
def placeFrom [Add κ] [LT κ] [DecidableLT κ] (grid : Grid κ) :
    List String → Position κ → Positions κ → Positions κ
  | [], _, positions => positions
  | name :: rest, place, positions =>
    if positions.contains name then placeFrom grid rest place positions
    else placeFrom grid rest (grid.next place) (positions.insert name place)

/-- Gives each table of the schema that has no position a place on the grid, in order. -/
def placeNew [Add κ] [LT κ] [DecidableLT κ] (positions : Positions κ) (schema : Schema)
    (grid : Grid κ) : Positions κ :=
  placeFrom grid schema.tableNames grid.origin positions

variable [NatCast κ] [Add κ] [Mul κ] [BEq κ] [LT κ] [DecidableLT κ]

def stackFrom (metrics : TextMetrics κ) (padding : κ) :
    List (String × Table) → κ → Positions κ → Positions κ × Bool
  | [], _, positions => (positions, false)
  | (name, table) :: rest, y, positions =>
    let (positions, changed) := positions.set name ⟨padding, y⟩
    let (positions, more) :=
      stackFrom metrics padding rest (y + (metrics.tableHeight table + padding)) positions
    (positions, changed || more)

/-- Stacks all tables of the schema in one column, and tells whether that changed anything. -/
def stackVertically (positions : Positions κ) (schema : Schema) (metrics : TextMetrics κ)
    (padding : κ) : Positions κ × Bool :=
  stackFrom metrics padding schema.tables.entries padding positions

end Positions

end SchemaDiagram
