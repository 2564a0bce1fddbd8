import SchemaDiagram.EditorSettings
import SchemaDiagram.TomlReader

namespace SchemaDiagram

/-- Why settings cannot be had. -/
inductive SettingsError where
  /-- The file cannot be read as text. -/
  | io
  /-- The text is not TOML, or a setting has a value of the wrong kind. -/
  | toml
  deriving DecidableEq, Repr, Inhabited

namespace TomlItem

def natural? : TomlItem → Option Nat
  | .integer n => if 0 ≤ n then some n.toNat else none
  | _ => none

def float? : TomlItem → Option Float
  | .integer n => some (Float.ofInt n)
  | .float f => some f
  | _ => none

def text? : TomlItem → Option String
  | .string s => some s
  | _ => none

end TomlItem

def TomlEntries.setting? {α : Type} (entries : TomlEntries) (key : String)
    (read? : TomlItem → Option α) (standard : α) : Option α :=
  match lookupEntry key entries with
  | none => some standard
  | some item => read? item

def itemSetting? (items : List TomlItem) (index : Nat) (standard : Float) : Option Float :=
  match items[index]? with
  | none => some standard
  | some item => item.float?

namespace Grid

/-- The grid that a table describes. -/
def ofEntries? (entries : TomlEntries) : Option (Grid Float) := do
  let standard : Grid Float := Grid.standard
  return {
    originX := ← entries.setting? "origin_x" TomlItem.float? standard.originX
    originY := ← entries.setting? "origin_y" TomlItem.float? standard.originY
    cell := ← entries.setting? "cell" TomlItem.float? standard.cell
    wrapX := ← entries.setting? "wrap_x" TomlItem.float? standard.wrapX }

/-- The grid that is given as a table, or as an array of its numbers in order. A date gives none of
them. -/
def ofItem? : TomlItem → Option (Grid Float)
  | .table _ entries => ofEntries? entries
  | .inlineTable entries => ofEntries? entries
  | .datetime => some Grid.standard
  | .array items => do
    let standard : Grid Float := Grid.standard
    return {
      originX := ← itemSetting? items 0 standard.originX
      originY := ← itemSetting? items 1 standard.originY
      cell := ← itemSetting? items 2 standard.cell
      wrapX := ← itemSetting? items 3 standard.wrapX }
  | _ => none

end Grid

namespace EditorSettings

def ofEntries? (entries : TomlEntries) : Option EditorSettings := do
  return {
    debounceMs := ← entries.setting? "debounce_ms" TomlItem.natural? standard.debounceMs
    historyCapacity :=
      ← entries.setting? "history_capacity" TomlItem.natural? standard.historyCapacity
    grid := ← entries.setting? "grid" Grid.ofItem? standard.grid
    resetPadding := ← entries.setting? "reset_padding" TomlItem.float? standard.resetPadding
    diagramKey := ← entries.setting? "diagram_key" TomlItem.text? standard.diagramKey
    locksKey := ← entries.setting? "locks_key" TomlItem.text? standard.locksKey }

/-- The settings that a document gives. What it does not mention keeps its standard value, and what it
mentions beyond the settings is passed over. -/
def ofToml (text : String) : Except SettingsError EditorSettings :=
  match (Toml.ofString? text).bind ofEntries? with
  | some settings => .ok settings
  | none => .error .toml

/-- The settings that the bytes of a file describe, if there is such a file. -/
def ofFile (bytes : Option ByteArray) : Except SettingsError EditorSettings :=
  match bytes.bind String.fromUTF8? with
  | some text => ofToml text
  | none => .error .io

end EditorSettings

end SchemaDiagram
