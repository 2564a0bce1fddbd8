import SchemaDiagram.Json
import SchemaDiagram.OrderedMap

namespace SchemaDiagram

/-- Why a store does not do what it is asked to. -/
inductive StorageError where
  /-- The file system refused. -/
  | io
  /-- What is stored is not JSON, or not of the expected form. -/
  | json
  | unavailable
  | browser (reason : String)
  deriving DecidableEq, Repr, Inhabited

/-- The text that a refusal is shown with. The refusals of the file system and of the reader of JSON have
details that are not told here. -/
def StorageError.message : StorageError → String
  | .io => "Storage I/O error"
  | .json => "Stored value is not valid JSON"
  | .unavailable => "Browser storage is unavailable"
  | .browser reason => s!"Browser storage error: {reason}"

/-- A state of type `σ` that keeps values under keys. -/
class KeyValueStore (σ : Type) where
  /-- The value under the key, if there is one. -/
  load : σ → String → Except StorageError (Option Json)
  /-- Keeps a value under the key. -/
  save : σ → String → Json → σ × Except StorageError Unit
  /-- Forgets the value under the key, if there is one. -/
  remove : σ → String → σ × Except StorageError Unit

/-- A store that keeps its values in memory and never refuses. -/
structure MemoryStore where
  values : OrderedMap String Json := .empty
  deriving Inhabited

namespace MemoryStore

def empty : MemoryStore where

def load (store : MemoryStore) (key : String) : Option Json := store.values.get? key

def save (store : MemoryStore) (key : String) (value : Json) : MemoryStore :=
  { store with values := store.values.insert key value }

def remove (store : MemoryStore) (key : String) : MemoryStore :=
  { store with values := store.values.erase key }

@[simp] theorem load_empty (key : String) : empty.load key = none := rfl

theorem load_save (store : MemoryStore) (key other : String) (value : Json) :
    (store.save key value).load other = if key = other then some value else store.load other :=
  OrderedMap.get?_insert store.values key other value

theorem load_remove (store : MemoryStore) (key other : String) :
    (store.remove key).load other = if key = other then none else store.load other :=
  OrderedMap.get?_erase store.values key other

instance : KeyValueStore MemoryStore where
  load store key := .ok (store.load key)
  save store key value := (store.save key value, .ok ())
  remove store key := (store.remove key, .ok ())

end MemoryStore

/-- A store in memory that can be told to refuse to load or to save. -/
structure UnreliableStore where
  memory : MemoryStore := .empty
  loadError : Option StorageError := none
  saveError : Option StorageError := none
  deriving Inhabited

instance : KeyValueStore UnreliableStore where
  load store key :=
    match store.loadError with
    | some error => .error error
    | none => .ok (store.memory.load key)
  save store key value :=
    match store.saveError with
    | some error => (store, .error error)
    | none => ({ store with memory := store.memory.save key value }, .ok ())
  remove store key := ({ store with memory := store.memory.remove key }, .ok ())

end SchemaDiagram
