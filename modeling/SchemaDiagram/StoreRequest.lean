import SchemaDiagram.FileStore

namespace SchemaDiagram

/-- A store that can be told to forget all that it keeps. -/
class ClearableStore (σ : Type) extends KeyValueStore σ where
  clear : σ → σ × Except StorageError Unit

instance : ClearableStore FileStore where
  clear := FileStore.clear

instance : ClearableStore MemoryStore where
  clear _ := (.empty, .ok ())

inductive StoreRequest where
  | save (key : String) (value : Json)
  | load (key : String)
  | remove (key : String)
  | clear
  deriving Inhabited

/-- What a store makes of a request. -/
inductive StoreReply where
  | done (result : Except StorageError Unit)
  | found (result : Except StorageError (Option Json))
  deriving Inhabited

namespace StoreRequest

/-- The key that the request is about, if it is about one. -/
def key? : StoreRequest → Option String
  | save key _ => some key
  | load key => some key
  | remove key => some key
  | clear => none

variable {σ : Type} [ClearableStore σ]

def perform (store : σ) : StoreRequest → σ × StoreReply
  | save key value =>
    let (store, result) := KeyValueStore.save store key value
    (store, .done result)
  | load key => (store, .found (KeyValueStore.load store key))
  | remove key =>
    let (store, result) := KeyValueStore.remove store key
    (store, .done result)
  | clear =>
    let (store, result) := ClearableStore.clear store
    (store, .done result)

/-- The store after the requests, one after the other. -/
def performAll (store : σ) : List StoreRequest → σ
  | [] => store
  | request :: rest => performAll (request.perform store).1 rest

/-- The replies to the requests, one after the other. -/
def replies (store : σ) : List StoreRequest → List StoreReply
  | [] => []
  | request :: rest => (request.perform store).2 :: replies (request.perform store).1 rest

end StoreRequest

end SchemaDiagram
