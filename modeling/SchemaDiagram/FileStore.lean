import SchemaDiagram.FileTree
import SchemaDiagram.JsonReader
import SchemaDiagram.Store

namespace SchemaDiagram

/-- A store that keeps each value in a file of its own, as JSON text: the file tree, the directory of the
store in it, and how the names of its files begin. -/
structure FileStore where
  tree : FileTree
  directory : FilePlace
  nameStart : String
  deriving Inhabited

namespace FileStore

def standardNameStart : String := "dbdiagram_"

def fileName (store : FileStore) (key : String) : String := store.nameStart ++ key ++ ".json"

def place? (store : FileStore) (key : String) : Option FilePlace :=
  store.tree.locateInside? store.directory (store.fileName key)

def occupiedPlace? (store : FileStore) (key : String) : Option FilePlace :=
  (store.place? key).filter store.tree.isOccupied

def readValue (bytes : ByteArray) : Except StorageError Json :=
  match String.fromUTF8? bytes with
  | none => .error .io
  | some text =>
    match (Json.ofString? text).bind Json.storable? with
    | none => .error .json
    | some value => .ok value

def load (store : FileStore) (key : String) : Except StorageError (Option Json) :=
  match store.occupiedPlace? key with
  | none => .ok none
  | some place =>
    match store.tree.read? place with
    | none => .error .io
    | some bytes => (readValue bytes).map some

/-- The tree after writing the text of a value. The directory is created if need be. -/
def written? (store : FileStore) (key : String) (value : Json) : Option FileTree := do
  let tree ← store.tree.createDirectory? store.directory
  let place ← tree.locateInside? store.directory (store.fileName key)
  tree.write? place value.compact.toUTF8

/-- Keeps a value under the key. The directory exists from then on, even if the file cannot be
written. -/
def save (store : FileStore) (key : String) (value : Json) : FileStore × Except StorageError Unit :=
  match store.written? key value with
  | some tree => ({ store with tree }, .ok ())
  | none =>
    ({ store with tree := (store.tree.createDirectory? store.directory).getD store.tree },
      .error .io)

def remove (store : FileStore) (key : String) : FileStore × Except StorageError Unit :=
  match store.occupiedPlace? key with
  | none => (store, .ok ())
  | some place =>
    match store.tree.remove? place with
    | some tree => ({ store with tree }, .ok ())
    | none => (store, .error .io)

/-- Removes the files at the places one after the other, up to the first that cannot be removed. -/
def removeAll (tree : FileTree) : List FilePlace → FileTree × Except StorageError Unit
  | [] => (tree, .ok ())
  | place :: rest =>
    match tree.remove? place with
    | some tree => removeAll tree rest
    | none => (tree, .error .io)

/-- Whether a name begins as the names of the store's files do. -/
def isOwnName (store : FileStore) (name : String) : Bool :=
  store.nameStart.toList.isPrefixOf name.toList

/-- The places of everything in the directory whose name begins as the store's files do. -/
def ownPlaces (store : FileStore) : List FilePlace :=
  ((store.tree.children store.directory).filter fun child => store.isOwnName child.1).map
    fun child => store.directory ++ [child.1]

/-- Removes everything whose name begins as the store's files do. A directory that is not there has no
such things, but something else in its place cannot be looked into. -/
def clear (store : FileStore) : FileStore × Except StorageError Unit :=
  if store.tree.isDirectory store.directory then
    let (tree, result) := removeAll store.tree store.ownPlaces
    ({ store with tree }, result)
  else if store.tree.isOccupied store.directory then (store, .error .io)
  else (store, .ok ())

instance : KeyValueStore FileStore where
  load := load
  save := save
  remove := remove

end FileStore

end SchemaDiagram
