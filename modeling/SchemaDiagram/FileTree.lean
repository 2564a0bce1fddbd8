import SchemaDiagram.OrderedMap
import SchemaDiagram.TextScan

namespace SchemaDiagram

/-- A file that keeps no bytes and stands for something else. -/
inductive Device where
  /-- Empty, and forgets what is written to it. -/
  | null
  /-- Cannot be read to an end, and forgets what is written to it. -/
  | endless
  /-- Cannot be read to an end, and has no room for a single byte. -/
  | full
  /-- Connected to nothing, so that it cannot even be opened. -/
  | disconnected
  | standardInput
  | standardOutput
  | standardError
  deriving DecidableEq, Repr, Inhabited

/-- A place: the names that lead to it from the root. -/
abbrev FilePlace := List String

/-- What stands at a place of the tree. -/
inductive FileNode where
  | file (bytes : ByteArray)
  | directory
  | device (device : Device)
  /-- Stands for whatever stands at the target. -/
  | link (target : FilePlace)
  deriving Inhabited

/-- What stands at each place, and the places below which nothing can be created, changed or removed.
The root is a directory that needs no node. -/
structure FileTree where
  nodes : OrderedMap FilePlace FileNode := .empty
  sealedPlaces : List FilePlace := []
  deriving Inhabited

/-- How far the parts of a path lead without following a link. -/
inductive Walk where
  | arrived (place : FilePlace)
  /-- A link to the target stands before the rest of the path. -/
  | linked (target : FilePlace) (rest : List String)
  | nowhere
  deriving DecidableEq, Repr, Inhabited

def pathParts (path : String) : List String :=
  (splitWhere (· == '/') path.toList).map String.ofList

def isAbsolutePath (path : String) : Bool :=
  path.toList.head? == some '/'

namespace FileTree

def empty : FileTree where

def longestName : Nat := 255

def longestPath : Nat := 4095

def mostLinks : Nat := 40

def isFileName (name : String) : Bool :=
  name.utf8ByteSize ≤ longestName && !name.toList.any (· == Char.ofNat 0)

def isDirectory (tree : FileTree) (place : FilePlace) : Bool :=
  place.isEmpty ||
    match tree.nodes.get? place with
    | some .directory => true
    | _ => false

def isOccupied (tree : FileTree) (place : FilePlace) : Bool :=
  place.isEmpty || tree.nodes.contains place

/-- Whether the place is one that cannot be changed. -/
def isSealed (tree : FileTree) (place : FilePlace) : Bool :=
  tree.sealedPlaces.any (·.isPrefixOf place)

/-- Goes on from a place by the parts of a path, up to the first link. Every place that the path goes on
from has to be a directory. The root is above itself. -/
def walk (tree : FileTree) : FilePlace → List String → Walk
  | place, [] => .arrived place
  | place, part :: rest =>
    if !tree.isDirectory place then .nowhere
    else if part = "" ∨ part = "." then walk tree place rest
    else if part = ".." then walk tree place.dropLast rest
    else if isFileName part then
      match tree.nodes.get? (place ++ [part]) with
      | some (.link target) => .linked target rest
      | _ => walk tree (place ++ [part]) rest
    else .nowhere

/-- Goes on from a place by the parts of a path, following at most so many links. -/
def follow? (tree : FileTree) : Nat → FilePlace → List String → Option FilePlace
  | links, place, parts =>
    match tree.walk place parts with
    | .arrived found => some found
    | .nowhere => none
    | .linked target rest =>
      match links with
      | 0 => none
      | fewer + 1 => follow? tree fewer [] (target ++ rest)

/-- The place that a path leads to, however long it is: from the root if the path is absolute, else from
the directory. -/
def resolve? (tree : FileTree) (directory : FilePlace) (path : String) : Option FilePlace :=
  if path = "" then none
  else tree.follow? mostLinks (if isAbsolutePath path then [] else directory) (pathParts path)

/-- The place that a path leads to for a program that works in the directory. -/
def locate? (tree : FileTree) (directory : FilePlace) (path : String) : Option FilePlace :=
  if path.utf8ByteSize ≤ longestPath then tree.resolve? directory path else none

/-- The number of bytes in the absolute path of a directory, with the slash that ends it. -/
def directoryLength (directory : FilePlace) : Nat :=
  directory.foldr (fun name length => name.utf8ByteSize + 1 + length) 1

/-- The place that a path leads to when it is put behind the absolute path of the directory. -/
def locateInside? (tree : FileTree) (directory : FilePlace) (path : String) : Option FilePlace :=
  if isAbsolutePath path then tree.locate? [] path
  else if directoryLength directory + path.utf8ByteSize ≤ longestPath then
    tree.resolve? directory path
  else none

def read? (tree : FileTree) (place : FilePlace) : Option ByteArray :=
  match tree.nodes.get? place with
  | some (.file bytes) => some bytes
  | some (.device .null) => some .empty
  | _ => none

/-- Writes the file at the place, unless there is a directory. A device takes what it has room for, and
the tree stays as it is. -/
def write? (tree : FileTree) (place : FilePlace) (bytes : ByteArray) : Option FileTree :=
  if tree.isDirectory place then none
  else
    match tree.nodes.get? place with
    | some (.device .full) => if bytes.isEmpty then some tree else none
    | some (.device .disconnected) => none
    | some (.device _) => some tree
    | _ =>
      if tree.isSealed place then none
      else some { tree with nodes := tree.nodes.insert place (.file bytes) }

/-- Removes the file at the place, unless there is a directory. -/
def remove? (tree : FileTree) (place : FilePlace) : Option FileTree :=
  if tree.isDirectory place || tree.isSealed place then none
  else some { tree with nodes := tree.nodes.erase place }

/-- Makes sure that there is a directory at each place that the names lead to from the given one, unless
something else stands there. -/
def createDirectories? (tree : FileTree) (place : FilePlace) : List String → Option FileTree
  | [] => some tree
  | name :: rest =>
    let next := place ++ [name]
    if tree.isDirectory next then createDirectories? tree next rest
    else if tree.nodes.contains next || tree.isSealed next || !isFileName name then none
    else createDirectories? { tree with nodes := tree.nodes.insert next .directory } next rest

/-- Makes sure that there is a directory at the place, and on the way there. -/
def createDirectory? (tree : FileTree) (place : FilePlace) : Option FileTree :=
  if tree.isDirectory place then some tree else tree.createDirectories? [] place

/-- The names of what stands right inside the directory at the place, with the nodes. -/
def children (tree : FileTree) (place : FilePlace) : List (String × FileNode) :=
  tree.nodes.entries.filterMap fun (other, node) =>
    match other.getLast? with
    | some name => if other.dropLast = place then some (name, node) else none
    | none => none

end FileTree

end SchemaDiagram
