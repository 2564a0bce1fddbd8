import Mathlib.Data.List.Infix
import SchemaDiagram.FileTree
import SchemaDiagram.Proofs.FirstFields

namespace SchemaDiagram

theorem pathParts_of_not_mem {name : String} (h : '/' ∉ name.toList) : pathParts name = [name] := by
  have hcut : ∀ c ∈ name.toList, (c == '/') = false := by
    intro c hc
    rw [beq_eq_false_iff_ne]
    rintro rfl
    exact h hc
  rw [pathParts, splitWhere_of_forall hcut, List.map_singleton, String.ofList_toList]

theorem isAbsolutePath_of_not_mem {name : String} (h : '/' ∉ name.toList) :
    isAbsolutePath name = false := by
  unfold isAbsolutePath
  cases hname : name.toList with
  | nil => rfl
  | cons c rest =>
    rw [hname] at h
    have hc : c ≠ '/' := fun he => h (he ▸ List.mem_cons_self)
    simpa using hc

namespace FileTree

/-- Whether the file system has room for the name in the directory. -/
def hasRoom (directory : FilePlace) (name : String) : Bool :=
  directoryLength directory + name.utf8ByteSize ≤ longestPath && isFileName name

theorem isDirectory_congr {tree other : FileTree} {place : FilePlace}
    (h : tree.nodes.get? place = other.nodes.get? place) :
    tree.isDirectory place = other.isDirectory place := by
  rw [isDirectory, isDirectory, h]

theorem isSealed_congr {tree other : FileTree} (h : tree.sealedPlaces = other.sealedPlaces)
    (place : FilePlace) : tree.isSealed place = other.isSealed place := by
  rw [isSealed, isSealed, h]

theorem isOccupied_of_isDirectory {tree : FileTree} {place : FilePlace}
    (h : tree.isDirectory place = true) : tree.isOccupied place = true := by
  unfold isDirectory at h
  unfold isOccupied OrderedMap.contains
  cases hnode : tree.nodes.get? place with
  | none => simpa [hnode] using h
  | some node => simp

/-- A bare name leads into the directory, if this is one and has room for the name. -/
theorem locateInside?_of_name {tree : FileTree} {directory : FilePlace} {name : String}
    (hslash : '/' ∉ name.toList) (hword : name ∉ ["", ".", ".."])
    (hlink : ∀ target, tree.nodes.get? (directory ++ [name]) ≠ some (.link target)) :
    tree.locateInside? directory name =
      if tree.isDirectory directory && hasRoom directory name then some (directory ++ [name])
      else none := by
  obtain ⟨hempty, hdot, hdots⟩ : name ≠ "" ∧ name ≠ "." ∧ name ≠ ".." := by simpa using hword
  have habsolute := isAbsolutePath_of_not_mem hslash
  have hwalk : tree.walk directory [name] =
      if tree.isDirectory directory && isFileName name then .arrived (directory ++ [name])
      else .nowhere := by
    have hname : ¬ (name = "" ∨ name = ".") := by simp [hempty, hdot]
    cases hd : tree.isDirectory directory with
    | false => simp [walk, hd]
    | true =>
      rw [walk, hd, if_neg (by simp), if_neg hname, if_neg hdots]
      cases hf : isFileName name with
      | false => rfl
      | true =>
        rw [if_pos rfl, if_pos (by rfl)]
        split
        next target hnode => exact absurd hnode (hlink target)
        next => rfl
  have hfollow : tree.follow? mostLinks directory [name] =
      if tree.isDirectory directory && isFileName name then some (directory ++ [name]) else none := by
    rw [mostLinks, follow?, hwalk]
    cases tree.isDirectory directory && isFileName name <;> rfl
  rw [locateInside?, habsolute, if_neg Bool.false_ne_true, resolve?, if_neg hempty, habsolute,
    if_neg Bool.false_ne_true, pathParts_of_not_mem hslash, hfollow, hasRoom]
  by_cases hlength : directoryLength directory + name.utf8ByteSize ≤ longestPath <;> simp [hlength]

theorem createDirectories?_spec {tree next : FileTree} {place : FilePlace} {names : List String}
    (hplace : tree.isDirectory place = true) (h : tree.createDirectories? place names = some next) :
    next.isDirectory (place ++ names) = true ∧ next.sealedPlaces = tree.sealedPlaces ∧
      ∀ other, ¬ other <+: place ++ names → next.nodes.get? other = tree.nodes.get? other := by
  induction names generalizing tree place with
  | nil =>
    cases h
    exact ⟨by simpa using hplace, rfl, fun _ _ => rfl⟩
  | cons name rest ih =>
    have happend : place ++ name :: rest = place ++ [name] ++ rest := by simp
    rw [createDirectories?] at h
    rw [happend]
    split at h
    next hnext => exact ih hnext h
    next =>
      split at h
      next => cases h
      next =>
        have hmade : ({ tree with nodes := tree.nodes.insert (place ++ [name]) .directory } :
            FileTree).isDirectory (place ++ [name]) = true := by
          simp [isDirectory, OrderedMap.get?_insert]
        obtain ⟨hdirectory, hsealed, hothers⟩ := ih hmade h
        refine ⟨hdirectory, hsealed, fun other hother => ?_⟩
        have hne : place ++ [name] ≠ other := by
          rintro rfl
          exact hother (List.prefix_append _ _)
        rw [hothers other hother, OrderedMap.get?_insert, if_neg hne]

/-- What is made when a directory is: nothing but directories on the way to it. -/
theorem createDirectory?_spec {tree next : FileTree} {place : FilePlace}
    (h : tree.createDirectory? place = some next) :
    next.isDirectory place = true ∧ next.sealedPlaces = tree.sealedPlaces ∧
      ∀ other, ¬ other <+: place → next.nodes.get? other = tree.nodes.get? other := by
  rw [createDirectory?] at h
  split at h
  next hplace =>
    cases h
    exact ⟨hplace, rfl, fun _ _ => rfl⟩
  next =>
    have hroot : tree.isDirectory [] = true := rfl
    exact createDirectories?_spec hroot h

theorem createDirectory?_of_isDirectory {tree : FileTree} {place : FilePlace}
    (h : tree.isDirectory place = true) : tree.createDirectory? place = some tree := by
  rw [createDirectory?, if_pos h]

theorem mem_children_iff {tree : FileTree} {directory : FilePlace} {name : String} {node : FileNode} :
    (name, node) ∈ tree.children directory ↔ tree.nodes.get? (directory ++ [name]) = some node := by
  have hentries : tree.nodes.get? (directory ++ [name]) = some node ↔
      (directory ++ [name], node) ∈ tree.nodes.entries := lookupEntry_eq_some_iff tree.nodes.keys_nodup
  rw [hentries, children, List.mem_filterMap]
  constructor
  · rintro ⟨⟨other, found⟩, hm, he⟩
    cases hlast : other.getLast? with
    | none => simp [hlast] at he
    | some last =>
      simp only [hlast] at he
      split at he
      next hdirectory =>
        cases he
        have hother : other = directory ++ [name] := by
          rw [← hdirectory]
          exact (List.dropLast_append_getLast? name hlast).symm
        exact hother ▸ hm
      next => cases he
  · intro hm
    exact ⟨_, hm, by simp⟩

/-- Where there is a file, or nothing yet, bytes are written just if the place is not sealed. -/
theorem write?_of_file {tree : FileTree} {place : FilePlace} (bytes : ByteArray) (hplace : place ≠ [])
    (hfile : ∀ node, tree.nodes.get? place = some node → ∃ old, node = .file old) :
    tree.write? place bytes =
      if tree.isSealed place then none
      else some { tree with nodes := tree.nodes.insert place (.file bytes) } := by
  unfold write? isDirectory
  cases hnode : tree.nodes.get? place with
  | none => simp [hplace]
  | some node =>
    obtain ⟨old, rfl⟩ := hfile node hnode
    simp [hplace]

theorem remove?_of_not_isDirectory {tree : FileTree} {place : FilePlace}
    (hfile : tree.isDirectory place = false) (hopen : tree.isSealed place = false) :
    tree.remove? place = some { tree with nodes := tree.nodes.erase place } := by
  simp [remove?, hfile, hopen]

theorem isDirectory_erase_self {tree : FileTree} {place : FilePlace}
    (h : tree.isDirectory place = false) :
    ({ tree with nodes := tree.nodes.erase place } : FileTree).isDirectory place = false := by
  have hplace : place.isEmpty = false := (Bool.or_eq_false_iff.mp h).1
  rw [isDirectory, hplace, OrderedMap.get?_erase, if_pos rfl]
  rfl

theorem isDirectory_erase_of_ne {tree : FileTree} {place other : FilePlace} (h : place ≠ other) :
    ({ tree with nodes := tree.nodes.erase place } : FileTree).isDirectory other =
      tree.isDirectory other := by
  refine isDirectory_congr ?_
  rw [OrderedMap.get?_erase, if_neg h]

theorem isDirectory_insert_of_ne {tree : FileTree} {place other : FilePlace} (h : place ≠ other)
    (node : FileNode) :
    ({ tree with nodes := tree.nodes.insert place node } : FileTree).isDirectory other =
      tree.isDirectory other := by
  refine isDirectory_congr ?_
  rw [OrderedMap.get?_insert, if_neg h]

end FileTree

end SchemaDiagram
