import SchemaDiagram.StoreRequest
import SchemaDiagram.Proofs.DirectoryFiles

namespace SchemaDiagram

/-- The text of the value reads back as the value. -/
def Json.ReadsBack (value : Json) : Prop :=
  (Json.ofString? value.compact).bind Json.storable? = some value

namespace FileStore

/-- The place of the file in which the value under the key is kept. -/
def filePlace (store : FileStore) (key : String) : FilePlace :=
  store.directory ++ [store.fileName key]

theorem fileName_inj {store : FileStore} {key other : String} :
    store.fileName key = store.fileName other ↔ key = other := by
  simp [fileName]

theorem filePlace_inj {store : FileStore} {key other : String} :
    store.filePlace key = store.filePlace other ↔ key = other := by
  simp [filePlace, fileName_inj]

theorem isOwnName_fileName (store : FileStore) (key : String) :
    store.isOwnName (store.fileName key) = true := by
  simp [isOwnName, fileName, String.toList_append]

theorem fileName_not_mem (store : FileStore) (key : String) :
    store.fileName key ∉ ["", ".", ".."] := by
  have hlength : 5 ≤ (store.fileName key).toList.length := by
    rw [fileName, String.toList_append, List.length_append]
    exact Nat.le_add_left _ _
  intro hm
  have hshort : ∀ name ∈ ["", ".", ".."], name.toList.length ≤ 2 := by decide
  have := hshort _ hm
  omega

theorem slash_not_mem_fileName {store : FileStore} {key : String}
    (hstart : '/' ∉ store.nameStart.toList) (hkey : '/' ∉ key.toList) :
    '/' ∉ (store.fileName key).toList := by
  simp [fileName, String.toList_append, hstart, hkey]

theorem not_isPrefix_append (directory : FilePlace) (name : String) :
    ¬ directory ++ [name] <+: directory := by
  intro h
  have hle := h.length_le
  rw [List.length_append, List.length_singleton] at hle
  omega

theorem filePlace_ne_nil (store : FileStore) (key : String) : store.filePlace key ≠ [] := by
  simp [filePlace]

theorem filePlace_ne_directory (store : FileStore) (key : String) :
    store.filePlace key ≠ store.directory := by
  simp [filePlace]

theorem readValue_compact {value : Json} (h : value.ReadsBack) :
    readValue value.compact.toUTF8 = .ok value := by
  have htext : String.fromUTF8? value.compact.toUTF8 = some value.compact := by
    simp [String.fromUTF8?, value.compact.isValidUTF8, String.fromUTF8]
  have hvalue : (Json.ofString? value.compact).bind Json.storable? = some value := h
  simp only [readValue, htext, hvalue]

/-- The store can keep the value under the key: there is room for the file, nothing holds it off, and the
value is found again in it. -/
structure Takes (store : FileStore) (key : String) (value : Json) : Prop where
  slash : '/' ∉ key.toList
  room : FileTree.hasRoom store.directory (store.fileName key) = true
  unsealed : store.tree.isSealed (store.filePlace key) = false
  creatable : (store.tree.createDirectory? store.directory).isSome = true
  readsBack : value.ReadsBack

/-- The place is not on the way to the directory, and no file of the store can be there. -/
def IsElsewhere (store : FileStore) (place : FilePlace) : Prop :=
  ¬ place <+: store.directory ∧
    ∀ name, store.isOwnName name = true → place ≠ store.directory ++ [name]

theorem IsElsewhere.filePlace_ne {store : FileStore} {place : FilePlace} (hp : store.IsElsewhere place)
    (key : String) : store.filePlace key ≠ place :=
  (hp.2 _ (store.isOwnName_fileName key)).symm

/-- The second store is the first one after some time: only its files have changed, and its directory has
been made if it is needed. -/
structure Continues (store next : FileStore) : Prop where
  directory : next.directory = store.directory
  nameStart : next.nameStart = store.nameStart
  sealedPlaces : next.tree.sealedPlaces = store.tree.sealedPlaces
  standing : next.tree = store.tree ∨ next.tree.isDirectory next.directory = true
  elsewhere : ∀ place, store.IsElsewhere place →
    next.tree.nodes.get? place = store.tree.nodes.get? place

/-- The files of the store hold what the memory holds, and nothing else is named as they are. -/
structure Holds (store : FileStore) (memory : MemoryStore) : Prop where
  nameStart : '/' ∉ store.nameStart.toList
  node : ∀ key, store.tree.nodes.get? (store.filePlace key) =
    (memory.load key).map fun value => .file value.compact.toUTF8
  own : ∀ name, store.isOwnName name = true →
    (store.tree.nodes.get? (store.directory ++ [name])).isSome = true → ∃ key, name = store.fileName key
  taken : ∀ key value, memory.load key = some value → store.Takes key value
  standing : store.tree.isDirectory store.directory = true ∨
    store.tree.isOccupied store.directory = false ∧ ∀ key, memory.load key = none

section Continuing

variable {store next last : FileStore}

theorem Continues.refl (store : FileStore) : store.Continues store :=
  ⟨rfl, rfl, rfl, .inl rfl, fun _ _ => rfl⟩

theorem Continues.isElsewhere (h : store.Continues next) {place : FilePlace}
    (hp : store.IsElsewhere place) : next.IsElsewhere place := by
  unfold IsElsewhere isOwnName
  rw [h.directory, h.nameStart]
  exact hp

theorem Continues.trans (h : store.Continues next) (hnext : next.Continues last) :
    store.Continues last := by
  refine ⟨hnext.directory.trans h.directory, hnext.nameStart.trans h.nameStart,
    hnext.sealedPlaces.trans h.sealedPlaces, ?_, ?_⟩
  · rcases hnext.standing with hsame | hstanding
    · rw [hsame, hnext.directory]
      exact h.standing
    · exact .inr hstanding
  · intro place hp
    rw [hnext.elsewhere place (h.isElsewhere hp), h.elsewhere place hp]

theorem Continues.takes (h : store.Continues next) {key : String} {value : Json}
    (ht : store.Takes key value) : next.Takes key value := by
  have hname : next.fileName key = store.fileName key := by rw [fileName, fileName, h.nameStart]
  refine ⟨ht.slash, ?_, ?_, ?_, ht.readsBack⟩
  · rw [h.directory, hname]
    exact ht.room
  · rw [filePlace, h.directory, hname, FileTree.isSealed_congr h.sealedPlaces]
    exact ht.unsealed
  · rcases h.standing with hsame | hstanding
    · rw [hsame, h.directory]
      exact ht.creatable
    · rw [FileTree.createDirectory?_of_isDirectory hstanding]
      rfl

end Continuing

section Steps

variable {store : FileStore} {memory : MemoryStore} {key : String} {value : Json}

theorem Holds.isDirectory_of_load (h : store.Holds memory) (hload : memory.load key = some value) :
    store.tree.isDirectory store.directory = true := by
  rcases h.standing with hstanding | ⟨_, hempty⟩
  · exact hstanding
  · rw [hempty key] at hload
    cases hload

theorem Holds.file_of_node (h : store.Holds memory) {node : FileNode}
    (hnode : store.tree.nodes.get? (store.filePlace key) = some node) : ∃ bytes, node = .file bytes := by
  rw [h.node key, Option.map_eq_some_iff] at hnode
  obtain ⟨value, _, rfl⟩ := hnode
  exact ⟨_, rfl⟩

theorem Holds.isDirectory_filePlace (h : store.Holds memory) (key : String) :
    store.tree.isDirectory (store.filePlace key) = false := by
  rw [FileTree.isDirectory, h.node key]
  cases memory.load key <;> simp [filePlace]

/-- A key leads to its file, just if the memory has a value under it. -/
theorem Holds.occupiedPlace? (h : store.Holds memory) (hkey : '/' ∉ key.toList) :
    store.occupiedPlace? key = if (memory.load key).isSome then some (store.filePlace key) else none := by
  have hlink : ∀ target, store.tree.nodes.get? (store.filePlace key) ≠ some (.link target) := by
    intro target hlink
    obtain ⟨bytes, hb⟩ := h.file_of_node hlink
    cases hb
  have hplace : store.place? key =
      if store.tree.isDirectory store.directory &&
          FileTree.hasRoom store.directory (store.fileName key) then some (store.filePlace key)
      else none :=
    FileTree.locateInside?_of_name (slash_not_mem_fileName h.nameStart hkey)
      (store.fileName_not_mem key) hlink
  have hoccupied : store.tree.isOccupied (store.filePlace key) = (memory.load key).isSome := by
    rw [FileTree.isOccupied, OrderedMap.contains, h.node key, Option.isSome_map]
    simp [filePlace]
  cases hload : memory.load key with
  | none =>
    rw [FileStore.occupiedPlace?, hplace]
    split <;> simp [hoccupied, hload]
  | some value =>
    rw [FileStore.occupiedPlace?, hplace, h.isDirectory_of_load hload, (h.taken key value hload).room]
    simp [hoccupied, hload]

theorem Holds.load_eq (h : store.Holds memory) (hkey : '/' ∉ key.toList) :
    store.load key = .ok (memory.load key) := by
  rw [load, h.occupiedPlace? hkey]
  cases hload : memory.load key with
  | none => rfl
  | some value =>
    have hnode := h.node key
    rw [hload, Option.map_some] at hnode
    have hread : store.tree.read? (store.filePlace key) = some value.compact.toUTF8 := by
      rw [FileTree.read?, hnode]
    simp only [Option.isSome_some, if_true, hread, readValue_compact (h.taken key value hload).readsBack]
    rfl

/-- The store with another tree, in which the directory stands and nothing has changed but its files. -/
theorem continues_of_tree {tree : FileTree} (hsealed : tree.sealedPlaces = store.tree.sealedPlaces)
    (hstanding : tree.isDirectory store.directory = true)
    (hothers : ∀ place, store.IsElsewhere place →
      tree.nodes.get? place = store.tree.nodes.get? place) :
    store.Continues { store with tree } :=
  ⟨rfl, rfl, hsealed, .inr hstanding, hothers⟩

theorem Holds.of_tree (h : store.Holds memory) {tree : FileTree} {memory' : MemoryStore}
    (hcontinues : store.Continues { store with tree })
    (hstanding : tree.isDirectory store.directory = true)
    (hnode : ∀ key, tree.nodes.get? (store.filePlace key) =
      (memory'.load key).map fun value => .file value.compact.toUTF8)
    (hnew : ∀ name, (tree.nodes.get? (store.directory ++ [name])).isSome = true →
      (store.tree.nodes.get? (store.directory ++ [name])).isSome = true ∨ ∃ key, name = store.fileName key)
    (htaken : ∀ key value, memory'.load key = some value → store.Takes key value) :
    ({ store with tree } : FileStore).Holds memory' := by
  refine ⟨h.nameStart, hnode, ?_, fun key value hload => hcontinues.takes (htaken key value hload),
    .inl hstanding⟩
  intro name hname hsome
  rcases hnew name hsome with hold | hfile
  · exact h.own name hname hold
  · exact hfile

/-- A value is written just if there is room for the file and its place is not sealed. -/
theorem Holds.written?_eq (h : store.Holds memory) (hkey : '/' ∉ key.toList) {made : FileTree}
    (hmade : store.tree.createDirectory? store.directory = some made) :
    store.written? key value =
      if FileTree.hasRoom store.directory (store.fileName key) &&
          !store.tree.isSealed (store.filePlace key) then
        some { made with nodes := made.nodes.insert (store.filePlace key) (.file value.compact.toUTF8) }
      else none := by
  obtain ⟨hstanding, hsealed, hothers⟩ := FileTree.createDirectory?_spec hmade
  have hfile : ∀ node, made.nodes.get? (store.filePlace key) = some node → ∃ old, node = .file old := by
    intro node hnode
    rw [hothers (store.filePlace key) (not_isPrefix_append _ _)] at hnode
    exact h.file_of_node hnode
  have hlink : ∀ target, made.nodes.get? (store.filePlace key) ≠ some (.link target) := by
    intro target hlink
    obtain ⟨old, ho⟩ := hfile _ hlink
    cases ho
  have hlocated : made.locateInside? store.directory (store.fileName key) =
      if FileTree.hasRoom store.directory (store.fileName key) then some (store.filePlace key)
      else none := by
    rw [FileTree.locateInside?_of_name (slash_not_mem_fileName h.nameStart hkey)
      (store.fileName_not_mem key) hlink, hstanding, Bool.true_and]
    rfl
  rw [written?, hmade]
  change (made.locateInside? store.directory (store.fileName key)).bind _ = _
  rw [hlocated]
  cases FileTree.hasRoom store.directory (store.fileName key) with
  | false => rfl
  | true =>
    have hwrite := FileTree.write?_of_file value.compact.toUTF8 (store.filePlace_ne_nil key) hfile
    rw [FileTree.isSealed_congr hsealed] at hwrite
    cases hopen : store.tree.isSealed (store.filePlace key) with
    | false => simpa [hopen] using hwrite
    | true => simpa [hopen] using hwrite

theorem Holds.save (h : store.Holds memory) (ht : store.Takes key value) :
    ∃ next, store.save key value = (next, .ok ()) ∧ store.Continues next ∧
      next.Holds (memory.save key value) := by
  obtain ⟨made, hmade⟩ := Option.isSome_iff_exists.mp ht.creatable
  obtain ⟨hstanding, hsealed, hothers⟩ := FileTree.createDirectory?_spec hmade
  have hentry : ∀ name, made.nodes.get? (store.directory ++ [name]) =
      store.tree.nodes.get? (store.directory ++ [name]) := fun name =>
    hothers _ (not_isPrefix_append store.directory name)
  let tree : FileTree :=
    { made with nodes := made.nodes.insert (store.filePlace key) (.file value.compact.toUTF8) }
  have hwritten : store.written? key value = some tree := by
    rw [h.written?_eq ht.slash hmade, ht.room, ht.unsealed]
    rfl
  have hdirectory : tree.isDirectory store.directory = true := by
    rw [← hstanding]
    exact FileTree.isDirectory_insert_of_ne (store.filePlace_ne_directory key) _
  have hcontinues : store.Continues { store with tree } := by
    refine continues_of_tree hsealed hdirectory ?_
    intro place hp
    rw [OrderedMap.get?_insert, if_neg (hp.filePlace_ne key), hothers place hp.1]
  refine ⟨{ store with tree }, by rw [FileStore.save, hwritten], hcontinues,
    h.of_tree hcontinues hdirectory ?_ ?_ ?_⟩
  · intro other
    rw [OrderedMap.get?_insert, MemoryStore.load_save]
    by_cases hkeys : key = other
    · simp [hkeys]
    · rw [if_neg (mt filePlace_inj.mp hkeys), if_neg hkeys, filePlace, hentry]
      exact h.node other
  · intro name hsome
    rw [OrderedMap.get?_insert] at hsome
    split at hsome
    next hplace => exact .inr ⟨key, by simpa [filePlace] using hplace.symm⟩
    next =>
      rw [hentry] at hsome
      exact .inl hsome
  · intro other found hload
    rw [MemoryStore.load_save] at hload
    split at hload
    next he =>
      cases he
      cases hload
      exact ht
    next => exact h.taken other found hload

theorem Holds.remove (h : store.Holds memory) (hkey : '/' ∉ key.toList) :
    ∃ next, store.remove key = (next, .ok ()) ∧ store.Continues next ∧
      next.Holds (memory.remove key) := by
  cases hload : memory.load key with
  | none =>
    -- There is no file to remove, and the memory finds what it found before.
    have hoccupied : store.occupiedPlace? key = none := by rw [h.occupiedPlace? hkey, hload]; rfl
    have hsame : ∀ other, (memory.remove key).load other = memory.load other := by
      intro other
      rw [MemoryStore.load_remove]
      split
      next he => rw [← he, hload]
      next => rfl
    refine ⟨store, by rw [FileStore.remove, hoccupied], .refl store, h.nameStart, ?_, h.own, ?_, ?_⟩
    · simpa only [hsame] using h.node
    · simpa only [hsame] using h.taken
    · simpa only [hsame] using h.standing
  | some value =>
    have hstanding := h.isDirectory_of_load hload
    have hoccupied : store.occupiedPlace? key = some (store.filePlace key) := by
      rw [h.occupiedPlace? hkey, hload]
      rfl
    let tree : FileTree := { store.tree with nodes := store.tree.nodes.erase (store.filePlace key) }
    have hremoved : store.tree.remove? (store.filePlace key) = some tree := by
      exact FileTree.remove?_of_not_isDirectory (h.isDirectory_filePlace key)
        (h.taken key value hload).unsealed
    have herased : tree.isDirectory store.directory = true := by
      rw [← hstanding]
      exact FileTree.isDirectory_erase_of_ne (store.filePlace_ne_directory key)
    have hcontinues : store.Continues { store with tree } := by
      refine continues_of_tree rfl herased ?_
      intro place hp
      rw [OrderedMap.get?_erase, if_neg (hp.filePlace_ne key)]
    refine ⟨{ store with tree }, by rw [FileStore.remove, hoccupied]; simp only [hremoved], hcontinues,
      h.of_tree hcontinues herased ?_ ?_ ?_⟩
    · intro other
      rw [OrderedMap.get?_erase, MemoryStore.load_remove]
      by_cases hkeys : key = other
      · simp [hkeys]
      · rw [if_neg (mt filePlace_inj.mp hkeys), if_neg hkeys]
        exact h.node other
    · intro name hsome
      rw [OrderedMap.get?_erase] at hsome
      split at hsome
      next => cases hsome
      next => exact .inl hsome
    · intro other found hfound
      rw [MemoryStore.load_remove] at hfound
      split at hfound
      next => cases hfound
      next => exact h.taken other found hfound

/-- Files that nothing holds off are all removed, and everything else stays. -/
theorem removeAll_of_files {tree : FileTree} {places : List FilePlace}
    (hfiles : ∀ place ∈ places, tree.isDirectory place = false ∧ tree.isSealed place = false) :
    ∃ next, removeAll tree places = (next, .ok ()) ∧ next.sealedPlaces = tree.sealedPlaces ∧
      ∀ other, next.nodes.get? other = if other ∈ places then none else tree.nodes.get? other := by
  induction places generalizing tree with
  | nil => exact ⟨tree, rfl, rfl, fun _ => by simp⟩
  | cons place rest ih =>
    obtain ⟨hfile, hopen⟩ := hfiles place List.mem_cons_self
    let erased : FileTree := { tree with nodes := tree.nodes.erase place }
    have herased : ∀ other ∈ rest, erased.isDirectory other = false ∧ erased.isSealed other = false := by
      intro other hm
      obtain ⟨hother, hunsealed⟩ := hfiles other (List.mem_cons_of_mem place hm)
      refine ⟨?_, hunsealed⟩
      by_cases hplace : place = other
      · subst hplace
        exact FileTree.isDirectory_erase_self hfile
      · rw [← hother]
        exact FileTree.isDirectory_erase_of_ne hplace
    obtain ⟨next, hnext, hsealed, hnodes⟩ := ih herased
    refine ⟨next, ?_, hsealed, fun other => ?_⟩
    · rw [removeAll, FileTree.remove?_of_not_isDirectory hfile hopen]
      exact hnext
    · rw [hnodes, OrderedMap.get?_erase]
      by_cases hplace : place = other
      · simp [hplace]
      · simp [hplace, Ne.symm hplace]

theorem mem_ownPlaces_iff {store : FileStore} {place : FilePlace} :
    place ∈ store.ownPlaces ↔ ∃ name, store.isOwnName name = true ∧ place = store.directory ++ [name] ∧
      (store.tree.nodes.get? place).isSome = true := by
  constructor
  · intro hm
    obtain ⟨⟨name, node⟩, hchild, rfl⟩ := List.mem_map.mp hm
    obtain ⟨hlisted, hname⟩ := List.mem_filter.mp hchild
    exact ⟨name, hname, rfl, by rw [FileTree.mem_children_iff.mp hlisted]; rfl⟩
  · rintro ⟨name, hname, rfl, hsome⟩
    obtain ⟨node, hnode⟩ := Option.isSome_iff_exists.mp hsome
    refine List.mem_map.mpr ⟨(name, node), ?_, rfl⟩
    exact List.mem_filter.mpr ⟨FileTree.mem_children_iff.mpr hnode, hname⟩

theorem Holds.clear (h : store.Holds memory) :
    ∃ next, store.clear = (next, .ok ()) ∧ store.Continues next ∧ next.Holds .empty := by
  rcases h.standing with hstanding | ⟨hmissing, hempty⟩
  -- All that is removed are files of the store, since nothing else is named as they are.
  · have hfiles : ∀ place ∈ store.ownPlaces, store.tree.isDirectory place = false ∧
        store.tree.isSealed place = false := by
      intro place hm
      obtain ⟨name, hname, rfl, hsome⟩ := mem_ownPlaces_iff.mp hm
      obtain ⟨key, rfl⟩ := h.own name hname hsome
      rw [← filePlace, h.node key, Option.isSome_map] at hsome
      obtain ⟨value, hload⟩ := Option.isSome_iff_exists.mp hsome
      exact ⟨h.isDirectory_filePlace key, (h.taken key value hload).unsealed⟩
    obtain ⟨tree, hcleared, hsealed, hnodes⟩ := removeAll_of_files hfiles
    have hdirectory : tree.isDirectory store.directory = true := by
      rw [← hstanding]
      refine FileTree.isDirectory_congr ?_
      rw [hnodes, if_neg]
      intro hm
      obtain ⟨name, _, he, _⟩ := mem_ownPlaces_iff.mp hm
      simp at he
    have hcontinues : store.Continues { store with tree } := by
      refine continues_of_tree hsealed hdirectory ?_
      intro place hp
      rw [hnodes, if_neg]
      intro hm
      obtain ⟨name, hname, he, _⟩ := mem_ownPlaces_iff.mp hm
      exact hp.2 name hname he
    refine ⟨{ store with tree }, by rw [FileStore.clear, if_pos hstanding, hcleared], hcontinues,
      h.of_tree hcontinues hdirectory ?_ ?_ ?_⟩
    · intro key
      rw [hnodes]
      split
      next => rfl
      next hnotMem =>
        by_contra hsome
        refine hnotMem (mem_ownPlaces_iff.mpr ⟨_, store.isOwnName_fileName key, rfl, ?_⟩)
        exact Option.isSome_iff_ne_none.mpr hsome
    · intro name hsome
      rw [hnodes] at hsome
      split at hsome
      next => cases hsome
      next => exact .inl hsome
    · intro key value hload
      cases hload
  · have hfile : store.tree.isDirectory store.directory = false := by
      by_contra hdirectory
      rw [FileTree.isOccupied_of_isDirectory (by simpa using hdirectory)] at hmissing
      cases hmissing
    refine ⟨store, ?_, .refl store, h.nameStart, ?_, h.own, ?_, .inr ⟨hmissing, fun _ => rfl⟩⟩
    · rw [FileStore.clear, hfile, hmissing]
      rfl
    · intro key
      rw [h.node key, hempty key]
      rfl
    · intro key value hload
      cases hload

end Steps

/-- The request names no key with a slash, and what it saves can be kept. -/
def Fits (store : FileStore) : StoreRequest → Prop
  | .save key value => store.Takes key value
  | .load key => '/' ∉ key.toList
  | .remove key => '/' ∉ key.toList
  | .clear => True

theorem Continues.fits {store next : FileStore} (h : store.Continues next) {request : StoreRequest}
    (hr : store.Fits request) : next.Fits request := by
  cases request with
  | save key value => exact h.takes hr
  | load key => exact hr
  | remove key => exact hr
  | clear => exact hr

theorem Holds.perform {store : FileStore} {memory : MemoryStore} (h : store.Holds memory)
    {request : StoreRequest} (hr : store.Fits request) :
    (request.perform store).2 = (request.perform memory).2 ∧
      store.Continues (request.perform store).1 ∧
      (request.perform store).1.Holds (request.perform memory).1 := by
  cases request with
  | save key value =>
    obtain ⟨next, hsave, hcontinues, hholds⟩ := h.save hr
    simp only [StoreRequest.perform, KeyValueStore.save, hsave]
    exact ⟨trivial, hcontinues, hholds⟩
  | load key =>
    refine ⟨?_, .refl store, h⟩
    simp only [StoreRequest.perform, KeyValueStore.load, h.load_eq hr]
  | remove key =>
    obtain ⟨next, hremove, hcontinues, hholds⟩ := h.remove hr
    simp only [StoreRequest.perform, KeyValueStore.remove, hremove]
    exact ⟨trivial, hcontinues, hholds⟩
  | clear =>
    obtain ⟨next, hclear, hcontinues, hholds⟩ := h.clear
    simp only [StoreRequest.perform, ClearableStore.clear, hclear]
    exact ⟨trivial, hcontinues, hholds⟩

theorem Holds.performAll {store : FileStore} {memory : MemoryStore} (h : store.Holds memory)
    {requests : List StoreRequest} (hr : ∀ request ∈ requests, store.Fits request) :
    StoreRequest.replies store requests = StoreRequest.replies memory requests ∧
      store.Continues (StoreRequest.performAll store requests) ∧
      (StoreRequest.performAll store requests).Holds (StoreRequest.performAll memory requests) := by
  induction requests generalizing store memory with
  | nil => exact ⟨rfl, .refl store, h⟩
  | cons request rest ih =>
    obtain ⟨hreply, hcontinues, hholds⟩ := h.perform (hr request List.mem_cons_self)
    have hrest : ∀ other ∈ rest, (request.perform store).1.Fits other := fun other hm =>
      hcontinues.fits (hr other (List.mem_cons_of_mem request hm))
    obtain ⟨hreplies, hfurther, hlast⟩ := ih hholds hrest
    refine ⟨?_, hcontinues.trans hfurther, hlast⟩
    rw [StoreRequest.replies, StoreRequest.replies, hreply, hreplies]

section Beginning

variable {store : FileStore}

/-- A store begins empty where nothing is named as its files are, and nothing stands in the way of its
directory. -/
theorem holds_empty (hstart : '/' ∉ store.nameStart.toList)
    (hfresh : ∀ child ∈ store.tree.children store.directory, store.isOwnName child.1 = false)
    (hdirectory : store.tree.isOccupied store.directory = true →
      store.tree.isDirectory store.directory = true) : store.Holds .empty := by
  have hnone : ∀ name, store.isOwnName name = true →
      store.tree.nodes.get? (store.directory ++ [name]) = none := by
    intro name hname
    cases hnode : store.tree.nodes.get? (store.directory ++ [name]) with
    | none => rfl
    | some node =>
      rw [hfresh (name, node) (FileTree.mem_children_iff.mpr hnode)] at hname
      cases hname
  refine ⟨hstart, fun key => hnone _ (store.isOwnName_fileName key), ?_, ?_, ?_⟩
  · intro name hname hsome
    rw [hnone name hname] at hsome
    cases hsome
  · intro key value hload
    cases hload
  · cases hoccupied : store.tree.isOccupied store.directory with
    | true => exact .inl (hdirectory hoccupied)
    | false => exact .inr ⟨rfl, fun _ => rfl⟩

/-- What a store has taken it can take. -/
theorem Holds.takes_of_save {memory : MemoryStore} (h : store.Holds memory) {key : String} {value : Json}
    (hkey : '/' ∉ key.toList) (hsave : (store.save key value).2 = .ok ()) (hvalue : value.ReadsBack) :
    store.Takes key value := by
  cases hmade : store.tree.createDirectory? store.directory with
  | none =>
    rw [FileStore.save, written?, hmade] at hsave
    cases hsave
  | some made =>
    rw [FileStore.save, h.written?_eq hkey hmade] at hsave
    split at hsave
    next hwritten =>
      split at hwritten
      next hopen =>
        obtain ⟨hroom, hunsealed⟩ := Bool.and_eq_true_iff.mp hopen
        exact ⟨hkey, hroom, by simpa using hunsealed, by rw [hmade]; rfl, hvalue⟩
      next => cases hwritten
    next => cases hsave

/-- Where nothing is named as its files are yet, and each value that it is given is one that it can keep
and read back, a store of files gives the replies of a store in memory that is empty at first. Nothing
changes in the file tree but the files of the store and the directories that lead to them. -/
theorem replies_eq_memory (store : FileStore) (requests : List StoreRequest)
    (hstart : '/' ∉ store.nameStart.toList)
    (hkeys : ∀ request ∈ requests, ∀ key, request.key? = some key → '/' ∉ key.toList)
    (hfresh : ∀ child ∈ store.tree.children store.directory, store.isOwnName child.1 = false)
    (hdirectory : store.tree.isOccupied store.directory = true →
      store.tree.isDirectory store.directory = true)
    (hsaves : ∀ key value, .save key value ∈ requests →
      (store.save key value).2 = .ok () ∧ value.ReadsBack) :
    StoreRequest.replies store requests = StoreRequest.replies MemoryStore.empty requests ∧
      ∀ place, store.IsElsewhere place →
        (StoreRequest.performAll store requests).tree.nodes.get? place =
          store.tree.nodes.get? place := by
  have hholds := holds_empty hstart hfresh hdirectory
  have hfits : ∀ request ∈ requests, store.Fits request := by
    intro request hm
    cases request with
    | save key value =>
      obtain ⟨hsave, hvalue⟩ := hsaves key value hm
      exact hholds.takes_of_save (hkeys _ hm key rfl) hsave hvalue
    | load key => exact hkeys _ hm key rfl
    | remove key => exact hkeys _ hm key rfl
    | clear => trivial
  obtain ⟨hreplies, hcontinues, _⟩ := hholds.performAll hfits
  exact ⟨hreplies, hcontinues.elsewhere⟩

/-- Keys that begin alike, an empty key, and one that looks like the name of a file, next to a file that
is none of the store's. -/
theorem replies_eq_memory_besideNotes :
    let notes : FileNode := .file "kept".toUTF8
    let store : FileStore :=
      { tree := { nodes := .ofList [(["data"], .directory), (["data", "notes.json"], notes)] }
        directory := ["data"]
        nameStart := "d." }
    let requests : List StoreRequest :=
      [.load "a", .save "a" (.string "x"), .save "" .null, .save "a.json" (.object [("k", .array [.bool true, .string "é"])]), .save "a" .null,
        .load "a", .remove "a", .load "a", .load "a.json", .clear, .load "", .remove "", .load "a.json"]
    StoreRequest.replies store requests = StoreRequest.replies MemoryStore.empty requests ∧
      (StoreRequest.performAll store requests).tree.nodes.get? ["data", "notes.json"] = some notes := by
  intro notes store requests
  have hfresh : ∀ child ∈ store.tree.children store.directory, store.isOwnName child.1 = false := by
    decide +kernel
  have hkeys : ∀ request ∈ requests, ∀ key, request.key? = some key → '/' ∉ key.toList := by
    simp [requests, StoreRequest.key?]
  have hsaves : ∀ key value, .save key value ∈ requests →
      (store.save key value).2 = .ok () ∧ value.ReadsBack := by
    intro key value hm
    simp only [requests, List.mem_cons, StoreRequest.save.injEq, reduceCtorEq, false_or, or_false,
      List.not_mem_nil] at hm
    rcases hm with ⟨rfl, rfl⟩ | ⟨rfl, rfl⟩ | ⟨rfl, rfl⟩ | ⟨rfl, rfl⟩
    · exact ⟨by decide +kernel, by cbv⟩
    · exact ⟨by decide +kernel, by cbv⟩
    · exact ⟨by decide +kernel, by cbv⟩
    · exact ⟨by decide +kernel, by cbv⟩
  obtain ⟨hreplies, helsewhere⟩ :=
    replies_eq_memory store requests (by decide +kernel) hkeys hfresh (fun _ => rfl) hsaves
  refine ⟨hreplies, helsewhere _ ⟨by decide +kernel, ?_⟩⟩
  intro name hname he
  have hnotes : name = "notes.json" := by simpa [store] using he.symm
  rw [hnotes] at hname
  exact absurd hname (by decide +kernel)

end Beginning

end FileStore

end SchemaDiagram
