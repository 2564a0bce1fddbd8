import Mathlib.Data.List.Nodup
import SchemaDiagram.NameSet
import SchemaDiagram.JsonDecoding
import SchemaDiagram.Proofs.FirstFields

namespace SchemaDiagram

section Members

variable {α β : Type}

/-- Entries in the order of their names are known from what each name finds. -/
theorem eq_of_lookupEntry_eq {xs ys : List (String × α)} (hx : (xs.map Prod.fst).Pairwise (· < ·))
    (hy : (ys.map Prod.fst).Pairwise (· < ·)) (h : ∀ name, lookupEntry name xs = lookupEntry name ys) :
    xs = ys := by
  have hnodup : ∀ {zs : List (String × α)}, (zs.map Prod.fst).Pairwise (· < ·) →
      (zs.map Prod.fst).Nodup := fun hz => hz.imp fun hlt => String.ne_of_lt hlt
  have hmem : ∀ entry, entry ∈ xs ↔ entry ∈ ys := by
    intro ⟨name, value⟩
    rw [← lookupEntry_eq_some_iff (hnodup hx), ← lookupEntry_eq_some_iff (hnodup hy), h]
  have hperm : xs.Perm ys := (List.perm_ext_iff_of_nodup (List.Nodup.of_map _ (hnodup hx))
    (List.Nodup.of_map _ (hnodup hy))).mpr hmem
  refine hperm.eq_of_pairwise ?_ (List.pairwise_map.mp hx) (List.pairwise_map.mp hy)
  intro a b _ _ hab hba
  exact absurd (String.lt_trans hab hba) (String.lt_irrefl a.1)

theorem OrderedMap.get?_foldl_insert_of_nodup {κ : Type} [DecidableEq κ] {entries : List (κ × α)}
    (hn : (entries.map Prod.fst).Nodup) (m : OrderedMap κ α) (key : κ) :
    (entries.foldl (fun m entry => m.insert entry.1 entry.2) m).get? key =
      (lookupEntry key entries).or (m.get? key) := by
  induction entries generalizing m with
  | nil => rfl
  | cons entry rest ih =>
    obtain ⟨k, value⟩ := entry
    obtain ⟨hk, hrest⟩ := List.nodup_cons.mp hn
    rw [List.foldl_cons, ih hrest, get?_insert]
    by_cases he : k = key
    · subst he
      simp [lookupEntry, lookupEntry_eq_none_of_not_mem hk]
    · simp [lookupEntry, he]

theorem OrderedMap.get?_ofList_of_nodup {κ : Type} [DecidableEq κ] {entries : List (κ × α)}
    (hn : (entries.map Prod.fst).Nodup) (key : κ) :
    (OrderedMap.ofList entries).get? key = lookupEntry key entries := by
  rw [ofList, get?_foldl_insert_of_nodup hn, get?_empty, Option.or_none]

/-- Reading the values of the members one after the other keeps the names, and each name finds what
its value reads as. -/
theorem lookupEntry_of_mapM {read : α → Option β} {members : List (String × α)}
    {entries : List (String × β)}
    (h : (members.mapM fun member => (read member.2).map fun value => (member.1, value)) =
      some entries) :
    entries.map Prod.fst = members.map Prod.fst ∧
      ∀ name, (lookupEntry name members).map read = (lookupEntry name entries).map some := by
  induction members generalizing entries with
  | nil =>
    cases h
    exact ⟨rfl, fun _ => rfl⟩
  | cons member rest ih =>
    obtain ⟨k, old⟩ := member
    simp only [List.mapM_cons, Option.bind_eq_bind, Option.bind_eq_some_iff, Option.map_eq_some_iff] at h
    obtain ⟨_, ⟨value, hv, rfl⟩, others, ho, he⟩ := h
    cases he
    obtain ⟨hnames, hlookup⟩ := ih ho
    refine ⟨by simp [hnames], ?_⟩
    intro name
    by_cases hk : k = name
    · simp [lookupEntry, hk, hv]
    · simp only [lookupEntry, hk, if_false]
      exact hlookup name

theorem exists_mapM_eq_some {read : α → Option β} {xs : List α}
    (h : ∀ x ∈ xs, ∃ y, read x = some y) : ∃ ys, xs.mapM read = some ys := by
  induction xs with
  | nil => exact ⟨[], rfl⟩
  | cons x rest ih =>
    obtain ⟨y, hy⟩ := h x List.mem_cons_self
    obtain ⟨ys, hys⟩ := ih fun z hz => h z (List.mem_cons_of_mem x hz)
    exact ⟨y :: ys, by simp [List.mapM_cons, hy, hys]⟩

end Members

namespace Json

theorem lookupEntry_insertMember (name other : String) (value : Json) (members : List (String × Json)) :
    lookupEntry other (insertMember name value members) =
      if name = other then some value else lookupEntry other members := by
  induction members with
  | nil => rfl
  | cons member rest ih =>
    obtain ⟨k, old⟩ := member
    unfold insertMember
    split
    next he =>
      subst he
      by_cases ho : name = other <;> simp [lookupEntry, ho]
    next hne =>
      split
      next => simp only [lookupEntry]
      next =>
        by_cases ho : k = other
        · subst ho
          simp [lookupEntry, hne]
        · simp only [lookupEntry, ho, if_false, ih]

theorem map_fst_insertMember (name : String) (value : Json) (members : List (String × Json)) :
    (insertMember name value members).map Prod.fst = insertName name (members.map Prod.fst) := by
  induction members with
  | nil => rfl
  | cons member rest ih =>
    obtain ⟨k, old⟩ := member
    simp only [insertMember, List.map_cons, insertName]
    split
    next he => rw [List.map_cons, he]
    next => split <;> simp [ih]

theorem pairwise_sortedMembers (members : List (String × Json)) {done : List (String × Json)}
    (h : (done.map Prod.fst).Pairwise (· < ·)) :
    ((sortedMembers done members).map Prod.fst).Pairwise (· < ·) := by
  induction members generalizing done with
  | nil => simpa only [sortedMembers] using h
  | cons member rest ih =>
    obtain ⟨name, value⟩ := member
    rw [sortedMembers]
    refine ih ?_
    rw [map_fst_insertMember]
    exact sorted_insertName name h

theorem lookupEntry_sortedMembers {members : List (String × Json)} (hn : (members.map Prod.fst).Nodup)
    (done : List (String × Json)) (name : String) :
    lookupEntry name (sortedMembers done members) =
      ((lookupEntry name members).map sorted).or (lookupEntry name done) := by
  induction members generalizing done with
  | nil => simp [sortedMembers, lookupEntry]
  | cons member rest ih =>
    obtain ⟨k, value⟩ := member
    obtain ⟨hk, hrest⟩ := List.nodup_cons.mp hn
    rw [sortedMembers, ih hrest, lookupEntry_insertMember]
    by_cases he : k = name
    · subst he
      simp [lookupEntry, lookupEntry_eq_none_of_not_mem hk]
    · simp [lookupEntry, he]

/-- The order in which members are written does not show in the stored form. -/
theorem sortedMembers_congr {xs ys : List (String × Json)} (hx : (xs.map Prod.fst).Nodup)
    (hy : (ys.map Prod.fst).Nodup) (h : ∀ name, lookupEntry name xs = lookupEntry name ys) :
    sortedMembers [] xs = sortedMembers [] ys := by
  refine eq_of_lookupEntry_eq (pairwise_sortedMembers xs .nil) (pairwise_sortedMembers ys .nil) ?_
  intro name
  rw [lookupEntry_sortedMembers hx, lookupEntry_sortedMembers hy, h]

end Json

namespace Position

def IsFinite (p : Position Float) : Prop := p.x.isFinite = true ∧ p.y.isFinite = true

instance (p : Position Float) : Decidable p.IsFinite := inferInstanceAs (Decidable (_ ∧ _))

theorem sorted_toJson (p : Position Float) : p.toJson.sorted = p.toJson := by
  have hfloat : ∀ f, (Json.ofFloat f).sorted = Json.ofFloat f := by
    intro f
    unfold Json.ofFloat
    split <;> rfl
  simp only [toJson, Json.sorted, Json.sortedMembers, hfloat]
  rfl

/-- What is no finite number is stored as nothing that could be read back. -/
theorem ofJson?_toJson (p : Position Float) :
    ofJson? p.toJson = if p.IsFinite then some p else none := by
  have hfloat : ∀ f, (Json.ofFloat f).float? = if f.isFinite then some f else none := by
    intro f
    unfold Json.ofFloat
    split <;> rfl
  show ((Json.ofFloat p.x).float?.bind fun x =>
    (Json.ofFloat p.y).float?.bind fun y => some (⟨x, y⟩ : Position Float)) = _
  rw [hfloat, hfloat]
  by_cases hx : p.x.isFinite = true <;> by_cases hy : p.y.isFinite = true <;> simp [IsFinite, hx, hy]

theorem eq_of_ofJson?_toJson {p q : Position Float} (h : ofJson? p.toJson = some q) : q = p := by
  rw [ofJson?_toJson] at h
  split at h
  · exact (Option.some.inj h).symm
  · cases h

end Position

namespace Positions

/-- No coordinate is infinite or no number at all. -/
def AllFinite (positions : Positions Float) : Prop :=
  ∀ entry ∈ positions.entries, entry.2.IsFinite

instance (positions : Positions Float) : Decidable positions.AllFinite :=
  inferInstanceAs (Decidable (∀ entry ∈ positions.entries, entry.2.IsFinite))

/-- The members of a layout as they are stored. -/
def storedMembers (positions : Positions Float) : List (String × Json) :=
  Json.sortedMembers [] (positions.entries.map fun entry => (entry.1, entry.2.toJson))

theorem sorted_toJson (positions : Positions Float) :
    positions.toJson.sorted = .object positions.storedMembers := rfl

theorem nodup_map_toJson (positions : Positions Float) :
    ((positions.entries.map fun entry => (entry.1, entry.2.toJson)).map Prod.fst).Nodup := by
  simpa [Function.comp_def] using positions.keys_nodup

theorem lookupEntry_map_toJson (positions : Positions Float) (name : String) :
    lookupEntry name (positions.entries.map fun entry => (entry.1, entry.2.toJson)) =
      (positions.get? name).map Position.toJson :=
  lookupEntry_map name (fun _ position => Position.toJson position) positions.entries

theorem lookupEntry_storedMembers (positions : Positions Float) (name : String) :
    lookupEntry name positions.storedMembers = (positions.get? name).map Position.toJson := by
  rw [storedMembers, Json.lookupEntry_sortedMembers positions.nodup_map_toJson, lookupEntry_map_toJson]
  cases positions.get? name with
  | none => rfl
  | some position => simp [Position.sorted_toJson]

/-- The members are those that a layout is stored as: in the order of their names one for each table that has a
position, with both coordinates, where null stands for one that is no finite number. -/
structure StoredAs (positions : Positions Float) (members : List (String × Json)) : Prop where
  sorted : (members.map Prod.fst).Pairwise (· < ·)
  member : ∀ name, lookupEntry name members = (positions.get? name).map fun p =>
    .object [("x", if p.x.isFinite then .float p.x else .null),
      ("y", if p.y.isFinite then .float p.y else .null)]

theorem storedAs_storedMembers (positions : Positions Float) :
    positions.StoredAs positions.storedMembers where
  sorted := Json.pairwise_sortedMembers _ .nil
  member := positions.lookupEntry_storedMembers

theorem nodup_storedMembers (positions : Positions Float) :
    (positions.storedMembers.map Prod.fst).Nodup :=
  positions.storedAs_storedMembers.sorted.imp fun hlt => String.ne_of_lt hlt

/-- The stored form of a layout tells which name has which position, and nothing else. -/
theorem sorted_toJson_congr {p q : Positions Float} (h : ∀ name, p.get? name = q.get? name) :
    p.toJson.sorted = q.toJson.sorted := by
  have hlookup : ∀ name,
      lookupEntry name (p.entries.map fun entry => (entry.1, entry.2.toJson)) =
        lookupEntry name (q.entries.map fun entry => (entry.1, entry.2.toJson)) := by
    intro name
    rw [lookupEntry_map_toJson, lookupEntry_map_toJson, h]
  rw [sorted_toJson, sorted_toJson, storedMembers, storedMembers,
    Json.sortedMembers_congr p.nodup_map_toJson q.nodup_map_toJson hlookup]

theorem ofJson?_object (members : List (String × Json)) :
    ofJson? (.object members) =
      (members.mapM fun member =>
        (Position.ofJson? member.2).map fun position => (member.1, position)).map OrderedMap.ofList := by
  simp only [ofJson?, Option.map_eq_bind, Option.bind_eq_bind, Option.pure_def, Function.comp_def]

/-- What is read back from the stored form of a layout is the layout, but for the order of names. -/
theorem get?_of_ofJson?_sorted {positions restored : Positions Float}
    (h : ofJson? positions.toJson.sorted = some restored) (name : String) :
    restored.get? name = positions.get? name := by
  rw [sorted_toJson, ofJson?_object] at h
  obtain ⟨entries, he, rfl⟩ := Option.map_eq_some_iff.mp h
  obtain ⟨hnames, hlookup⟩ := lookupEntry_of_mapM he
  have hn : (entries.map Prod.fst).Nodup := hnames ▸ positions.nodup_storedMembers
  have hread := hlookup name
  rw [lookupEntry_storedMembers, Option.map_map] at hread
  rw [OrderedMap.get?_ofList_of_nodup hn]
  cases hp : positions.get? name with
  | none => simpa [hp] using hread.symm
  | some position =>
    rw [hp] at hread
    obtain ⟨value, hv, hs⟩ := Option.map_eq_some_iff.mp hread.symm
    rw [hv, Position.eq_of_ofJson?_toJson hs.symm]

theorem exists_ofJson?_sorted {positions : Positions Float} (hf : positions.AllFinite) :
    ∃ restored, ofJson? positions.toJson.sorted = some restored := by
  have hread : ∀ member ∈ positions.storedMembers,
      ∃ entry, ((Position.ofJson? member.2).map fun position => (member.1, position)) = some entry := by
    intro ⟨name, value⟩ hm
    have hl := (lookupEntry_eq_some_iff positions.nodup_storedMembers).mpr hm
    rw [lookupEntry_storedMembers] at hl
    obtain ⟨position, hp, rfl⟩ := Option.map_eq_some_iff.mp hl
    have hfinite : position.IsFinite := hf (name, position) (OrderedMap.mem_entries_iff.mpr hp)
    exact ⟨(name, position), by simp [Position.ofJson?_toJson, hfinite]⟩
  obtain ⟨entries, he⟩ := exists_mapM_eq_some hread
  exact ⟨_, by rw [sorted_toJson, ofJson?_object, he, Option.map_some]⟩

theorem allFinite_of_ofJson?_sorted {positions restored : Positions Float}
    (h : ofJson? positions.toJson.sorted = some restored) : positions.AllFinite := by
  rw [sorted_toJson, ofJson?_object] at h
  obtain ⟨entries, he, _⟩ := Option.map_eq_some_iff.mp h
  obtain ⟨_, hlookup⟩ := lookupEntry_of_mapM he
  intro ⟨name, position⟩ hm
  have hread := hlookup name
  rw [lookupEntry_storedMembers, OrderedMap.mem_entries_iff.mp hm, Option.map_some, Option.map_some]
    at hread
  obtain ⟨value, _, hvalue⟩ := Option.map_eq_some_iff.mp hread.symm
  rw [Position.ofJson?_toJson] at hvalue
  by_contra hno
  rw [if_neg hno] at hvalue
  cases hvalue

end Positions

/-- The value is what a text and a layout are stored as. -/
def Json.HoldsDiagram (value : Json) (content : String) (positions : Positions Float) : Prop :=
  ∃ members, value = .object [("content", .string content), ("positions", .object members)] ∧
    positions.StoredAs members

theorem SavedDiagram.holdsDiagram_sorted (content : String) (positions : Positions Float) :
    (toJson ⟨content, some positions⟩).sorted.HoldsDiagram content positions :=
  ⟨positions.storedMembers, rfl, positions.storedAs_storedMembers⟩

/-- A saved diagram can be read back just if its layout can. -/
theorem SavedDiagram.ofJson?_sorted (content : String) (positions : Positions Float) :
    ofJson? (toJson ⟨content, some positions⟩).sorted =
      (Positions.ofJson? positions.toJson.sorted).map fun restored => ⟨content, some restored⟩ := by
  have hnullable : Positions.ofNullableJson? positions.toJson.sorted =
      (Positions.ofJson? positions.toJson.sorted).map some := rfl
  show (Positions.ofNullableJson? positions.toJson.sorted).bind _ = _
  rw [hnullable]
  cases Positions.ofJson? positions.toJson.sorted <;> rfl

theorem SavedDiagram.exists_ofJson?_sorted (content : String) {positions : Positions Float}
    (hf : positions.AllFinite) :
    ∃ restored, ofJson? (toJson ⟨content, some positions⟩).sorted = some ⟨content, some restored⟩ ∧
      ∀ name, restored.get? name = positions.get? name := by
  obtain ⟨restored, hr⟩ := Positions.exists_ofJson?_sorted hf
  refine ⟨restored, ?_, Positions.get?_of_ofJson?_sorted hr⟩
  rw [ofJson?_sorted, hr, Option.map_some]

/-- Nothing but a coordinate that is no finite number keeps a saved diagram from being read back. -/
theorem SavedDiagram.ofJson?_sorted_eq_none_iff (content : String) (positions : Positions Float) :
    ofJson? (toJson ⟨content, some positions⟩).sorted = none ↔ ¬ positions.AllFinite := by
  rw [ofJson?_sorted, Option.map_eq_none_iff]
  constructor
  · intro hnone hfinite
    obtain ⟨restored, hrestored⟩ := Positions.exists_ofJson?_sorted hfinite
    rw [hnone] at hrestored
    cases hrestored
  · intro hno
    cases hread : Positions.ofJson? positions.toJson.sorted with
    | none => rfl
    | some restored => exact absurd (Positions.allFinite_of_ofJson?_sorted hread) hno

theorem SavedDiagram.sorted_toJson_congr {p q : Positions Float} (content : String)
    (h : ∀ name, p.get? name = q.get? name) :
    (toJson ⟨content, some p⟩).sorted = (toJson ⟨content, some q⟩).sorted := by
  show Json.object [("content", .string content), ("positions", p.toJson.sorted)] =
    .object [("content", .string content), ("positions", q.toJson.sorted)]
  rw [Positions.sorted_toJson_congr h]

namespace NameSet

theorem insertName_of_forall_lt {name : String} {names : List String}
    (h : ∀ other ∈ names, other < name) :
    insertName name names = names ++ [name] := by
  induction names with
  | nil => rfl
  | cons first rest ih =>
    have hlt : first < name := h first List.mem_cons_self
    have hrest := ih fun other hm => h other (List.mem_cons_of_mem first hm)
    have hne : name ≠ first := (String.ne_of_lt hlt).symm
    simp [insertName, hne, String.lt_asymm hlt, hrest]

theorem names_foldl_insert {names : List String} (s : NameSet)
    (h : (s.names ++ names).Pairwise (· < ·)) : (names.foldl insert s).names = s.names ++ names := by
  induction names generalizing s with
  | nil => simp
  | cons name rest ih =>
    have hbefore : ∀ other ∈ s.names, other < name := fun other hm =>
      (List.pairwise_append.mp h).2.2 other hm name List.mem_cons_self
    have hnames : (s.insert name).names = s.names ++ [name] := insertName_of_forall_lt hbefore
    rw [List.foldl_cons, ih (s.insert name) (by simpa [hnames] using h), hnames]
    simp

theorem ofList_names (s : NameSet) : ofList s.names = s := by
  have hnames : (ofList s.names).names = s.names := names_foldl_insert empty s.sorted
  obtain ⟨names, sorted⟩ := s
  cases hs : ofList names with
  | mk others _ =>
    rw [hs] at hnames
    cases hnames
    rfl

theorem texts?_toJson (s : NameSet) : s.toJson.texts? = some s.names := by
  have hmap : ∀ names : List String, (names.map Json.string).mapM Json.text? = some names := by
    intro names
    induction names with
    | nil => rfl
    | cons name rest ih => simp [List.mapM_cons, Json.text?, ih]
  exact hmap s.names

end NameSet

end SchemaDiagram
