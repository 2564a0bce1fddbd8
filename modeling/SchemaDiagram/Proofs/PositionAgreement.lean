import Mathlib.Data.List.Perm.Subperm
import SchemaDiagram.Proofs.FirstFields
import SchemaDiagram.History

namespace SchemaDiagram

/-- Equal doubles, where what is no number is the same as what is no number. Comparing doubles is not reflexive,
but this is. -/
def SameCoordinate (a b : Float) : Prop := a == b ∨ (a.isNaN ∧ b.isNaN)

theorem SameCoordinate.refl (a : Float) : SameCoordinate a a := by
  show (a.toModel.unpack.compare a.toModel.unpack == some .eq) = true ∨
    (a.toModel.unpack.isNaN = true ∧ a.toModel.unpack.isNaN = true)
  cases a.toModel.unpack with
  | infinity sign =>
    left
    cases sign <;> decide
  | notANumber =>
    right
    exact ⟨rfl, rfl⟩
  | zero sign =>
    left
    rfl
  | finite sign mantissa exponent h =>
    left
    cases sign with
    | positive =>
      show (some ((compare exponent exponent).then (compare mantissa mantissa)) == some .eq) = true
      simp
    | negative =>
      show (some ((compare exponent exponent).then (compare mantissa mantissa)).swap == some .eq) =
        true
      simp

theorem Position.beq_iff {p q : Position Float} :
    (p == q) = true ↔ (p.x == q.x) = true ∧ (p.y == q.y) = true :=
  Bool.and_eq_true_iff

/-- The same coordinates. -/
structure Position.Agrees (p q : Position Float) : Prop where
  x : SameCoordinate p.x q.x
  y : SameCoordinate p.y q.y

theorem Position.Agrees.refl (p : Position Float) : p.Agrees p :=
  ⟨.refl p.x, .refl p.y⟩

theorem Position.agrees_of_beq {p q : Position Float} (h : (p == q) = true) : p.Agrees q := by
  obtain ⟨hx, hy⟩ := beq_iff.mp h
  exact ⟨.inl hx, .inl hy⟩

theorem Position.agrees_of_eq_or_beq {p q : Position Float} (h : p = q ∨ (p == q) = true) :
    p.Agrees q := by
  rcases h with rfl | h
  · exact .refl p
  · exact agrees_of_beq h

namespace OrderedMap

variable {κ α : Type} [DecidableEq κ] [BEq α]

theorem size_eq_of_same {m n : OrderedMap κ α} (h : m.same n = true) : m.size = n.size := by
  obtain ⟨hs, _⟩ := Bool.and_eq_true_iff.mp h
  simpa using hs

theorem exists_beq_of_same {m n : OrderedMap κ α} (h : m.same n = true) {key : κ} {value : α}
    (hk : m.get? key = some value) : ∃ other, n.get? key = some other ∧ (value == other) = true := by
  obtain ⟨_, hall⟩ := Bool.and_eq_true_iff.mp h
  have he := List.all_eq_true.mp hall (key, value) (mem_entries_iff.mpr hk)
  cases hn : n.get? key with
  | none => simp [hn] at he
  | some other => exact ⟨other, rfl, by simpa [hn] using he⟩

/-- Maps of one size that compare equal have the same keys, since every key of the first is a key of
the second and no key stands twice. -/
theorem mem_keys_of_same {m n : OrderedMap κ α} (h : m.same n = true) {key : κ}
    (hk : key ∈ n.keys) : key ∈ m.keys := by
  have hsub : m.keys ⊆ n.keys := by
    intro k hm
    obtain ⟨value, hv⟩ := Option.isSome_iff_exists.mp ((contains_iff_mem_keys m k).mpr hm)
    obtain ⟨other, ho, _⟩ := exists_beq_of_same h hv
    exact (contains_iff_mem_keys n k).mp (Option.isSome_iff_exists.mpr ⟨other, ho⟩)
  have hlen : n.keys.length ≤ m.keys.length := by
    have hs := size_eq_of_same h
    simp only [size] at hs
    simp [keys, hs]
  have hperm := (List.subperm_of_subset m.keys_nodup hsub).perm_of_length_le hlen
  exact hperm.mem_iff.mpr hk

theorem rel_get?_of_same {m n : OrderedMap κ α} (h : m.same n = true) (key : κ) :
    Option.Rel (fun a b => (a == b) = true) (m.get? key) (n.get? key) := by
  cases hm : m.get? key with
  | some value =>
    obtain ⟨other, ho, hb⟩ := exists_beq_of_same h hm
    rw [ho]
    exact .some hb
  | none =>
    cases hn : n.get? key with
    | none => exact .none
    | some other =>
      have hkn := (contains_iff_mem_keys n key).mp (Option.isSome_iff_exists.mpr ⟨other, hn⟩)
      have hkm := (contains_iff_mem_keys m key).mpr (mem_keys_of_same h hkn)
      simp [contains, hm] at hkm

theorem same_iff {m n : OrderedMap κ α} :
    m.same n = true ↔
      ∀ key, Option.Rel (fun a b => (a == b) = true) (m.get? key) (n.get? key) := by
  refine ⟨rel_get?_of_same, fun h => ?_⟩
  have hkeys : ∀ key, key ∈ m.keys ↔ key ∈ n.keys := by
    intro key
    rw [← contains_iff_mem_keys, ← contains_iff_mem_keys, contains, contains]
    have hrel := h key
    generalize m.get? key = a at hrel ⊢
    generalize n.get? key = b at hrel ⊢
    cases hrel with
    | some _ => exact Iff.rfl
    | none => exact Iff.rfl
  have hperm : m.keys.Perm n.keys := (List.perm_ext_iff_of_nodup m.keys_nodup n.keys_nodup).mpr hkeys
  have hsize : m.size = n.size := by simpa [keys, size] using hperm.length_eq
  refine Bool.and_eq_true_iff.mpr ⟨beq_iff_eq.mpr hsize, List.all_eq_true.mpr ?_⟩
  intro entry hm
  have hrel := h entry.1
  rw [mem_entries_iff.mp hm] at hrel
  cases hn : n.get? entry.1 with
  | none =>
    rw [hn] at hrel
    cases hrel
  | some other =>
    rw [hn] at hrel
    cases hrel with
    | some hb => simpa only [hn] using hb

end OrderedMap

/-- The same coordinates for the same names, in whatever order. -/
def Positions.Agrees (p q : Positions Float) : Prop :=
  ∀ name, Option.Rel Position.Agrees (p.get? name) (q.get? name)

namespace Positions

theorem Agrees.refl (p : Positions Float) : p.Agrees p := by
  intro name
  cases p.get? name with
  | none => exact .none
  | some position => exact .some (.refl position)

theorem agrees_of_same {p q : Positions Float} (h : p.same q = true) : p.Agrees q := by
  intro name
  have hrel := OrderedMap.rel_get?_of_same h name
  generalize p.get? name = a at hrel
  generalize q.get? name = b at hrel
  cases hrel with
  | none => exact .none
  | some hb => exact .some (Position.agrees_of_beq hb)

end Positions

/-- The same text, and for each name positions with equal coordinates or none in both layouts. -/
structure HistoryEntry.IsSameState (a b : HistoryEntry) : Prop where
  source : a.source = b.source
  positions : ∀ name, Option.Rel (fun p q => (p.x == q.x) = true ∧ (p.y == q.y) = true)
    (a.positions.get? name) (b.positions.get? name)

theorem HistoryEntry.sameState_iff {a b : HistoryEntry} :
    a.sameState b = true ↔ a.IsSameState b := by
  have hpositions : a.positions.same b.positions = true ↔
      ∀ name, Option.Rel (fun p q => (p.x == q.x) = true ∧ (p.y == q.y) = true)
        (a.positions.get? name) (b.positions.get? name) := by
    simp only [OrderedMap.same_iff, Position.beq_iff]
  rw [sameState, Bool.and_eq_true, beq_iff_eq, hpositions]
  constructor
  · rintro ⟨hsource, hrel⟩
    exact ⟨hsource, hrel⟩
  · intro h
    exact ⟨h.source, h.positions⟩

instance (a b : HistoryEntry) : Decidable (a.IsSameState b) :=
  decidable_of_iff _ HistoryEntry.sameState_iff

/-- The same text with layouts that agree. -/
structure HistoryEntry.Agrees (a b : HistoryEntry) : Prop where
  source : a.source = b.source
  positions : a.positions.Agrees b.positions

theorem HistoryEntry.Agrees.refl (a : HistoryEntry) : a.Agrees a := ⟨rfl, .refl a.positions⟩

theorem HistoryEntry.agrees_of_sameState {a b : HistoryEntry} (h : a.sameState b = true) :
    a.Agrees b := by
  obtain ⟨hs, hp⟩ := Bool.and_eq_true_iff.mp h
  exact ⟨by simpa using hs, Positions.agrees_of_same hp⟩

end SchemaDiagram
