import SchemaDiagram.Proofs.PositionAgreement

namespace SchemaDiagram

namespace History

/-- The log is within its capacity, and the index is that of an entry. Only an empty log has none. -/
structure WellFormed (h : History) : Prop where
  capacity_pos : 0 < h.capacity
  length_le : h.entries.length ≤ h.capacity
  empty_of_none : h.index = none → h.entries = []
  index_lt : ∀ i, h.index = some i → i < h.entries.length

theorem wellFormed_withCapacity (capacity : Nat) : (withCapacity capacity).WellFormed where
  capacity_pos := Nat.lt_of_lt_of_le Nat.zero_lt_one (Nat.le_max_right capacity 1)
  length_le := Nat.zero_le _
  empty_of_none := fun _ => rfl
  index_lt := by
    intro i hi
    cases hi

theorem current?_eq_some_iff {h : History} {entry : HistoryEntry} :
    h.current? = some entry ↔ ∃ i, h.index = some i ∧ h.entries[i]? = some entry :=
  Option.bind_eq_some_iff

theorem mem_of_current? {h : History} {entry : HistoryEntry} (hc : h.current? = some entry) :
    entry ∈ h.entries := by
  obtain ⟨i, _, hi⟩ := current?_eq_some_iff.mp hc
  exact List.mem_of_getElem? hi

theorem entries_ne_nil_of_current? {h : History} {entry : HistoryEntry}
    (hc : h.current? = some entry) : h.entries ≠ [] :=
  List.ne_nil_of_mem (mem_of_current? hc)

theorem upToCurrent_prefix (h : History) : h.upToCurrent <+: h.entries := by
  unfold upToCurrent
  split
  · exact List.nil_prefix
  · exact List.take_prefix _ _

/-- The entries that stand before an entry that is put after the current one: the oldest goes if there
is no room. -/
def keptBefore (h : History) : List HistoryEntry :=
  h.upToCurrent.drop (h.upToCurrent.length + 1 - h.capacity)

theorem keptBefore_infix (h : History) : h.keptBefore <:+: h.entries :=
  (List.drop_suffix _ _).isInfix.trans h.upToCurrent_prefix.isInfix

theorem length_keptBefore_lt {h : History} (hw : h.WellFormed) :
    h.keptBefore.length < h.capacity := by
  have hp := hw.capacity_pos
  simp only [keptBefore, List.length_drop]
  omega

theorem record_of_isCurrent {h : History} {entry : HistoryEntry} (hc : h.isCurrent entry = true) :
    h.record entry = (h, false) := by
  simp [record, hc]

theorem record_of_not_isCurrent {h : History} (hw : h.WellFormed) {entry : HistoryEntry}
    (hc : h.isCurrent entry = false) :
    h.record entry =
      ({ h with entries := h.keptBefore ++ [entry], index := some h.keptBefore.length }, true) := by
  have hkept : (if h.capacity < (h.upToCurrent ++ [entry]).length then
      (h.upToCurrent ++ [entry]).drop 1 else h.upToCurrent ++ [entry]) =
      h.keptBefore ++ [entry] := by
    have hp := hw.capacity_pos
    have hu := Nat.le_trans h.upToCurrent_prefix.length_le hw.length_le
    simp only [List.length_append, List.length_singleton]
    split
    next hlt =>
      have hone : h.upToCurrent.length + 1 - h.capacity = 1 := by omega
      rw [keptBefore, hone, List.drop_append_of_le_length (by omega)]
    next hle =>
      have hzero : h.upToCurrent.length + 1 - h.capacity = 0 := by omega
      rw [keptBefore, hzero, List.drop_zero]
  simp only [record, hc, Bool.false_eq_true, if_false, hkept]
  simp

theorem wellFormed_record {h : History} (hw : h.WellFormed) (entry : HistoryEntry) :
    (h.record entry).1.WellFormed := by
  cases hc : h.isCurrent entry with
  | true => simpa [record_of_isCurrent hc] using hw
  | false =>
    rw [record_of_not_isCurrent hw hc]
    have hl := length_keptBefore_lt hw
    refine ⟨hw.capacity_pos, ?_, ?_, ?_⟩
    · simp only [List.length_append, List.length_singleton]
      omega
    · intro hn
      cases hn
    · intro i hi
      cases Option.some.inj hi
      simp

theorem entries_record {h : History} (hw : h.WellFormed) (entry : HistoryEntry) :
    (h.record entry).1.entries = h.entries ∨
      (h.record entry).1.entries = h.keptBefore ++ [entry] := by
  cases hc : h.isCurrent entry with
  | true => exact .inl (by rw [record_of_isCurrent hc])
  | false => exact .inr (by rw [record_of_not_isCurrent hw hc])

theorem mem_of_mem_record {h : History} (hw : h.WellFormed) {entry other : HistoryEntry}
    (hm : other ∈ (h.record entry).1.entries) : other ∈ h.entries ∨ other = entry := by
  rcases entries_record hw entry with hsame | hnew
  · exact .inl (hsame ▸ hm)
  · rw [hnew] at hm
    rcases List.mem_append.mp hm with hk | he
    · exact .inl (h.keptBefore_infix.subset hk)
    · exact .inr (List.mem_singleton.mp he)

/-- Recording never leaves the log behind: an entry that is not taken agrees with the current one. -/
theorem exists_current_record {h : History} (hw : h.WellFormed) (entry : HistoryEntry) :
    ∃ current, (h.record entry).1.current? = some current ∧ current.Agrees entry := by
  cases hc : h.isCurrent entry with
  | true =>
    rw [record_of_isCurrent hc]
    obtain ⟨current, he, hs⟩ := (Option.any_eq_true ..).mp hc
    exact ⟨current, he, HistoryEntry.agrees_of_sameState hs⟩
  | false =>
    rw [record_of_not_isCurrent hw hc]
    refine ⟨entry, current?_eq_some_iff.mpr ⟨h.keptBefore.length, rfl, ?_⟩, .refl entry⟩
    simp

/-- The second log is the first one with the entry as its current one. -/
structure MovesTo (h : History) (entry : HistoryEntry) (next : History) : Prop where
  entries : next.entries = h.entries
  wellFormed : next.WellFormed
  current : next.current? = some entry

theorem MovesTo.mem {h next : History} {entry : HistoryEntry} (hm : h.MovesTo entry next) :
    entry ∈ h.entries :=
  hm.entries ▸ mem_of_current? hm.current

theorem movesTo_of_current? {h : History} (hw : h.WellFormed) {index : Option Nat}
    {entry : HistoryEntry} (hc : { h with index : History }.current? = some entry) :
    h.MovesTo entry { h with index } := by
  obtain ⟨i, hi, he⟩ := current?_eq_some_iff.mp hc
  change index = some i at hi
  change h.entries[i]? = some entry at he
  subst hi
  refine ⟨rfl, ⟨hw.capacity_pos, hw.length_le, ?_, ?_⟩, hc⟩
  · intro hn
    cases hn
  · intro j hj
    cases Option.some.inj hj
    exact (List.getElem?_eq_some_iff.mp he).1

theorem movesTo_of_undo? {h back : History} {entry : HistoryEntry} (hw : h.WellFormed)
    (hu : h.undo? = some (entry, back)) : h.MovesTo entry back := by
  unfold undo? at hu
  split at hu
  next =>
    obtain ⟨found, hf, he⟩ := Option.map_eq_some_iff.mp hu
    cases he
    exact movesTo_of_current? hw hf
  next => cases hu

theorem movesTo_of_redo? {h forward : History} {entry : HistoryEntry} (hw : h.WellFormed)
    (hr : h.redo? = some (entry, forward)) : h.MovesTo entry forward := by
  unfold redo? at hr
  split at hr
  next =>
    obtain ⟨found, hf, he⟩ := Option.map_eq_some_iff.mp hr
    cases he
    exact movesTo_of_current? hw hf
  next => cases hr

end History

end SchemaDiagram
