import Mathlib.Data.List.Chain
import SchemaDiagram.Proofs.HistoryLog

namespace SchemaDiagram

/-- The states before the current one and those that were taken back, the nearest of each on top. -/
structure UndoStacks where
  past : List HistoryEntry := []
  current : Option HistoryEntry := none
  future : List HistoryEntry := []
  capacity : Nat

inductive HistoryRequest where
  | record (entry : HistoryEntry)
  | undo
  | redo

inductive HistoryReply where
  | recorded (taken : Bool)
  | reached (entry : Option HistoryEntry)

/-- What can be seen of a log without changing it. -/
structure HistoryView where
  size : Nat
  index : Option Nat
  current : Option HistoryEntry
  canUndo : Bool
  canRedo : Bool

/-- The replies to a run of requests, each with the view after it. -/
def transcript {σ : Type} (handle : σ → HistoryRequest → σ × HistoryReply) (view : σ → HistoryView)
    (state : σ) : List HistoryRequest → List (HistoryReply × HistoryView)
  | [] => []
  | request :: rest =>
    ((handle state request).2, view (handle state request).1) ::
      transcript handle view (handle state request).1 rest

/-- States that are related at first are seen alike throughout a run if every step keeps them related
and is replied to alike. -/
theorem transcript_congr {σ τ : Type} {handle : σ → HistoryRequest → σ × HistoryReply}
    {handle' : τ → HistoryRequest → τ × HistoryReply} {view : σ → HistoryView}
    {view' : τ → HistoryView} {R : σ → τ → Prop} (hview : ∀ s t, R s t → view s = view' t)
    (hstep : ∀ s t request, R s t →
      R (handle s request).1 (handle' t request).1 ∧ (handle s request).2 = (handle' t request).2)
    {s : σ} {t : τ} (h : R s t) (requests : List HistoryRequest) :
    transcript handle view s requests = transcript handle' view' t requests := by
  induction requests generalizing s t with
  | nil => rfl
  | cons request rest ih =>
    obtain ⟨hnext, hreply⟩ := hstep s t request h
    simp only [transcript]
    rw [hreply, hview _ _ hnext, ih hnext]

namespace UndoStacks

/-- Empty stacks. At least one state is kept. -/
def withCapacity (capacity : Nat) : UndoStacks where
  capacity := max capacity 1

/-- Pushes the current state on the past, where the oldest goes if there are too many, and forgets the
future. An entry with the text of the current state and with equal positions is refused. -/
def record (s : UndoStacks) (entry : HistoryEntry) : UndoStacks × Bool :=
  if s.current.any fun current => current.IsSameState entry then (s, false)
  else
    let past := s.current.toList ++ s.past
    let kept := if s.capacity - 1 < past.length then past.dropLast else past
    ({ s with past := kept, current := some entry, future := [] }, true)

def undo (s : UndoStacks) : UndoStacks × Option HistoryEntry :=
  match s.past, s.current with
  | entry :: past, some current =>
    ({ s with past, current := some entry, future := current :: s.future }, some entry)
  | _, _ => (s, none)

def redo (s : UndoStacks) : UndoStacks × Option HistoryEntry :=
  match s.future, s.current with
  | entry :: future, some current =>
    ({ s with past := current :: s.past, current := some entry, future }, some entry)
  | _, _ => (s, none)

def handle (s : UndoStacks) : HistoryRequest → UndoStacks × HistoryReply
  | .record entry => ((s.record entry).1, .recorded (s.record entry).2)
  | .undo => (s.undo.1, .reached s.undo.2)
  | .redo => (s.redo.1, .reached s.redo.2)

def view (s : UndoStacks) : HistoryView where
  size := s.past.length + s.current.toList.length + s.future.length
  index := s.current.map fun _ => s.past.length
  current := s.current
  canUndo := !s.past.isEmpty
  canRedo := !s.future.isEmpty

end UndoStacks

namespace History

def handle (h : History) : HistoryRequest → History × HistoryReply
  | .record entry => ((h.record entry).1, .recorded (h.record entry).2)
  | .undo => ((h.undo?.map Prod.snd).getD h, .reached (h.undo?.map Prod.fst))
  | .redo => ((h.redo?.map Prod.snd).getD h, .reached (h.redo?.map Prod.fst))

def view (h : History) : HistoryView where
  size := h.size
  index := h.index
  current := h.current?
  canUndo := h.canUndo
  canRedo := h.canRedo

def run (h : History) (requests : List HistoryRequest) : History :=
  requests.foldl (fun h request => (h.handle request).1) h

/-- A log around the current state, with the states before and after it, the nearest first. -/
def around (past : List HistoryEntry) (current : HistoryEntry) (future : List HistoryEntry)
    (capacity : Nat) : History where
  entries := past.reverse ++ current :: future
  index := some past.length
  capacity := capacity

section Around

variable (past : List HistoryEntry) (current entry : HistoryEntry) (future : List HistoryEntry)
  (capacity : Nat)

@[simp] theorem current?_around : (around past current future capacity).current? = some current := by
  simp [around, current?]

@[simp] theorem canUndo_around :
    (around past current future capacity).canUndo = !past.isEmpty := by
  cases past <;> simp [around, canUndo]

@[simp] theorem canRedo_around :
    (around past current future capacity).canRedo = !future.isEmpty := by
  cases future <;> simp [around, canRedo]

theorem upToCurrent_around :
    (around past current future capacity).upToCurrent = (current :: past).reverse := by
  have hsplit : past.reverse ++ current :: future = (current :: past).reverse ++ future := by simp
  have hlength : past.length + 1 = (current :: past).reverse.length := by simp
  simp only [upToCurrent, around]
  rw [hsplit, hlength, List.take_left]

theorem undo?_around_nil : (around [] current future capacity).undo? = none := by
  simp [undo?]

theorem undo?_around_cons :
    (around (entry :: past) current future capacity).undo? =
      some (entry, around past entry (current :: future) capacity) := by
  have hback : { around (entry :: past) current future capacity with
      index := (around (entry :: past) current future capacity).index.map (· - 1) } =
      around past entry (current :: future) capacity := by
    simp [around]
  simp [undo?, hback]

theorem redo?_around_nil : (around past current [] capacity).redo? = none := by
  simp [redo?]

theorem redo?_around_cons :
    (around past current (entry :: future) capacity).redo? =
      some (entry, around (current :: past) entry future capacity) := by
  have hforward : { around past current (entry :: future) capacity with
      index := (around past current (entry :: future) capacity).index.map (· + 1) } =
      around (current :: past) entry future capacity := by
    simp [around]
  simp [redo?, hforward]

end Around

/-- What is kept before a new entry is the past with the current state on it, less the oldest if there
is no room. -/
theorem keptBefore_around {past : List HistoryEntry} {current : HistoryEntry}
    {future : List HistoryEntry} {capacity : Nat}
    (hw : (around past current future capacity).WellFormed) :
    (around past current future capacity).keptBefore =
      (if capacity - 1 < (current :: past).length then (current :: past).dropLast
        else current :: past).reverse := by
  have hpos : 0 < capacity := hw.capacity_pos
  have hle : past.length + 1 + future.length ≤ capacity := by
    have h := hw.length_le
    simp only [around, List.length_append, List.length_reverse, List.length_cons] at h
    omega
  have hcapacity : (around past current future capacity).capacity = capacity := rfl
  rw [keptBefore, upToCurrent_around, List.length_reverse, hcapacity]
  split
  next hfull =>
    simp only [List.length_cons] at hfull ⊢
    have hone : past.length + 1 + 1 - capacity = 1 := by omega
    rw [hone, List.drop_one, List.tail_reverse]
  next hroom =>
    simp only [List.length_cons] at hroom ⊢
    have hzero : past.length + 1 + 1 - capacity = 0 := by omega
    rw [hzero, List.drop_zero]

/-- The log holds the entries of the stacks, oldest first, and is at the current one. -/
inductive SplitsInto : History → UndoStacks → Prop where
  | fresh (capacity : Nat) : SplitsInto { capacity } { capacity }
  | around (past : List HistoryEntry) (current : HistoryEntry) (future : List HistoryEntry)
      (capacity : Nat) :
      SplitsInto (around past current future capacity)
        { past, current := some current, future, capacity }

theorem splitsInto_withCapacity (capacity : Nat) :
    (withCapacity capacity).SplitsInto (.withCapacity capacity) :=
  .fresh (max capacity 1)

theorem SplitsInto.view_eq {h : History} {s : UndoStacks} (hs : h.SplitsInto s) :
    h.view = s.view := by
  cases hs with
  | fresh capacity => rfl
  | around past current future capacity =>
    have hsize : (History.around past current future capacity).size =
        past.length + 1 + future.length := by
      simp only [size, History.around, List.length_append, List.length_reverse, List.length_cons]
      omega
    simp [view, UndoStacks.view, hsize]
    rfl

theorem SplitsInto.record {h : History} {s : UndoStacks} (hs : h.SplitsInto s) (hw : h.WellFormed)
    (entry : HistoryEntry) :
    (h.record entry).1.SplitsInto (s.record entry).1 ∧ (h.record entry).2 = (s.record entry).2 := by
  have hcurrent : h.current? = s.current := congrArg HistoryView.current hs.view_eq
  have hrefused : (s.current.any fun current => current.IsSameState entry) = h.isCurrent entry := by
    rw [isCurrent, hcurrent]
    simp only [← HistoryEntry.sameState_iff, Bool.decide_eq_true]
  cases hc : h.isCurrent entry with
  | true =>
    rw [record_of_isCurrent hc]
    simp only [UndoStacks.record, hrefused, hc, if_true, and_true]
    exact hs
  | false =>
    rw [record_of_not_isCurrent hw hc]
    simp only [UndoStacks.record, hrefused, hc, Bool.false_eq_true, if_false]
    refine ⟨?_, trivial⟩
    cases hs with
    | fresh capacity =>
      simp only [keptBefore, upToCurrent, List.drop_nil, Option.toList_none, List.append_nil,
        List.dropLast_nil, ite_self]
      exact .around [] entry [] capacity
    | around past current future capacity =>
      rw [keptBefore_around hw, List.length_reverse]
      exact .around _ entry [] capacity

theorem SplitsInto.handle {h : History} {s : UndoStacks} (hs : h.SplitsInto s) (hw : h.WellFormed)
    (request : HistoryRequest) :
    (h.handle request).1.SplitsInto (s.handle request).1 ∧
      (h.handle request).2 = (s.handle request).2 := by
  cases request with
  | record entry =>
    obtain ⟨hnext, htaken⟩ := hs.record hw entry
    exact ⟨hnext, congrArg HistoryReply.recorded htaken⟩
  | undo =>
    cases hs with
    | fresh capacity => exact ⟨.fresh capacity, rfl⟩
    | around past current future capacity =>
      cases past with
      | nil =>
        simp only [History.handle, undo?_around_nil]
        exact ⟨.around [] current future capacity, rfl⟩
      | cons entry past =>
        simp only [History.handle, undo?_around_cons]
        exact ⟨.around past entry (current :: future) capacity, rfl⟩
  | redo =>
    cases hs with
    | fresh capacity => exact ⟨.fresh capacity, rfl⟩
    | around past current future capacity =>
      cases future with
      | nil =>
        simp only [History.handle, redo?_around_nil]
        exact ⟨.around past current [] capacity, rfl⟩
      | cons entry future =>
        simp only [History.handle, redo?_around_cons]
        exact ⟨.around (current :: past) entry future capacity, rfl⟩

theorem wellFormed_handle {h : History} (hw : h.WellFormed) (request : HistoryRequest) :
    (h.handle request).1.WellFormed := by
  cases request with
  | record entry => exact wellFormed_record hw entry
  | undo =>
    cases hu : h.undo? with
    | none => simpa [handle, hu] using hw
    | some found => simpa [handle, hu] using (movesTo_of_undo? hw hu).wellFormed
  | redo =>
    cases hr : h.redo? with
    | none => simpa [handle, hr] using hw
    | some found => simpa [handle, hr] using (movesTo_of_redo? hw hr).wellFormed

theorem wellFormed_run {h : History} (hw : h.WellFormed) (requests : List HistoryRequest) :
    (h.run requests).WellFormed := by
  induction requests generalizing h with
  | nil => exact hw
  | cons request rest ih => exact ih (wellFormed_handle hw request)

/-- Only a record touches the entries; going back and forward moves the index. -/
theorem handle_cases (h : History) (request : HistoryRequest) :
    (∃ entry, (h.handle request).1 = (h.record entry).1) ∨
      ∃ index, (h.handle request).1 = { h with index } := by
  cases request with
  | record entry => exact .inl ⟨entry, rfl⟩
  | undo =>
    right
    simp only [handle, undo?]
    split
    · cases ({ h with index := h.index.map (· - 1) } : History).current? <;> exact ⟨_, rfl⟩
    · exact ⟨h.index, rfl⟩
  | redo =>
    right
    simp only [handle, redo?]
    split
    · cases ({ h with index := h.index.map (· + 1) } : History).current? <;> exact ⟨_, rfl⟩
    · exact ⟨h.index, rfl⟩

theorem capacity_record (h : History) (entry : HistoryEntry) :
    (h.record entry).1.capacity = h.capacity := by
  unfold record
  split <;> rfl

theorem capacity_handle (h : History) (request : HistoryRequest) :
    (h.handle request).1.capacity = h.capacity := by
  rcases handle_cases h request with ⟨entry, he⟩ | ⟨index, he⟩
  · rw [he, capacity_record]
  · rw [he]

theorem capacity_run (h : History) (requests : List HistoryRequest) :
    (h.run requests).capacity = h.capacity := by
  induction requests generalizing h with
  | nil => rfl
  | cons request rest ih => exact (ih (h.handle request).1).trans (capacity_handle h request)

/-- No two neighbours in the log have the same text and equal positions. -/
def Moving (h : History) : Prop :=
  h.entries.IsChain fun before after => ¬ before.IsSameState after

theorem moving_withCapacity (capacity : Nat) : (withCapacity capacity).Moving := List.IsChain.nil

theorem getLast?_upToCurrent {h : History} (hw : h.WellFormed) :
    h.upToCurrent.getLast? = h.current? := by
  unfold upToCurrent current?
  cases hi : h.index with
  | none => rfl
  | some i =>
    have hlt := hw.index_lt i hi
    have hlength : (h.entries.take (i + 1)).length - 1 = i := by
      rw [List.length_take]
      omega
    simp only [Option.bind_some]
    rw [List.getLast?_eq_getElem?, hlength, List.getElem?_take_of_lt (Nat.lt_succ_self i)]

theorem Moving.record {h : History} (hm : h.Moving) (hw : h.WellFormed) (entry : HistoryEntry) :
    (h.record entry).1.Moving := by
  cases hc : h.isCurrent entry with
  | true => simpa [record_of_isCurrent hc] using hm
  | false =>
    rw [record_of_not_isCurrent hw hc]
    have hkept : h.keptBefore.IsChain fun before after => ¬ before.IsSameState after :=
      List.IsChain.infix hm h.keptBefore_infix
    refine hkept.append (List.isChain_singleton entry) ?_
    intro last hlast new hnew
    cases Option.some.inj hnew
    -- What stands right before the new entry is the state that the log was in.
    have hcurrent : h.current? = some last := by
      rw [← getLast?_upToCurrent hw]
      have hmem : last ∈ (h.upToCurrent.drop (h.upToCurrent.length + 1 - h.capacity)).getLast? := hlast
      rw [List.getLast?_drop] at hmem
      split at hmem
      · cases hmem
      · exact hmem
    rw [← HistoryEntry.sameState_iff]
    simpa [isCurrent, hcurrent] using hc

theorem Moving.handle {h : History} (hm : h.Moving) (hw : h.WellFormed)
    (request : HistoryRequest) : (h.handle request).1.Moving := by
  rcases handle_cases h request with ⟨entry, he⟩ | ⟨index, he⟩
  · rw [he]
    exact hm.record hw entry
  · rw [he]
    exact hm

theorem Moving.run {h : History} (hm : h.Moving) (hw : h.WellFormed)
    (requests : List HistoryRequest) : (h.run requests).Moving := by
  induction requests generalizing h with
  | nil => exact hm
  | cons request rest ih => exact ih (hm.handle hw request) (wellFormed_handle hw request)

/-- Nobody can tell the log from the two stacks, whatever is asked of them. Its index is always that of
an entry, it is never longer than its capacity, and every entry moves on from the one before it. -/
theorem transcript_eq_stacks (capacity : Nat) (requests : List HistoryRequest) :
    (withCapacity capacity).view = (UndoStacks.withCapacity capacity).view ∧
    transcript handle view (withCapacity capacity) requests =
      transcript UndoStacks.handle UndoStacks.view (.withCapacity capacity) requests ∧
    (∀ i ∈ ((withCapacity capacity).run requests).index,
      i < ((withCapacity capacity).run requests).size) ∧
    ((withCapacity capacity).run requests).size ≤ max capacity 1 ∧
    ((withCapacity capacity).run requests).Moving := by
  have hw := wellFormed_withCapacity capacity
  have hs := splitsInto_withCapacity capacity
  have hrun := wellFormed_run hw requests
  refine ⟨hs.view_eq, ?_, hrun.index_lt, ?_, ?_⟩
  · refine transcript_congr (R := fun h s => h.SplitsInto s ∧ h.WellFormed)
      (fun h s hr => hr.1.view_eq) ?_ ⟨hs, hw⟩ requests
    intro h s request hr
    obtain ⟨hnext, hreply⟩ := hr.1.handle hr.2 request
    exact ⟨⟨hnext, wellFormed_handle hr.2 request⟩, hreply⟩
  · have hle := hrun.length_le
    rw [capacity_run] at hle
    exact hle
  · exact (moving_withCapacity capacity).run hw requests

end History

end SchemaDiagram
