import SchemaDiagram.Proofs.EditorReach

namespace SchemaDiagram

/-- Whether a request commits a state, as far as its reply tells. -/
def EditorEvent.commits : EditorEvent → EditorReply → Bool
  | .replaceSource _, _ => true
  | .tick _, .flag b => b
  | .flushEdit, .flag b => b
  | .endGesture, .flag b => b
  | .resetLayout, .flag b => b
  | .undo, .flag b => b
  | .redo, .flag b => b
  | _, _ => false

namespace Editor

variable {σ : Type}

structure SameSurroundings (e next : Editor σ) : Prop where
  settings : next.settings = e.settings
  store : next.store = e.store
  locks : next.locks = e.locks

theorem OnlyGesture.sameSurroundings {e next : Editor σ} (h : e.OnlyGesture next) :
    e.SameSurroundings next := by
  obtain ⟨gesture, rfl⟩ := h
  exact ⟨rfl, rfl, rfl⟩

variable [KeyValueStore σ]

/-- What a request can come to, with the flag whether a state is committed. -/
inductive Outcome (e : Editor σ) : Bool → Editor σ → Prop where
  | rest {next : Editor σ} : e.Keeps next → e.SameSurroundings next → Outcome e false next
  /-- Only a state that is committed is saved. -/
  | commit {next : Editor σ} : e.SameSurroundings next → Outcome e true next.persist
  | lock (table : String) : Outcome e false (e.toggleLock table).1
  /-- What is taken over was saved before. -/
  | adopt {value : Json} {saved : SavedDiagram} :
      KeyValueStore.load e.store e.settings.diagramKey = .ok (some value) →
      SavedDiagram.ofJson? value = some saved → Outcome e false (e.adopt saved)

theorem OnlyGesture.outcome {e next : Editor σ} (h : e.OnlyGesture next) : Outcome e false next :=
  .rest h.keeps h.sameSurroundings

theorem outcome_commitHandedOut (e : Editor σ) (handedOut : Debouncer String × Option String) :
    Outcome e (e.commitHandedOut handedOut).2 (e.commitHandedOut handedOut).1 := by
  unfold commitHandedOut
  split
  next => exact .commit ⟨rfl, rfl, rfl⟩
  next => exact .rest ⟨rfl, rfl, rfl, rfl⟩ ⟨rfl, rfl, rfl⟩

theorem outcome_commitPositions {e base : Editor σ} (hb : e.OnlyGesture base)
    {result : Positions Float × Bool} (hr : Positions.IsChange e.positions result) :
    Outcome e (base.commitPositions result).2 (base.commitPositions result).1 := by
  obtain ⟨gesture, rfl⟩ := hb
  unfold commitPositions
  split
  next => exact .commit ⟨rfl, rfl, rfl⟩
  next hf =>
    have hp : result.1 = e.positions := hr.unchanged (Bool.eq_false_iff.mpr hf)
    exact .rest ⟨rfl, rfl, hp, rfl⟩ ⟨rfl, rfl, rfl⟩

theorem outcome_goTo (e : Editor σ) (found : Option (HistoryEntry × History)) :
    Outcome e (e.goTo found).2 (e.goTo found).1 := by
  cases found with
  | none => exact (OnlyGesture.refl e).outcome
  | some found => exact .commit ⟨rfl, rfl, rfl⟩

theorem outcome_unlessRefused {e : Editor σ} {result : Except EditorError (Editor σ)}
    (hr : ∀ next, result = .ok next → e.OnlyGesture next) :
    Outcome e false (e.unlessRefused result).1 := by
  cases result with
  | error error => exact (OnlyGesture.refl e).outcome
  | ok next => exact (hr next rfl).outcome

theorem outcome_restore {e : Editor σ} {result : Editor σ × Bool} (h : e.restore = .ok result) :
    Outcome e false result.1 := by
  rcases exists_of_restore h with rfl | ⟨value, saved, hvalue, hsaved, rfl⟩
  · exact (OnlyGesture.refl e).outcome
  · exact .adopt hvalue hsaved

/-- A request to restore changes nothing, or something that was saved is taken over. -/
theorem handle_restore_cases (e : Editor σ) :
    (∃ reply, reply ≠ .flag true ∧ e.handle .restore = (e, reply)) ∨
      ∃ saved, e.handle .restore = (e.adopt saved, .flag true) := by
  cases hr : e.restore with
  | error error => exact .inl ⟨.refused error, by simp, by simp [handle, hr]⟩
  | ok result =>
    rcases exists_of_restore hr with rfl | ⟨_, saved, _, _, rfl⟩
    · exact .inl ⟨.flag false, by simp, by simp [handle, hr, flagged]⟩
    · exact .inr ⟨saved, by simp [handle, hr, flagged]⟩

theorem outcome_handle (e : Editor σ) (event : EditorEvent) :
    Outcome e (event.commits (e.handle event).2) (e.handle event).1 := by
  cases event with
  | edit text now => exact .rest (keeps_edit e text now) ⟨rfl, rfl, rfl⟩
  | tick now => exact outcome_commitHandedOut e (e.pendingEdit.poll now)
  | flushEdit => exact outcome_commitHandedOut e e.pendingEdit.flush
  | replaceSource text => exact .commit ⟨rfl, rfl, rfl⟩
  | beginDrag table => exact outcome_unlessRefused fun _ hn => onlyGesture_beginDrag hn
  | dragTo position => exact (onlyGesture_dragTo e position).outcome
  | beginPan => exact outcome_unlessRefused fun _ hn => onlyGesture_beginPan hn
  | panBy shift => exact (onlyGesture_panBy e shift).outcome
  | endGesture => exact outcome_commitPositions (onlyGesture_cancelGesture e) (isChange_gestureResult e)
  | cancelGesture => exact (onlyGesture_cancelGesture e).outcome
  | resetLayout =>
    exact outcome_commitPositions (.refl e) (Positions.isChange_stackVertically e.positions e.schema
      TextMetrics.standard e.settings.resetPadding)
  | toggleLock table => exact .lock table
  | undo => exact outcome_goTo e e.history.undo?
  | redo => exact outcome_goTo e e.history.redo?
  | restore =>
    simp only [Editor.handle]
    split
    next result hr => exact outcome_restore hr
    next => exact (OnlyGesture.refl e).outcome

theorem Outcome.settings {e next : Editor σ} {committed : Bool} (h : Outcome e committed next) :
    next.settings = e.settings := by
  cases h with
  | rest _ hs => exact hs.settings
  | commit hs => exact hs.settings
  | lock table => rfl
  | adopt => rfl

theorem settings_run (e : Editor σ) (events : List EditorEvent) :
    (e.run events).settings = e.settings := by
  induction events generalizing e with
  | nil => rfl
  | cons event rest ih =>
    rw [run_cons, ih]
    exact (outcome_handle e event).settings

/-- Whether some request of the run commits a state. -/
def hasCommitted (e : Editor σ) : List EditorEvent → Bool
  | [] => false
  | event :: rest => event.commits (e.handle event).2 || (e.handle event).1.hasCommitted rest

end Editor

/-- The store after some saves, one after the other, whether or not it took them. -/
def saveAll {σ : Type} [KeyValueStore σ] (store : σ) (writes : List (String × Json)) : σ :=
  writes.foldl (fun store write => (KeyValueStore.save store write.1 write.2).1) store

theorem MemoryStore.load_saveAll {key : String} {writes : List (String × Json)}
    (h : ∀ write ∈ writes, write.1 ≠ key) (store : MemoryStore) :
    (saveAll store writes).load key = store.load key := by
  induction writes generalizing store with
  | nil => rfl
  | cons write rest ih =>
    have hothers : ∀ other ∈ rest, other.1 ≠ key := fun other hm =>
      h other (List.mem_cons_of_mem write hm)
    have hrest := ih hothers (store.save write.1 write.2)
    rw [load_save, if_neg (h write List.mem_cons_self)] at hrest
    exact hrest

namespace Editor

variable {σ : Type} [KeyValueStore σ]

theorem Outcome.exists_writes {e next : Editor σ} {committed : Bool} (h : Outcome e committed next) :
    ∃ writes : List (String × Json),
      (∀ write ∈ writes, write.1 = e.settings.diagramKey ∨ write.1 = e.settings.locksKey) ∧
        next.store = saveAll e.store writes := by
  cases h with
  | rest _ hs => exact ⟨[], by simp, hs.store⟩
  | @commit next hs =>
    refine ⟨[(next.settings.diagramKey, next.saved.toJson.sorted)], ?_, ?_⟩
    · simp [hs.settings]
    · rw [← hs.store]
      rfl
  | lock table =>
    exact ⟨[(e.settings.locksKey, (e.locks.toggle table).toJson)], by simp, rfl⟩
  | adopt => exact ⟨[], by simp, rfl⟩

/-- Whatever is asked of an editor, it writes nothing under other keys and removes nothing. -/
theorem exists_writes_run (e : Editor σ) (events : List EditorEvent) :
    ∃ writes : List (String × Json),
      (∀ write ∈ writes, write.1 = e.settings.diagramKey ∨ write.1 = e.settings.locksKey) ∧
        (e.run events).store = saveAll e.store writes := by
  induction events generalizing e with
  | nil => exact ⟨[], by simp, rfl⟩
  | cons event rest ih =>
    have hfirst := outcome_handle e event
    obtain ⟨first, hown, hstore⟩ := hfirst.exists_writes
    obtain ⟨others, hothers, hrun⟩ := ih (e.handle event).1
    rw [hfirst.settings] at hothers
    refine ⟨first ++ others, ?_, ?_⟩
    · intro write hm
      rcases List.mem_append.mp hm with hm | hm
      · exact hown write hm
      · exact hothers write hm
    · rw [run_cons, hrun, hstore]
      exact List.foldl_append.symm

end Editor

end SchemaDiagram
