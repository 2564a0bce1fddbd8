import Mathlib.Data.List.Induction
import SchemaDiagram.Proofs.RequestOutcome
import SchemaDiagram.Proofs.StoredDiagram

namespace SchemaDiagram

namespace EditorEvent

def isEdit : EditorEvent → Bool
  | .edit _ _ => true
  | _ => false

/-- Whether the request asks for the text that waits. -/
def asksForText : EditorEvent → Bool
  | .tick _ => true
  | .flushEdit => true
  | _ => false

/-- Whether the request asks for the text that waits when it may be had: at once, or at a time that is not
before the deadline. -/
def isDue (deadline : Nat) : EditorEvent → Bool
  | .tick now => deadline ≤ now
  | .flushEdit => true
  | _ => false

/-- Whether the request, as far as its reply tells, drops the text that waits. -/
def dropsText : EditorEvent → EditorReply → Bool
  | .edit _ _, _ => true
  | .replaceSource _, _ => true
  | .undo, .flag b => b
  | .redo, .flag b => b
  | .restore, .flag b => b
  | _, _ => false

/-- Whether the request settles what becomes of a text that waits for the deadline. -/
def settles (deadline : Nat) (event : EditorEvent) (reply : EditorReply) : Bool :=
  event.isDue deadline || event.dropsText reply

/-- Whether the request brings a text of its own: a new one, one from the log, or the one that was saved. -/
def bringsText : EditorEvent → Bool
  | .replaceSource _ => true
  | .undo => true
  | .redo => true
  | .restore => true
  | _ => false

theorem not_settles {event : EditorEvent} (hedit : event.isEdit = false)
    (hasks : event.asksForText = false) (hbrings : event.bringsText = false) (deadline : Nat)
    (reply : EditorReply) : event.settles deadline reply = false := by
  cases event with
  | edit text now => cases hedit
  | tick now => cases hasks
  | flushEdit => cases hasks
  | replaceSource text => cases hbrings
  | undo => cases hbrings
  | redo => cases hbrings
  | restore => cases hbrings
  | _ => rfl

theorem not_settles_restore {reply : EditorReply} (h : reply ≠ .flag true) (deadline : Nat) :
    EditorEvent.restore.settles deadline reply = false := by
  cases reply with
  | done => rfl
  | flag b =>
    cases b with
    | true => exact absurd rfl h
    | false => rfl
  | refused error => rfl

theorem asksForText_of_isDue {event : EditorEvent} {deadline : Nat} (h : event.isDue deadline = true) :
    event.asksForText = true := by
  cases event with
  | tick now => rfl
  | flushEdit => rfl
  | _ => cases h

theorem dropsText_of_asksForText {event : EditorEvent} (h : event.asksForText = true)
    (reply : EditorReply) : event.dropsText reply = false := by
  cases event with
  | tick now => rfl
  | flushEdit => rfl
  | _ => cases h

end EditorEvent

theorem Debouncer.cancel_of_pending_eq_none {α : Type} {d : Debouncer α} (h : d.pending = none) :
    d.cancel = d := by
  cases d
  cases h
  rfl

namespace Editor

variable {σ : Type}

/-- The second editor has the same text, and the same text waits. -/
structure KeepsTexts (e next : Editor σ) : Prop where
  source : next.source = e.source
  pendingEdit : next.pendingEdit = e.pendingEdit

theorem KeepsTexts.refl (e : Editor σ) : e.KeepsTexts e := ⟨rfl, rfl⟩

theorem OnlyGesture.keepsTexts {e next : Editor σ} (h : e.OnlyGesture next) : e.KeepsTexts next := by
  obtain ⟨gesture, rfl⟩ := h
  exact ⟨rfl, rfl⟩

theorem keepsTexts_unlessRefused {e : Editor σ} {result : Except EditorError (Editor σ)}
    (hr : ∀ next, result = .ok next → e.OnlyGesture next) : e.KeepsTexts (e.unlessRefused result).1 := by
  cases result with
  | error error => exact .refl e
  | ok next => exact (hr next rfl).keepsTexts

theorem pending_of_keepsTexts {e next : Editor σ} (h : e.KeepsTexts next) {event : EditorEvent}
    {reply : EditorReply} (hsettles : ∀ deadline, event.settles deadline reply = false) :
    next.pendingEdit.pending =
      e.pendingEdit.pending.filter fun waiting => !event.settles waiting.2 reply := by
  rw [h.pendingEdit]
  cases e.pendingEdit.pending <;> simp [Option.filter_some, hsettles]

variable [KeyValueStore σ]

theorem keepsTexts_commitPositions (e : Editor σ) (result : Positions Float × Bool) :
    e.KeepsTexts (e.commitPositions result).1 := by
  unfold commitPositions
  split <;> exact ⟨rfl, rfl⟩

/-- A request that neither asks for the text that waits nor brings or queues one leaves both texts alone. -/
theorem keepsTexts_handle (e : Editor σ) {event : EditorEvent} (hedit : event.isEdit = false)
    (hasks : event.asksForText = false) (hbrings : event.bringsText = false) :
    e.KeepsTexts (e.handle event).1 := by
  cases event with
  | edit text now => cases hedit
  | tick now => cases hasks
  | flushEdit => cases hasks
  | replaceSource text => cases hbrings
  | beginDrag table => exact keepsTexts_unlessRefused fun _ hn => onlyGesture_beginDrag hn
  | dragTo position => exact (onlyGesture_dragTo e position).keepsTexts
  | beginPan => exact keepsTexts_unlessRefused fun _ hn => onlyGesture_beginPan hn
  | panBy shift => exact (onlyGesture_panBy e shift).keepsTexts
  | endGesture =>
    obtain ⟨hsource, hpending⟩ := keepsTexts_commitPositions e.cancelGesture e.gestureResult
    exact ⟨hsource, hpending⟩
  | cancelGesture => exact ⟨rfl, rfl⟩
  | resetLayout => exact keepsTexts_commitPositions e _
  | toggleLock table => exact ⟨rfl, rfl⟩
  | undo => cases hbrings
  | redo => cases hbrings
  | restore => cases hbrings

/-- Who asks for the text that waits gets it committed if it is due, and changes nothing else. -/
theorem handle_of_asksForText (e : Editor σ) {event : EditorEvent} (h : event.asksForText = true) :
    (∃ text deadline, e.pendingEdit.pending = some (text, deadline) ∧ event.isDue deadline = true ∧
      e.handle event = (e.cancelEdit.commitSource text, .flag true)) ∨
    ((∀ text deadline, e.pendingEdit.pending = some (text, deadline) → event.isDue deadline = false) ∧
      e.handle event = (e, .flag false)) := by
  cases hp : e.pendingEdit.pending with
  | none =>
    refine .inr ⟨by simp, ?_⟩
    cases event with
    | tick now =>
      have hpoll : e.pendingEdit.poll now = (e.pendingEdit, none) := by
        simp [Debouncer.poll, Debouncer.deadline?, hp]
      simp [handle, tick, hpoll, commitHandedOut, flagged]
    | flushEdit =>
      have hflush : e.pendingEdit.flush = (e.pendingEdit, none) := by
        simp [Debouncer.flush, Debouncer.value?, Debouncer.cancel_of_pending_eq_none hp, hp]
      simp [handle, flushEdit, hflush, commitHandedOut, flagged]
    | _ => cases h
  | some waiting =>
    obtain ⟨text, deadline⟩ := waiting
    have hflush : e.pendingEdit.flush = (e.pendingEdit.cancel, some text) := by
      simp [Debouncer.flush, Debouncer.value?, hp]
    have hdeadline : e.pendingEdit.deadline? = some deadline := by simp [Debouncer.deadline?, hp]
    cases event with
    | tick now =>
      by_cases hdue : deadline ≤ now
      · refine .inl ⟨text, deadline, rfl, by simpa [EditorEvent.isDue] using hdue, ?_⟩
        simp [handle, tick, Debouncer.poll_of_le hdeadline hdue, hflush, commitHandedOut, flagged,
          cancelEdit]
      · refine .inr ⟨?_, ?_⟩
        · intro _ _ he
          cases he
          simpa [EditorEvent.isDue] using hdue
        · simp [handle, tick, Debouncer.poll_of_lt hdeadline (Nat.not_le.mp hdue), commitHandedOut,
            flagged]
    | flushEdit =>
      refine .inl ⟨text, deadline, rfl, rfl, ?_⟩
      simp [handle, flushEdit, hflush, commitHandedOut, flagged, cancelEdit]
    | _ => cases h

theorem pending_goTo (e : Editor σ) (found : Option (HistoryEntry × History)) :
    (e.goTo found).1.pendingEdit.pending =
      e.pendingEdit.pending.filter fun _ => !(e.goTo found).2 := by
  cases found with
  | none => cases h : e.pendingEdit.pending <;> simp [goTo, Option.filter_some, h]
  | some found => simp [goTo, apply, persist, withSource, cancelGesture, cancelEdit, Debouncer.cancel]

theorem pending_restore (e : Editor σ) :
    (e.handle .restore).1.pendingEdit.pending = e.pendingEdit.pending.filter fun waiting =>
      !EditorEvent.restore.settles waiting.2 (e.handle .restore).2 := by
  rcases handle_restore_cases e with ⟨reply, hreply, he⟩ | ⟨saved, he⟩
  · rw [he]
    refine pending_of_keepsTexts (.refl e) fun deadline => ?_
    exact EditorEvent.not_settles_restore hreply deadline
  · -- What was saved is taken over, and the text that waits is dropped for it.
    rw [he]
    simp [adopt, record, withSource, cancelEdit, Debouncer.cancel, EditorEvent.settles,
      EditorEvent.isDue, EditorEvent.dropsText]

/-- A text that waits goes on waiting until a request settles it, and none comes in its place. -/
theorem pending_handle (e : Editor σ) {event : EditorEvent} (hedit : event.isEdit = false) :
    (e.handle event).1.pendingEdit.pending =
      e.pendingEdit.pending.filter fun waiting => !event.settles waiting.2 (e.handle event).2 := by
  cases hasks : event.asksForText with
  | true =>
    rcases handle_of_asksForText e hasks with ⟨text, deadline, hp, hdue, he⟩ | ⟨hearly, he⟩
    · rw [he, hp]
      simp [Option.filter_some, EditorEvent.settles, hdue, commitSource, persist, record, withSource,
        cancelEdit, Debouncer.cancel]
    · have hkept := EditorEvent.dropsText_of_asksForText hasks (.flag false)
      rw [he]
      cases hp : e.pendingEdit.pending with
      | none => rfl
      | some waiting =>
        simp [Option.filter_some, EditorEvent.settles, hearly waiting.1 waiting.2 hp, hkept]
  | false =>
    cases hbrings : event.bringsText with
    | false =>
      refine pending_of_keepsTexts (keepsTexts_handle e hedit hasks hbrings) fun deadline => ?_
      exact EditorEvent.not_settles hedit hasks hbrings deadline _
    | true =>
      cases event with
      | replaceSource text =>
        simp [handle, replaceSource, commitSource, persist, record, withSource, cancelEdit,
          Debouncer.cancel, EditorEvent.settles, EditorEvent.dropsText]
      | undo => exact pending_goTo e e.history.undo?
      | redo => exact pending_goTo e e.history.redo?
      | restore => exact pending_restore e
      | _ => cases hbrings

/-- Whether some request of the run settles what becomes of a text that waits for the deadline. -/
def settlesText (e : Editor σ) (deadline : Nat) : List EditorEvent → Bool
  | [] => false
  | event :: rest =>
    event.settles deadline (e.handle event).2 || (e.handle event).1.settlesText deadline rest

theorem settlesText_append (e : Editor σ) (deadline : Nat) (first rest : List EditorEvent) :
    e.settlesText deadline (first ++ rest) =
      (e.settlesText deadline first || (e.run first).settlesText deadline rest) := by
  induction first generalizing e with
  | nil => rfl
  | cons event first ih => simp only [List.cons_append, settlesText, ih, run_cons, Bool.or_assoc]

/-- An edit puts its own text in the place of one that waits. -/
theorem settlesText_of_isEdit {e : Editor σ} {events : List EditorEvent} {event : EditorEvent}
    (hm : event ∈ events) (h : event.isEdit = true) (deadline : Nat) :
    e.settlesText deadline events = true := by
  induction events generalizing e with
  | nil => cases hm
  | cons first rest ih =>
    rcases List.mem_cons.mp hm with rfl | hm
    · cases event with
      | edit text now => simp [settlesText, EditorEvent.settles, EditorEvent.dropsText]
      | _ => cases h
    · simp [settlesText, ih hm]

theorem pending_run {e : Editor σ} {events : List EditorEvent}
    (hedits : ∀ event ∈ events, event.isEdit = false) :
    (∀ text deadline, e.pendingEdit.pending = some (text, deadline) →
      (e.run events).pendingEdit.pending =
        if e.settlesText deadline events = true then none else some (text, deadline)) ∧
    (e.pendingEdit.pending = none → (e.run events).pendingEdit.pending = none) := by
  induction events generalizing e with
  | nil => exact ⟨fun text deadline hp => by simp [hp, settlesText], fun hp => hp⟩
  | cons event rest ih =>
    obtain ⟨hwaits, hnone⟩ := ih (e := (e.handle event).1) fun other hm =>
      hedits other (List.mem_cons_of_mem event hm)
    have hstep := pending_handle e (hedits event List.mem_cons_self)
    refine ⟨?_, ?_⟩
    · intro text deadline hp
      rw [hp, Option.filter_some] at hstep
      cases hsettles : event.settles deadline (e.handle event).2 with
      | true =>
        rw [run_cons, hnone (by simpa [hsettles] using hstep)]
        simp [settlesText, hsettles]
      | false =>
        rw [run_cons, hwaits text deadline (by simpa [hsettles] using hstep)]
        simp [settlesText, hsettles]
    · intro hp
      rw [hp, Option.filter_none] at hstep
      exact hnone hstep

theorem window_goTo (e : Editor σ) (found : Option (HistoryEntry × History)) :
    (e.goTo found).1.pendingEdit.window = e.pendingEdit.window := by
  cases found <;> rfl

theorem window_restore (e : Editor σ) :
    (e.handle .restore).1.pendingEdit.window = e.pendingEdit.window := by
  rcases handle_restore_cases e with ⟨_, _, he⟩ | ⟨saved, he⟩
  · rw [he]
  · rw [he]
    rfl

theorem window_handle (e : Editor σ) (event : EditorEvent) :
    (e.handle event).1.pendingEdit.window = e.pendingEdit.window := by
  cases event with
  | edit text now => rfl
  | replaceSource text => rfl
  | undo => exact window_goTo e e.history.undo?
  | redo => exact window_goTo e e.history.redo?
  | restore => exact window_restore e
  | tick now =>
    rcases handle_of_asksForText e (rfl : (EditorEvent.tick now).asksForText = true) with ⟨_, _, _, _, he⟩ | ⟨_, he⟩
    · rw [he]
      rfl
    · rw [he]
  | flushEdit =>
    rcases handle_of_asksForText e (rfl : EditorEvent.flushEdit.asksForText = true) with ⟨_, _, _, _, he⟩ | ⟨_, he⟩
    · rw [he]
      rfl
    · rw [he]
  | _ => exact congrArg Debouncer.window (keepsTexts_handle e rfl rfl rfl).pendingEdit

theorem window_run (e : Editor σ) (events : List EditorEvent) :
    (e.run events).pendingEdit.window = e.pendingEdit.window := by
  induction events generalizing e with
  | nil => rfl
  | cons event rest ih => rw [run_cons, ih, window_handle]

/-- What a commit of the text makes of an editor: the text is taken with its schema, and with a place for each
of its tables; this state is logged as an edit, is where the log is then, and is saved. No text waits any
longer, and nothing else has changed. -/
structure TakesText (e : Editor σ) (text : String) (next : Editor σ) : Prop where
  source : next.source = text
  schema : next.schema = Schema.ofSource text
  positions : next.positions = e.positions.placeNew (Schema.ofSource text) e.settings.grid
  history : next.history = (e.history.record ⟨text, next.positions, .edit⟩).1
  current : ∃ current, next.history.current? = some current ∧
    current.Agrees ⟨text, next.positions, .edit⟩
  store : ∃ value : Json, value.HoldsDiagram text next.positions ∧
    next.store = (KeyValueStore.save e.store e.settings.diagramKey value).1
  pending : next.pendingEdit.pending = none
  gesture : next.gesture = e.gesture
  locks : next.locks = e.locks
  settings : next.settings = e.settings

theorem takesText_commitSource {e : Editor σ} (hw : e.history.WellFormed) (text : String) :
    e.TakesText text (e.cancelEdit.commitSource text) where
  source := rfl
  schema := rfl
  positions := rfl
  history := rfl
  current := History.exists_current_record hw _
  store := ⟨_, SavedDiagram.holdsDiagram_sorted text _, rfl⟩
  pending := rfl
  gesture := rfl
  locks := rfl
  settings := rfl

/-- In an editor in which a text has just been queued, the request that comes after the run commits that
text: no other one has been queued since, the request asks for a text and answers that it has got one, and
the editor has taken the text then. -/
structure CommitsQueued (queued : Editor σ) (text : String) (during : List EditorEvent)
    (event : EditorEvent) : Prop where
  alone : ∀ other ∈ during, other.isEdit = false
  asks : event.asksForText = true
  reply : ((queued.run during).handle event).2 = .flag true
  takes : (queued.run during).TakesText text ((queued.run during).handle event).1

/-- Who asks in time for the text that waits commits it. -/
theorem commitsQueued_of_pending {queued : Editor σ} (hs : queued.Settled) {text : String}
    {deadline : Nat} {during : List EditorEvent} (halone : ∀ other ∈ during, other.isEdit = false)
    (hp : (queued.run during).pendingEdit.pending = some (text, deadline)) {event : EditorEvent}
    (hdue : event.isDue deadline = true) : queued.CommitsQueued text during event := by
  have hasks := EditorEvent.asksForText_of_isDue hdue
  rcases handle_of_asksForText (queued.run during) hasks with ⟨other, time, hwaits, _, he⟩ | ⟨hearly, _⟩
  · rw [hp] at hwaits
    cases hwaits
    refine ⟨halone, hasks, by rw [he], ?_⟩
    rw [he]
    exact takesText_commitSource (hs.run during).log_wellFormed text
  · rw [hearly text deadline hp] at hdue
    cases hdue

theorem commitsQueued_iff {queued : Editor σ} (hs : queued.Settled) {text : String} {deadline : Nat}
    (hp : queued.pendingEdit.pending = some (text, deadline)) (during : List EditorEvent)
    (event : EditorEvent) :
    queued.CommitsQueued text during event ↔
      queued.settlesText deadline during = false ∧ event.isDue deadline = true := by
  constructor
  · intro h
    have hrun := (pending_run h.alone).1 text deadline hp
    rcases handle_of_asksForText (queued.run during) h.asks with ⟨other, time, hwaits, hdue, _⟩ | ⟨_, he⟩
    · rw [hwaits] at hrun
      split at hrun
      next => cases hrun
      next hopen =>
        cases hrun
        exact ⟨Bool.eq_false_iff.mpr hopen, hdue⟩
    · have hreply := h.reply
      rw [he] at hreply
      cases hreply
  · rintro ⟨hopen, hdue⟩
    have halone : ∀ other ∈ during, other.isEdit = false := by
      intro other hm
      by_contra hedit
      rw [settlesText_of_isEdit hm (by simpa using hedit)] at hopen
      cases hopen
    have hrun := (pending_run halone).1 text deadline hp
    rw [hopen, if_neg Bool.false_ne_true] at hrun
    exact commitsQueued_of_pending hs halone hrun hdue

/-- After a commit nothing is left to be asked for, until another text is queued. -/
theorem CommitsQueued.handle_later {queued : Editor σ} {text : String} {during : List EditorEvent}
    {event : EditorEvent} (h : queued.CommitsQueued text during event) {rest : List EditorEvent}
    (hrest : ∀ other ∈ rest, other.isEdit = false) {later : EditorEvent}
    (hlater : later.asksForText = true) :
    (queued.run (during ++ event :: rest)).handle later =
      (queued.run (during ++ event :: rest), .flag false) := by
  have hnone : (queued.run (during ++ event :: rest)).pendingEdit.pending = none := by
    rw [run_append, run_cons]
    exact (pending_run hrest).2 h.takes.pending
  rcases handle_of_asksForText (queued.run (during ++ event :: rest)) hlater with
    ⟨other, time, hwaits, _, _⟩ | ⟨_, he⟩
  · rw [hnone] at hwaits
    cases hwaits
  · exact he

theorem CommitsQueued.not_again {queued : Editor σ} {text : String} {during : List EditorEvent}
    {event : EditorEvent} (h : queued.CommitsQueued text during event) (rest : List EditorEvent)
    (later : EditorEvent) : ¬ queued.CommitsQueued text (during ++ event :: rest) later := by
  intro hagain
  have hrest : ∀ other ∈ rest, other.isEdit = false := fun other hm =>
    hagain.alone other (List.mem_append_right during (List.mem_cons_of_mem event hm))
  have hreply := hagain.reply
  rw [h.handle_later hrest hagain.asks] at hreply
  cases hreply

/-- A run queues no text at all, or it queues a last one. -/
theorem exists_last_edit (events : List EditorEvent) :
    (∀ event ∈ events, event.isEdit = false) ∨
      ∃ before text now during, events = before ++ .edit text now :: during ∧
        ∀ event ∈ during, event.isEdit = false := by
  induction events using List.reverseRecOn with
  | nil => exact .inl fun event hm => by cases hm
  | append_singleton events event ih =>
    cases hedit : event.isEdit with
    | true =>
      cases event with
      | edit text now => exact .inr ⟨events, text, now, [], rfl, fun event hm => by cases hm⟩
      | _ => cases hedit
    | false =>
      rcases ih with hnone | ⟨before, text, now, during, rfl, halone⟩
      · refine .inl fun other hm => ?_
        rcases List.mem_append.mp hm with hm | hm
        · exact hnone other hm
        · rwa [List.mem_singleton.mp hm]
      · refine .inr ⟨before, text, now, during ++ [event], by simp, fun other hm => ?_⟩
        rcases List.mem_append.mp hm with hm | hm
        · exact halone other hm
        · rwa [List.mem_singleton.mp hm]

/-- What is committed on request is the text that was queued last. -/
theorem exists_commitsQueued {e : Editor σ} (hs : e.Settled) (hnone : e.pendingEdit.pending = none)
    {events : List EditorEvent} {event : EditorEvent} (hasks : event.asksForText = true)
    (hreply : ((e.run events).handle event).2 = .flag true) :
    ∃ before text now during, events = before ++ .edit text now :: during ∧
      ((e.run before).edit text now).CommitsQueued text during event := by
  rcases handle_of_asksForText (e.run events) hasks with ⟨text, deadline, hp, hdue, _⟩ | ⟨_, he⟩
  · rcases exists_last_edit events with hedits | ⟨before, last, now, during, rfl, halone⟩
    · rw [(pending_run hedits).2 hnone] at hp
      cases hp
    · refine ⟨before, last, now, during, rfl, ?_⟩
      have hqueued : ((e.run before).edit last now).Settled :=
        (hs.run before).of_keeps (keeps_edit _ last now)
      have hrun := (pending_run (e := (e.run before).edit last now) halone).1 last _ rfl
      rw [run_append, run_cons] at hp
      change (((e.run before).edit last now).run during).pendingEdit.pending = _ at hp
      rw [hp] at hrun
      split at hrun
      next => cases hrun
      next =>
        cases hrun
        exact commitsQueued_of_pending hqueued halone hp hdue
  · rw [he] at hreply
    cases hreply

/-- A text that was queued is committed just by the request that settles what becomes of it, if this one
asks for it in time, and by no other after that: who asks later, when no other text has been queued, gets none
and changes nothing. Whatever a tick or a flush commits was queued last, and not too short a time before. The
text of the editor changes in no other way, but for requests that bring one. -/
theorem queued_text_committed (store : σ) (settings : EditorSettings) :
    (∀ before text now during event,
      let queued := ((new store settings).run before).edit text now
      let deadline := now + settings.debounceMs
      (queued.CommitsQueued text during event ↔
        queued.settlesText deadline during = false ∧ event.isDue deadline = true) ∧
      (queued.CommitsQueued text during event → ∀ rest later,
        ¬ queued.CommitsQueued text (during ++ event :: rest) later ∧
        ((∀ other ∈ rest, other.isEdit = false) → later.asksForText = true →
          (queued.run (during ++ event :: rest)).handle later =
            (queued.run (during ++ event :: rest), .flag false)))) ∧
    (∀ events event, event.asksForText = true →
      (((new store settings).run events).handle event).2 = .flag true →
        ∃ before text now during, events = before ++ .edit text now :: during ∧
          (((new store settings).run before).edit text now).CommitsQueued text during event ∧
          event.isDue (now + settings.debounceMs) = true) ∧
    ∀ events event,
      (((new store settings).run events).handle event).1.source ≠ ((new store settings).run events).source →
        event.bringsText = true ∨
          event.asksForText = true ∧ (((new store settings).run events).handle event).2 = .flag true := by
  have hsettled : ∀ before text now, (((new store settings).run before).edit text now).Settled :=
    fun before text now =>
      ((settled_new store settings).run before).of_keeps (keeps_edit _ text now)
  have hqueued : ∀ before text now,
      (((new store settings).run before).edit text now).pendingEdit.pending =
        some (text, now + settings.debounceMs) := by
    intro before text now
    have hwindow : ((new store settings).run before).pendingEdit.window = settings.debounceMs :=
      window_run _ before
    simp [edit, Debouncer.schedule, hwindow]
  refine ⟨?_, ?_, ?_⟩
  · intro before text now during event queued deadline
    have hp : queued.pendingEdit.pending = some (text, deadline) := hqueued before text now
    refine ⟨commitsQueued_iff (hsettled before text now) hp during event, fun h rest later => ?_⟩
    exact ⟨h.not_again rest later, fun hrest hlater => h.handle_later hrest hlater⟩
  · intro events event hasks hreply
    obtain ⟨before, text, now, during, rfl, hcommits⟩ :=
      exists_commitsQueued (settled_new store settings) rfl hasks hreply
    have hiff := commitsQueued_iff (hsettled before text now) (hqueued before text now) during event
    exact ⟨before, text, now, during, rfl, hcommits, (hiff.mp hcommits).2⟩
  · intro events event hchanged
    cases hbrings : event.bringsText with
    | true => exact .inl rfl
    | false =>
      cases hasks : event.asksForText with
      | true =>
        rcases handle_of_asksForText ((new store settings).run events) hasks with
          ⟨_, _, _, _, he⟩ | ⟨_, he⟩
        · exact .inr ⟨rfl, by rw [he]⟩
        · rw [he] at hchanged
          exact absurd rfl hchanged
      | false =>
        cases hedit : event.isEdit with
        | true =>
          cases event with
          | edit text now => exact absurd rfl hchanged
          | _ => cases hedit
        | false => exact absurd (keepsTexts_handle _ hedit hasks hbrings).source hchanged

/-- The clock goes back, a tick comes too early, and an undo has nothing to go back to; the text that was
queued last is committed all the same, and not the one before. -/
theorem queued_text_committed_afterEarlyTick :
    let queued := ((new MemoryStore.empty EditorSettings.standard).run
      [.edit "Table a \x7b id int \x7d" 900]).edit "Table b \x7b id int \x7d" 50
    let next := queued.run [.tick 349, .undo, .beginPan, .tick 350]
    queued.CommitsQueued "Table b \x7b id int \x7d" [.tick 349, .undo, .beginPan] (.tick 350) ∧
      (next.source = "Table b \x7b id int \x7d" ∧ next.schema.tableNames = ["b"] ∧
        next.positions.keys = ["b"] ∧ next.history.entries.length = 1) ∧
      ¬ queued.CommitsQueued "Table b \x7b id int \x7d" [.tick 349, .undo, .beginPan, .tick 350]
        .flushEdit ∧
      next.handle .flushEdit = (next, .flag false) := by
  intro queued next
  have hopen : queued.settlesText 350 [.tick 349, .undo, .beginPan] = false := by decide +kernel
  obtain ⟨hiff, honce⟩ := (queued_text_committed MemoryStore.empty EditorSettings.standard).1
    [.edit "Table a \x7b id int \x7d" 900] "Table b \x7b id int \x7d" 50
    [.tick 349, .undo, .beginPan] (.tick 350)
  have hcommits := hiff.mpr ⟨hopen, by decide⟩
  obtain ⟨hagain, hlater⟩ := honce hcommits [] .flushEdit
  exact ⟨hcommits, ⟨hcommits.takes.source, by decide +kernel⟩, hagain,
    hlater (fun _ hm => by cases hm) rfl⟩

end Editor

end SchemaDiagram
