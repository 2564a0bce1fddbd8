import SchemaDiagram.Editor

namespace SchemaDiagram

/-- What the user and the clock can ask of an editor. -/
inductive EditorEvent where
  | edit (text : String) (now : Nat)
  | tick (now : Nat)
  | flushEdit
  | replaceSource (text : String)
  | beginDrag (table : String)
  | dragTo (position : Position Float)
  | beginPan
  | panBy (shift : Position Float)
  | endGesture
  | cancelGesture
  | resetLayout
  | toggleLock (table : String)
  | undo
  | redo
  | restore
  deriving Inhabited

inductive EditorReply where
  | done
  | flag (b : Bool)
  | refused (error : EditorError)
  deriving DecidableEq, Repr, Inhabited

namespace Editor

variable {σ : Type}

def flagged (result : Editor σ × Bool) : Editor σ × EditorReply := (result.1, .flag result.2)

/-- The editor after a request that may be refused. A refusal changes nothing. -/
def unlessRefused (e : Editor σ) : Except EditorError (Editor σ) → Editor σ × EditorReply
  | .ok next => (next, .done)
  | .error error => (e, .refused error)

variable [KeyValueStore σ]

def handle (e : Editor σ) : EditorEvent → Editor σ × EditorReply
  | .edit text now => (e.edit text now, .done)
  | .tick now => flagged (e.tick now)
  | .flushEdit => flagged e.flushEdit
  | .replaceSource text => (e.replaceSource text, .done)
  | .beginDrag table => e.unlessRefused (e.beginDrag table)
  | .dragTo position => flagged (e.dragTo position)
  | .beginPan => e.unlessRefused e.beginPan
  | .panBy shift => flagged (e.panBy shift)
  | .endGesture => flagged e.endGesture
  | .cancelGesture => (e.cancelGesture, .done)
  | .resetLayout => flagged e.resetLayout
  | .toggleLock table => flagged (e.toggleLock table)
  | .undo => flagged e.undo
  | .redo => flagged e.redo
  | .restore =>
    match e.restore with
    | .ok result => flagged result
    | .error error => (e, .refused error)

def run (e : Editor σ) (events : List EditorEvent) : Editor σ :=
  events.foldl (fun e event => (e.handle event).1) e

@[simp] theorem run_nil (e : Editor σ) : e.run [] = e := rfl

@[simp] theorem run_cons (e : Editor σ) (event : EditorEvent) (rest : List EditorEvent) :
    e.run (event :: rest) = (e.handle event).1.run rest := rfl

theorem run_append (e : Editor σ) (first rest : List EditorEvent) :
    e.run (first ++ rest) = (e.run first).run rest := by
  simp [run]

end Editor

end SchemaDiagram
