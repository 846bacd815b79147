import StagedWorkflow.Heap.Request
import StagedWorkflow.Token
import StagedWorkflow.Log
/-!
# The world of a run

What a run reads and changes besides the workflow itself: the heap of
stores, the signals of cancellation, and the journal of everything that was
logged or reported, in order. A record is written to the journal together
with the logger it was sent to, whatever that logger does with it. Nothing
but the journal notices a record (`World.notifyAll_eq`).
-/

namespace StagedWorkflow

/-- An entry of the journal. -/
inductive Event where
  /-- A record was sent to a logger. -/
  | logged (logger : Logger) (record : Record)
  /-- An action reported an answer. -/
  | reported (who : String) (answer : Datum)
  /-- A layer around the run was entered. -/
  | entered (layer : String)
  /-- A layer reported an answer. -/
  | noted (layer : String) (answer : Datum)
  /-- What a layer called came back. -/
  | returned (layer : String) (outcome : Outcome)
  /-- A layer was left. -/
  | left (layer : String)

/-- The surroundings of a run. -/
structure World where
  heap : Heap
  signals : Signals
  journal : List Event

namespace World

variable {α : Type}

/-- No stores, no tokens and nothing written down, at a time. -/
def startingAt (time : Nat) : World :=
  ⟨.empty, .startingAt time, []⟩

/-- Writes an event down. -/
def write (w : World) (event : Event) : World :=
  { w with journal := w.journal ++ [event] }

/-- Sends a notice to a logger. -/
def notify (w : World) (logger : Logger) (notice : Notice) : World :=
  w.write (.logged logger (.engine notice))

/-- Sends notices to a logger, in order. -/
def notifyAll (w : World) (logger : Logger) (notices : List Notice) : World :=
  notices.foldl (notify · logger ·) w

/-- Plays a history on the heap. -/
def play (w : World) (history : Heap.History α) : α × World :=
  let (a, heap) := history.play w.heap
  (a, { w with heap })

/-- Makes one request to the heap. -/
def ask (w : World) (r : Heap.Request) : Heap.Answer r × World :=
  let (a, heap) := Heap.answer r w.heap
  (a, { w with heap })

/-- Whether a token is done, and why. -/
def check (w : World) (token : Token) : Except CancelReason Unit × World :=
  let (status, signals) := w.signals.check token
  (status, { w with signals })

/-- Cancels a token. -/
def cancel (w : World) (token : Token) : World :=
  { w with signals := w.signals.cancel token }

@[simp] theorem heap_notify {w : World} {logger : Logger} {notice : Notice} :
    (w.notify logger notice).heap = w.heap := rfl

@[simp] theorem signals_notify {w : World} {logger : Logger} {notice : Notice} :
    (w.notify logger notice).signals = w.signals := rfl

@[simp] theorem journal_notify {w : World} {logger : Logger} {notice : Notice} :
    (w.notify logger notice).journal = w.journal ++ [.logged logger (.engine notice)] := rfl

/-- **Notices only add to the journal**, each at its end. -/
theorem notifyAll_eq {w : World} {logger : Logger} {notices : List Notice} :
    w.notifyAll logger notices =
      { w with journal := w.journal ++ notices.map (.logged logger <| .engine ·) } := by
  unfold notifyAll
  induction notices generalizing w with
  | nil => simp
  | cons notice rest ih =>
    rw [List.foldl_cons, ih]
    simp

end World

end StagedWorkflow
