import TransferBoard.Board.Session
import TransferBoard.Proofs.Board.Sections
import TransferBoard.Proofs.Board.Flags

/-!
# The keys change hands

While transfers go on, the control channel takes the keys: a thread of its own that looks at a
flag, looks for a key, lets it take its effect and sleeps.  At the end the session lowers the
flag, waits until the thread is gone and has the keys from then on.  The flag may be lowered
wherever the thread is in its loop, and keys may be pressed at any time.

Everything between two moments at which a thread looks at something shared is one step here.
What each of them takes is entered in a book.

## Main definitions

* `LoopStage`, `SessionStage` — where the control channel and the session are.
* `KeyBook` — the keys there have been, and who took which.
* `Handover`, `HandoverMove` — the two of them with the keys, and what happens next.
* `Handover.controlStep`, `Handover.sessionStep` — a step of the one and of the other.
* `Handover.run` — all that happens.
-/

namespace TransferBoard

/-! ### The two threads -/

/-- Where the control channel is in its loop. -/
inductive LoopStage where
  /-- It looks at the flag next. -/
  | looking
  /-- It looks for a key next. -/
  | polling
  /-- It has a key, which takes its effect next. -/
  | holding (key : Key)
  /-- It shows the state next. -/
  | showing
  /-- It sleeps. -/
  | sleeping
  /-- It is gone, and has handed the keys back. -/
  | gone
  deriving DecidableEq, Repr

/-- The keys that the control channel has taken and that have not taken their effect. -/
def LoopStage.held : LoopStage → List Key
  | holding key => [key]
  | _ => []

/-- Where the session is. -/
inductive SessionStage where
  /-- Transfers go on. -/
  | copying
  /-- It has lowered the flag, and waits until the control channel is gone. -/
  | joining
  /-- It draws a last frame next. -/
  | framing
  /-- It shows that all transfers are complete next. -/
  | announcing
  /-- It looks at the clock next, to set the end of the wait. -/
  | timing
  /-- It looks at the clock next, to see whether the wait is over. -/
  | watching (deadline : Moment)
  /-- It looks for a key next; when there is none it may look once more after a nap. -/
  | polling (deadline : Moment) (again : Bool)
  /-- The wait is over. -/
  | waited (answer : Except SessionError Bool)

namespace SessionStage

/-- The session has the keys. -/
def hasKeys : SessionStage → Bool
  | copying | joining => false
  | _ => true

/-- The wait is over. -/
def isOver : SessionStage → Bool
  | waited _ => true
  | _ => false

/-- The wait is over, and says that a key was pressed. -/
def saysKey : SessionStage → Bool
  | waited (.ok true) => true
  | _ => false

theorem eq_of_saysKey {stage : SessionStage} (h : stage.saysKey = true) :
    stage = .waited (.ok true) := by
  unfold saysKey at h
  split at h
  · rfl
  · exact absurd h Bool.noConfusion

end SessionStage

/-- The keys there have been, and who took which. -/
structure KeyBook where
  /-- All the keys that were pressed. -/
  pressed : List Key
  /-- Those that the control channel took. -/
  byControl : List Key := []
  /-- Those that took their effect on the dashboard. -/
  handled : List Key := []
  /-- Those that the wait took. -/
  byWait : List Key := []
  /-- Those that the questions took. -/
  byQuestions : List Key := []
  deriving DecidableEq, Repr

/-- The session and its control channel. -/
structure Handover where
  /-- The settings. -/
  config : Config
  /-- The dashboard. -/
  board : Dashboard
  /-- The keys to come. -/
  keys : List Key
  /-- The flag: the control channel is to go on. -/
  running : Bool := true
  /-- Where the control channel is. -/
  loop : LoopStage := .looking
  /-- Where the session is. -/
  stage : SessionStage := .copying
  /-- Who took which key. -/
  book : KeyBook

/-- What happens next. -/
inductive HandoverMove where
  /-- A key is pressed. -/
  | press (key : Key)
  /-- A producer does something to the dashboard. -/
  | produce (sec : BoardSection)
  /-- The control channel takes a step. -/
  | control (now : Moment)
  /-- The session is asked to stop the control channel. -/
  | stop
  /-- The session takes a step. -/
  | session (now : Moment)

/-- The key that is pressed. -/
def HandoverMove.pressed? : HandoverMove → Option Key
  | press key => some key
  | _ => none

namespace Handover

/-- A step of the control channel. -/
def controlStep (h : Handover) (now : Moment) : Handover :=
  match h.loop with
  | .looking => { h with loop := if h.running then .polling else .gone }
  | .polling =>
    match h.keys with
    | [] => { h with loop := .sleeping }
    | key :: rest =>
      { h with
        keys := rest
        loop := .holding key
        book := { h.book with byControl := h.book.byControl ++ [key] } }
  | .holding key =>
    { h with
      board := (h.board.applyKey key).2
      loop := if (h.board.applyKey key).1 then .showing else .sleeping
      book := { h.book with handled := h.book.handled ++ [key] } }
  | .showing => { h with board := h.board.redraw true now, loop := .sleeping }
  | .sleeping => { h with loop := .looking }
  | .gone => h

/-- The last line is drawn over the last frame. -/
def announced (h : Handover) : Except OsError Unit × Dashboard :=
  let calls := Session.completionCalls h.config h.board.surface.height
  ((h.board.surface.present calls).1, { h.board with surface := (h.board.surface.present calls).2 })

/-- A step of the session.  While the control channel is there, it cannot go on. -/
def sessionStep (h : Handover) (now : Moment) : Handover :=
  match h.stage with
  | .joining => if h.loop = .gone then { h with stage := .framing } else h
  | .framing => { h with board := h.board.redraw true now, stage := .announcing }
  | .announcing =>
    match h.announced.1 with
    | .ok () => { h with board := h.announced.2, stage := .timing }
    | .error e => { h with board := h.announced.2, stage := .waited (.error (.terminal e)) }
  | .timing =>
    if clockEnd ≤ now + h.config.completionWait then
      { h with stage := .waited (.error .clockOverflow) }
    else { h with stage := .watching (now + h.config.completionWait) }
  | .watching deadline =>
    if deadline ≤ now then { h with stage := .waited (.ok false) }
    else { h with stage := .polling deadline true }
  | .polling deadline again =>
    match h.keys with
    | [] => { h with stage := if again then .polling deadline false else .watching deadline }
    | key :: rest =>
      { h with
        keys := rest
        stage := .waited (.ok true)
        book := { h.book with byWait := h.book.byWait ++ [key] } }
  | .copying | .waited _ => h

/-- What happens next.  A producer does not press keys and does not tear the dashboard down. -/
def after (h : Handover) : HandoverMove → Handover
  | .press key =>
    { h with
      keys := h.keys ++ [key]
      book := { h.book with pressed := h.book.pressed ++ [key] } }
  | .produce sec => if sec.setsFlags then h else { h with board := h.board.after sec }
  | .control now => h.controlStep now
  | .stop =>
    match h.stage with
    | .copying => { h with running := false, stage := .joining }
    | _ => h
  | .session now => h.sessionStep now

/-- All that happens. -/
def run (h : Handover) (moves : List HandoverMove) : Handover := moves.foldl after h

theorem run_append (h : Handover) (moves moves' : List HandoverMove) :
    h.run (moves ++ moves') = (h.run moves).run moves' := List.foldl_append

/-- A session that has just been started. -/
def start (config : Config) (board : Dashboard) (keys : List Key) : Handover :=
  { config := config, board := board, keys := keys, book := { pressed := keys } }

end Handover
end TransferBoard
