import TransferBoard.Proofs.Board.Frames
import TransferBoard.Proofs.Lists

/-!
# Calls that draw what they change

A call that announces, finishes or gives up a transfer, or that takes a key, changes the
dashboard under the lock, gives the lock back and then takes it again for a frame.  Other
threads get the lock in between.  A call that finds nothing to change may return without a
frame.

The rest of what producers tell — bytes, files, completed files — changes only what no frame
owes its reader at once: the outline of the state leaves it out.

## Main definitions

* `BoardState.outline` — the state but for bytes, running times, files and completed files.
* `BoardCall`, `CallStage` — the calls that draw what they change, and what a thread does that
  makes them.
* `WatchedBoard`, `WatchedBoard.step` — the dashboard with such threads and the state that the
  last frame shows, and a step of one of the threads.
* `CallMove`, `WatchedBoard.run` — what happens next, and all that happens.
* `WatchedBoard.Settled` — no call is between a change and its frame.

## Main results

* `outline_after` — what producers tell without a frame keeps the outline.
* `first_of_undrawn` — a call that does not go on to draw has changed nothing.
* `board_alone` — a call that one thread makes alone is the call of the dashboard.
-/

namespace TransferBoard

/-- The entry but for what producers tell without a frame. -/
def Entry.outline (e : Entry) : Entry := { e with current := 0, elapsedHint := none, path := none }

/-- The state but for bytes, running times, files and completed files. -/
def BoardState.outline (s : BoardState) : BoardState :=
  { s with slots := s.slots.map (Option.map Entry.outline), completed := {} }

/-- The section tells bytes, a file or a completed file. -/
def BoardSection.keepsOutline : BoardSection → Bool
  | .setPath .. | .advance .. | .register .. => true
  | _ => false

namespace BoardState

/-- A change that leaves the outline of every entry leaves the outline of the state. -/
theorem outline_modify {f : Entry → Entry} (hf : ∀ e, (f e).outline = e.outline)
    (s : BoardState) (h : Handle) : (s.modify h f).outline = s.outline := by
  unfold modify
  split
  · next e hfinds =>
    -- the outline of what is put into the slot is that of what was there
    have hslot : (s.slots.map (Option.map Entry.outline))[h.slot]? =
        some (Option.map Entry.outline (some (f e))) := by
      rw [List.getElem?_map, getElem?_of_finds hfinds, Option.map_some, Option.map_some,
        Option.map_some, hf]
    simp only [outline, List.map_set, set_of_getElem? hslot]
  · rfl

end BoardState

namespace Dashboard

/-- **What producers tell without a frame keeps the outline**, and the screen. -/
theorem outline_after {sec : BoardSection} (h : sec.keepsOutline = true) (d : Dashboard) :
    (d.after sec).state.outline = d.state.outline ∧ d.SameScreen (d.after sec) := by
  refine ⟨?_, d.sameScreen_after ?_ ?_⟩
  case refine_2 => rintro rfl; exact absurd h (by simp [BoardSection.keepsOutline])
  case refine_3 => rintro forced now rfl; exact absurd h (by simp [BoardSection.keepsOutline])
  cases sec with
  | setPath hd path =>
    exact BoardState.outline_modify (f := (EntryEdit.setPath path).edit) (fun _ => rfl) d.state hd
  | advance hd delta hint =>
    exact BoardState.outline_modify (f := (EntryEdit.advance delta hint).edit) (fun _ => rfl)
      d.state hd
  | register name path expected => rfl
  | _ => exact absurd h (by simp [BoardSection.keepsOutline])

end Dashboard

/-! ### Calls -/

/-- A call that draws what it changes. -/
inductive BoardCall where
  /-- A transfer is announced. -/
  | create (r : EntryRequest)
  /-- A transfer is complete. -/
  | finish (h : Handle)
  /-- A transfer is complete, and its digest is calculated if it has one to calculate. -/
  | finishWithDigest (h : Handle)
  /-- A transfer is given up. -/
  | stop (h : Handle) (reason : String)
  /-- A key takes its effect. -/
  | press (key : Key)

namespace BoardCall

/-- What a call does first while it holds the lock, and whether it goes on to draw. -/
def first (d : Dashboard) (now : Moment) : BoardCall → Bool × Dashboard
  | create r => (true, (d.track r now).2)
  | finish h | finishWithDigest h => (true, d.markFinished h)
  | stop h reason => if (d.entry? h).isSome then (true, d.markStopped h reason) else (false, d)
  | press key => d.applyKey key

/-- The call finds nothing to change: its handle finds no entry to give up, or its key has no
effect. -/
def FindsNothing (d : Dashboard) : BoardCall → Prop
  | stop h _ => d.entry? h = none
  | press key => (d.applyKey key).1 = false
  | _ => False

/-- **A call that does not go on to draw has found nothing to change, and has changed
nothing.** -/
theorem first_of_undrawn {d : Dashboard} {now : Moment} {c : BoardCall}
    (h : (c.first d now).1 = false) : c.FindsNothing d ∧ (c.first d now).2 = d := by
  cases c with
  | stop hd reason =>
    rw [first] at h ⊢
    split at h
    · exact absurd h (by simp)
    · next hnone =>
      rw [if_neg hnone]
      exact ⟨Option.not_isSome_iff_eq_none.mp hnone, rfl⟩
  | press key => exact ⟨h, Dashboard.applyKey_of_unchanged h⟩
  | _ => exact absurd h (by simp [first])

theorem sameScreen_first (c : BoardCall) (d : Dashboard) (now : Moment) :
    d.SameScreen (c.first d now).2 := by
  cases c with
  | stop hd reason => rw [first]; split <;> exact ⟨rfl, rfl, rfl⟩
  | _ => exact ⟨rfl, rfl, rfl⟩

/-- The effect of a call on a dashboard that nobody else uses. -/
def onBoard (digester : Digester) (d : Dashboard) (now : Moment) : BoardCall → Dashboard
  | create r => (d.create r now).2
  | finish h => d.finish h now
  | finishWithDigest h => d.finishWithDigest digester id h now
  | stop h reason => d.stop h reason now
  | press key => (d.pressKey key now).2

end BoardCall

/-- What a thread does that makes such calls. -/
inductive CallStage where
  /-- It is between two calls. -/
  | free
  /-- It takes the lock next, to change the dashboard. -/
  | starting (c : BoardCall)
  /-- It has given the lock back, and draws next. -/
  | showing (c : BoardCall)
  /-- It has drawn a complete transfer, and looks next whether there is a digest to calculate. -/
  | asking (h : Handle)
  /-- It calculates a digest, and stores it next. -/
  | hashing (h : Handle) (kind : DigestKind) (path : Path)
  /-- It has stored the outcome of a digest calculation, and draws next. -/
  | showingDigest (h : Handle)

namespace CallStage

/-- The thread may make a call. -/
def isFree : CallStage → Bool
  | free => true
  | _ => false

/-- The thread is between a change and its frame. -/
def owesFrame : CallStage → Bool
  | showing _ | showingDigest _ => true
  | _ => false

/-- The call has drawn a frame already. -/
def hasDrawn : CallStage → Bool
  | asking _ | hashing .. | showingDigest _ => true
  | _ => false

end CallStage

/-! ### The dashboard under watch -/

/-- The dashboard with the threads that use it, and what is known of the screen. -/
structure WatchedBoard where
  /-- The dashboard. -/
  board : Dashboard
  /-- The state as the last frame has left it. -/
  frame : Option BoardState := none
  /-- The threads. -/
  threads : List CallStage
  /-- The calls that have returned, and whether they have drawn. -/
  returned : List (BoardCall × Bool) := []

/-- What happens next. -/
inductive CallMove where
  /-- A thread makes a call. -/
  | call (k : Nat) (c : BoardCall)
  /-- A thread takes a step. -/
  | step (k : Nat) (now : Moment) (digester : Digester)
  /-- A producer tells something that needs no frame, or the state is shown. -/
  | others (sec : BoardSection)

namespace WatchedBoard

/-- Shows the state, and notes what a frame has shown. -/
def redraw (s : WatchedBoard) (forced : Bool) (now : Moment) : WatchedBoard :=
  { s with
    board := s.board.redraw forced now
    frame := if s.board.composes forced now then some (s.board.redraw forced now).state
      else s.frame }

/-- The dashboard is changed. -/
def withBoard (s : WatchedBoard) (d : Dashboard) : WatchedBoard := { s with board := d }

/-- A thread goes on. -/
def goTo (s : WatchedBoard) (k : Nat) (stage : CallStage) : WatchedBoard :=
  { s with threads := s.threads.set k stage }

/-- The call of a thread returns. -/
def leave (s : WatchedBoard) (k : Nat) (c : BoardCall) (drawn : Bool) : WatchedBoard :=
  { s.goTo k .free with returned := (c, drawn) :: s.returned }

/-- A step of a thread.  One that is free takes none. -/
def step (s : WatchedBoard) (k : Nat) (now : Moment) (digester : Digester) : WatchedBoard :=
  match s.threads[k]? with
  | some (.starting c) =>
    match c.first s.board now with
    | (true, board) => (s.withBoard board).goTo k (.showing c)
    | (false, board) => (s.withBoard board).leave k c false
  | some (.showing (.finishWithDigest h)) => (s.redraw true now).goTo k (.asking h)
  | some (.showing c) => (s.redraw true now).leave k c true
  | some (.asking h) =>
    match s.board.digestJob? h with
    | some (kind, path) => s.goTo k (.hashing h kind path)
    | none => s.leave k (.finishWithDigest h) true
  | some (.hashing h kind path) =>
    if (s.board.entry? h).isSome then
      (s.withBoard (s.board.settleDigest h (digester kind path))).goTo k (.showingDigest h)
    else s.leave k (.finishWithDigest h) true
  | some (.showingDigest h) => (s.redraw true now).leave k (.finishWithDigest h) true
  | _ => s

/-- What happens next.  Whoever else uses the dashboard leaves the outline, or draws. -/
def after (s : WatchedBoard) : CallMove → WatchedBoard
  | .call k c =>
    match s.threads[k]? with
    | some stage => if stage.isFree then s.goTo k (.starting c) else s
    | none => s
  | .step k now digester => s.step k now digester
  | .others (.redraw forced now) => s.redraw forced now
  | .others sec => if sec.keepsOutline then s.withBoard (s.board.after sec) else s

/-- All that happens. -/
def run (s : WatchedBoard) (moves : List CallMove) : WatchedBoard := moves.foldl after s

/-- A dashboard with a number of threads that have not made a call. -/
def start (board : Dashboard) (threads : Nat) : WatchedBoard :=
  { board := board, threads := List.replicate threads .free }

/-- No call is between a change and its frame. -/
def Settled (s : WatchedBoard) : Prop := ∀ stage ∈ s.threads, stage.owesFrame = false

variable {s : WatchedBoard} {k : Nat}

/-! ### A call alone -/

/-- One thread takes a number of steps, and nobody else does anything. -/
def alone (s : WatchedBoard) (k : Nat) (now : Moment) (digester : Digester) (n : Nat) :
    WatchedBoard := s.run (List.replicate n (.step k now digester))

section Alone

variable {now : Moment} {digester : Digester} {n : Nat}

theorem alone_succ :
    s.alone k now digester (n + 1) = (s.step k now digester).alone k now digester n := rfl

theorem getElem?_goTo (hlt : k < s.threads.length) (stage : CallStage) :
    (s.goTo k stage).threads[k]? = some stage := List.getElem?_set_self hlt

theorem goTo_goTo (s : WatchedBoard) (k : Nat) (stage stage' : CallStage) :
    (s.goTo k stage).goTo k stage' = s.goTo k stage' := by
  rw [goTo, goTo, goTo, List.set_set]

theorem withBoard_goTo (s : WatchedBoard) (k : Nat) (stage : CallStage) (d : Dashboard) :
    (s.goTo k stage).withBoard d = (s.withBoard d).goTo k stage := rfl

theorem leave_goTo (s : WatchedBoard) (k : Nat) (stage : CallStage) (c : BoardCall)
    (drawn : Bool) : (s.goTo k stage).leave k c drawn = s.leave k c drawn := by
  rw [leave, leave, goTo_goTo]
  rfl

/-- A thread whose call has returned stays where it is. -/
theorem board_leave_alone (hlt : k < s.threads.length) (c : BoardCall) (drawn : Bool) :
    ((s.leave k c drawn).alone k now digester n).board = s.board := by
  have hfree : (s.leave k c drawn).threads[k]? = some .free := List.getElem?_set_self hlt
  induction n with
  | zero => rfl
  | succ n ih =>
    have hstep : (s.leave k c drawn).step k now digester = s.leave k c drawn := by
      rw [step, hfree]
    rw [alone_succ, hstep, ih]

/-- A call that has changed the dashboard draws; and it returns, unless it is one with a
digest. -/
theorem board_showing_alone (hlt : k < s.threads.length) {c : BoardCall}
    (hc : ∀ h, c ≠ .finishWithDigest h) :
    ((s.goTo k (.showing c)).alone k now digester (n + 1)).board = s.board.redraw true now := by
  have hstep : (s.goTo k (.showing c)).step k now digester =
      ((s.goTo k (.showing c)).redraw true now).leave k c true := by
    rw [step, getElem?_goTo hlt]
    cases c with
    | finishWithDigest h => exact absurd rfl (hc h)
    | _ => rfl
  rw [alone_succ, hstep, board_leave_alone (by simpa [redraw, goTo] using hlt)]
  rfl

/-- A call changes the dashboard, and draws if it has changed anything. -/
theorem starting_alone (hlt : k < s.threads.length) (c : BoardCall) :
    ((s.goTo k (.starting c)).alone k now digester (n + 1)).board =
      if (c.first s.board now).1 then
        (((s.withBoard (c.first s.board now).2).goTo k (.showing c)).alone k now digester n).board
      else (c.first s.board now).2 := by
  have hstep : (s.goTo k (.starting c)).step k now digester =
      match c.first s.board now with
      | (true, board) => ((s.goTo k (.starting c)).withBoard board).goTo k (.showing c)
      | (false, board) => ((s.goTo k (.starting c)).withBoard board).leave k c false := by
    rw [step, getElem?_goTo hlt]
    rfl
  rw [alone_succ, hstep]
  rcases c.first s.board now with ⟨drawn, d⟩
  cases drawn with
  | false =>
    simp only [Bool.false_eq_true, if_false]
    rw [withBoard_goTo, leave_goTo]
    exact board_leave_alone (s := s.withBoard d) hlt c false
  | true =>
    simp only [if_true]
    rw [withBoard_goTo, goTo_goTo]

/-- A call that stores the outcome of a digest calculation draws, if the entry is still
there. -/
theorem hashing_alone (hlt : k < s.threads.length) (h : Handle) (kind : DigestKind)
    (path : Path) :
    ((s.goTo k (.hashing h kind path)).alone k now digester (n + 2)).board =
      s.board.showDigest h (digester kind path) now := by
  have hstep : (s.goTo k (.hashing h kind path)).step k now digester =
      if (s.board.entry? h).isSome then
        (s.withBoard (s.board.settleDigest h (digester kind path))).goTo k (.showingDigest h)
      else s.leave k (.finishWithDigest h) true := by
    rw [step, getElem?_goTo hlt]
    simp only [leave_goTo, withBoard_goTo, goTo_goTo]
    rfl
  have hshown : ∀ d, ((s.withBoard d).goTo k (.showingDigest h)).step k now digester =
      ((s.withBoard d).redraw true now).leave k (.finishWithDigest h) true := by
    intro d
    rw [step, getElem?_goTo (s := s.withBoard d) hlt]
    exact leave_goTo ((s.withBoard d).redraw true now) k _ _ _
  rw [alone_succ, hstep, Dashboard.showDigest]
  split
  · rw [alone_succ, hshown]
    exact board_leave_alone
      (s := (s.withBoard (s.board.settleDigest h (digester kind path))).redraw true now) hlt _ true
  · exact board_leave_alone hlt _ true

/-- A call with a digest draws, looks for a digest to calculate, and stores and draws its
outcome. -/
theorem board_digest_alone (hlt : k < s.threads.length) (h : Handle) :
    ((s.goTo k (.showing (.finishWithDigest h))).alone k now digester (n + 4)).board =
      match (s.board.redraw true now).digestJob? h with
      | none => s.board.redraw true now
      | some (kind, path) =>
        (s.board.redraw true now).showDigest h (digester kind path) now := by
  have hshown : (s.goTo k (.showing (.finishWithDigest h))).step k now digester =
      (s.redraw true now).goTo k (.asking h) := by
    rw [step, getElem?_goTo hlt]
    exact goTo_goTo (s.redraw true now) k _ _
  have hlt' : k < (s.redraw true now).threads.length := hlt
  have hasked : ((s.redraw true now).goTo k (.asking h)).step k now digester =
      match (s.board.redraw true now).digestJob? h with
      | some (kind, path) => (s.redraw true now).goTo k (.hashing h kind path)
      | none => (s.redraw true now).leave k (.finishWithDigest h) true := by
    rw [step, getElem?_goTo hlt']
    simp only [leave_goTo, goTo_goTo]
    rfl
  rw [alone_succ, hshown, alone_succ, hasked]
  rcases (s.board.redraw true now).digestJob? h with _ | ⟨kind, path⟩
  · exact board_leave_alone hlt' _ true
  · exact hashing_alone hlt' h kind path

end Alone

/-- **A call that one thread makes alone is the call of the dashboard.**  Five steps are enough
for each of them. -/
theorem board_alone (hk : s.threads[k]? = some .free) (c : BoardCall) (now : Moment)
    (digester : Digester) :
    ((s.after (.call k c)).alone k now digester 5).board = c.onBoard digester s.board now := by
  obtain ⟨hlt, -⟩ := List.getElem?_eq_some_iff.mp hk
  have hcall : s.after (.call k c) = s.goTo k (.starting c) := by
    simp only [after, hk, CallStage.isFree, if_true]
  -- all calls but one change the state and draw a frame; the other one hashes in between
  have hdrawn : (∀ h, c ≠ .finishWithDigest h) →
      (((s.withBoard (c.first s.board now).2).goTo k (.showing c)).alone k now digester 4).board =
        (c.first s.board now).2.redraw true now :=
    board_showing_alone (s := s.withBoard (c.first s.board now).2) hlt
  rw [hcall, starting_alone hlt]
  cases c with
  | finishWithDigest h =>
    exact board_digest_alone (s := s.withBoard (s.board.markFinished h)) hlt h
  | stop h reason =>
    rw [hdrawn (by simp), BoardCall.first, BoardCall.onBoard, Dashboard.stop]
    split <;> rfl
  | press key =>
    rw [hdrawn (by simp)]
    rfl
  | _ => rw [hdrawn (by simp), BoardCall.first, if_pos rfl]; rfl

end WatchedBoard
end TransferBoard
