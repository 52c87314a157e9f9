import TransferBoard.Proofs.Board.AfterSession
import TransferBoard.Proofs.Board.Questioning

/-!
# A session without interference

The steps of the control channel and of the session, taken by one of them alone, make up what the
session does: a look for a key, the wait after the last transfer, the questions about the completed
files.

## Main definitions

* `Handover.session` — the session without what its threads are about to do.
* `Handover.EndsAs` — the session alone ends its wait in this way.
* `Handover.Mirrors` — the conversation on the screen, beside the one that others may interfere
  with.
* `Handover.ActsAsSession` — alone, the control channel and the session do what the session does.

## Main results

* `controlTick_alone`, `waitForCompletion_alone`, `verify_alone` — a look for a key, the wait, and
  the questions.
* `actsAsSession` — **what the threads do alone is what the session does.**
-/

namespace TransferBoard

namespace Session

/-- Showing that all transfers are complete may fail. -/
def completionShown (s : Session) (now : Moment) : Except OsError Unit :=
  let board := s.board.redraw true now
  (board.surface.present (completionCalls s.config board.surface.height)).1

/-- The wait of a session whose control channel runs. -/
theorem waitForCompletion_of_running {s : Session} (hrun : s.control = .running) (now : Moment) :
    s.waitForCompletion now =
      match s.completionShown now with
      | .error e =>
        (.error (.terminal e), { s with board := s.completionDrawn now, control := .stopped })
      | .ok () =>
        if clockEnd ≤ now + s.config.completionWait then
          (.error .clockOverflow, { s with board := s.completionDrawn now, control := .stopped })
        else
          ((awaitKey s.config.completionWait s.keys).1.mapError .terminal,
            { s with
              board := s.completionDrawn now
              control := .stopped
              keys := (awaitKey s.config.completionWait s.keys).2 }) := by
  -- the channel that runs is stopped first, whatever comes of the wait
  have hstop : s.stopControl = { s with control := .stopped } := by rw [stopControl, hrun]
  unfold waitForCompletion completionShown completionDrawn
  simp only [hstop]
  rcases (s.board.redraw true now).surface.present
    (completionCalls s.config (s.board.redraw true now).surface.height) with ⟨shown, surface⟩
  cases shown with
  | error e => rfl
  | ok u =>
    simp only [reduceCtorEq, if_false]
    rcases awaitKey s.config.completionWait s.keys with ⟨answer, rest⟩
    cases answer <;> rfl

end Session

namespace Handover

/-- The session without what its threads are about to do. -/
def session (h : Handover) : Session :=
  { board := h.board
    keys := h.keys.map .press
    control := if h.stage.hasKeys then .stopped else .running
    config := h.config }

section

variable {config : Config} {board : Dashboard} {keys : List Key} {book : KeyBook}

/-- Transfers go on, and the control channel has slept. -/
def atRest (config : Config) (board : Dashboard) (keys : List Key) (book : KeyBook) : Handover :=
  { config := config, board := board, keys := keys, book := book }

/-- The control channel looks at its flag next, which is up. -/
structure Rests (h : Handover) : Prop where
  /-- The flag is up. -/
  running : h.running = true
  /-- It is looked at next. -/
  loop : h.loop = .looking
  /-- Transfers go on. -/
  stage : h.stage = .copying

theorem Rests.eq_atRest {h : Handover} (hrests : h.Rests) :
    h = atRest h.config h.board h.keys h.book := by
  obtain ⟨config, board, keys, running, loop, stage, book⟩ := h
  obtain ⟨rfl, rfl, rfl⟩ := hrests
  rfl

theorem pressKey_snd (board : Dashboard) (key : Key) (now : Moment) :
    (board.pressKey key now).2 =
      if (board.applyKey key).1 then (board.applyKey key).2.redraw true now
      else (board.applyKey key).2 := rfl

/-- **The control channel alone** takes a key as the session has it. -/
theorem controlTick_alone (now : Moment) : ∃ k board' keys' book',
    (atRest config board keys book).run (List.replicate k (.control now)) =
      atRest config board' keys' book' ∧
    (atRest config board keys book).session.controlTick now =
      (atRest config board' keys' book').session := by
  cases keys with
  -- with no key there is one poll, and the channel sleeps again
  | nil => exact ⟨3, board, [], book, rfl, rfl⟩
  | cons key rest =>
    have htick : (atRest config board (key :: rest) book).session.controlTick now =
        (atRest config (board.pressKey key now).2 rest book).session := rfl
    rw [htick, pressKey_snd]
    -- a key that changes something costs one step more, for the frame
    cases hchanged : (board.applyKey key).1 with
    | false =>
      refine ⟨4, _, rest, { book with
        byControl := book.byControl ++ [key], handled := book.handled ++ [key] }, ?_, rfl⟩
      simp [List.replicate, run, after, controlStep, atRest, hchanged]
    | true =>
      refine ⟨5, _, rest, { book with
        byControl := book.byControl ++ [key], handled := book.handled ++ [key] }, ?_, rfl⟩
      simp [List.replicate, run, after, controlStep, atRest, hchanged]

/-- The control channel is gone, and the session is at a stage of its wait. -/
def atStage (config : Config) (board : Dashboard) (keys : List Key) (book : KeyBook)
    (stage : SessionStage) : Handover :=
  { config := config, board := board, keys := keys, running := false, loop := .gone
    stage := stage, book := book }

/-- The session alone goes on from a stage of its wait, and ends it as the session does. -/
def EndsAs (h : Handover) (ends : Except SessionError Bool × Session) : Prop :=
  ∃ moves board' keys' book', (∀ move ∈ moves, ∃ later, move = .session later) ∧
    h.run moves = atStage h.config board' keys' book' (.waited ends.1) ∧
    ends.2 = (atStage h.config board' keys' book' (.waited ends.1)).session

theorem EndsAs.here {answer : Except SessionError Bool} :
    (atStage config board keys book (.waited answer)).EndsAs
      (answer, (atStage config board keys book (.waited answer)).session) :=
  ⟨[], board, keys, book, nofun, rfl, rfl⟩

theorem EndsAs.step {h g : Handover} {ends : Except SessionError Bool × Session} (now : Moment)
    (hstep : h.sessionStep now = g) (hconfig : g.config = h.config) (hends : g.EndsAs ends) :
    h.EndsAs ends := by
  obtain ⟨moves, board', keys', book', hmoves, hrun, hsession⟩ := hends
  refine ⟨.session now :: moves, board', keys', book', ?_, ?_, ?_⟩
  · intro move hmove
    rcases List.mem_cons.mp hmove with rfl | hmove
    · exact ⟨now, rfl⟩
    · exact hmoves move hmove
  · show (h.sessionStep now).run moves = _
    rw [hstep, hrun, hconfig]
  · rw [hsession, hconfig]

/-- When the line has been shown, the wait is for the first key there is. -/
theorem endsAs_watching {now : Moment} :
    (atStage config board keys book (.watching (now + config.completionWait))).EndsAs
      ((Session.awaitKey config.completionWait (keys.map .press)).1.mapError .terminal,
        { (atStage config board keys book .timing).session with
          keys := (Session.awaitKey config.completionWait (keys.map .press)).2 }) := by
  by_cases hzero : config.completionWait = 0
  · -- there is no wait
    rw [Session.awaitKey, if_pos hzero]
    refine .step now (g := atStage config board keys book (.waited (.ok false))) ?_ rfl .here
    have hover : now + config.completionWait ≤ now := by rw [hzero]; exact Nat.le_refl _
    exact if_pos hover
  · rw [Session.awaitKey, if_neg hzero]
    refine .step now (g := atStage config board keys book
      (.polling (now + config.completionWait) true)) ?_ rfl ?_
    · have hon : now < now + config.completionWait :=
        Nat.lt_add_of_pos_right (Nat.pos_of_ne_zero hzero)
      exact if_neg (Nat.not_le_of_gt hon)
    cases keys with
    | cons key rest =>
      exact .step now (g := atStage config board rest
        { book with byWait := book.byWait ++ [key] } (.waited (.ok true))) rfl rfl .here
    | nil =>
      -- nobody presses a key until the wait is over
      refine .step now (g := atStage config board []  book
        (.polling (now + config.completionWait) false)) rfl rfl ?_
      refine .step now (g := atStage config board [] book
        (.watching (now + config.completionWait))) rfl rfl ?_
      refine .step (now + config.completionWait)
        (g := atStage config board [] book (.waited (.ok false))) ?_ rfl .here
      exact if_pos (Nat.le_refl _)

/-- **The session alone** stops the control channel and waits as the session does. -/
theorem waitForCompletion_alone (now : Moment) :
    ((atRest config board keys book).run [.stop, .control now]).EndsAs
      ((atRest config board keys book).session.waitForCompletion now) := by
  rw [Session.waitForCompletion_of_running rfl]
  -- the channel is joined, the frame is drawn, and the line is shown
  refine .step now (g := atStage config board keys book .framing) rfl rfl ?_
  refine .step now (g := atStage config (board.redraw true now) keys book .announcing) rfl rfl ?_
  have hannounced : (atStage config (board.redraw true now) keys book .announcing).announced =
      ((atRest config board keys book).session.completionShown now,
        (atRest config board keys book).session.completionDrawn now) := rfl
  cases hshown : (atRest config board keys book).session.completionShown now with
  | error e =>
    refine .step now (g := atStage config
      ((atRest config board keys book).session.completionDrawn now) keys book
      (.waited (.error (.terminal e)))) ?_ rfl .here
    rw [hshown] at hannounced
    simp only [sessionStep, hannounced]
    rfl
  | ok u =>
    refine .step now (g := atStage config
      ((atRest config board keys book).session.completionDrawn now) keys book .timing) ?_ rfl ?_
    · rw [hshown] at hannounced
      simp only [sessionStep, hannounced]
      rfl
    · -- the deadline may lie beyond the end of the clock
      by_cases hend :
          clockEnd ≤ now + (atRest config board keys book).session.config.completionWait
      · simp only [if_pos hend]
        exact .step now (if_pos hend) rfl .here
      · simp only [if_neg hend]
        exact .step now (if_neg hend) rfl endsAs_watching

end

theorem amid_alone {α : Type} (question : Asked PromptScreen α) (h : Handover)
    (lastResult : Option (String × Tone)) :
    question.amid ⟨h, lastResult, []⟩ =
      ((question (h.screen lastResult)).1,
        ⟨h.answered (question (h.screen lastResult)).2,
          (question (h.screen lastResult)).2.lastResult, []⟩) := rfl

/-- The conversation in which nobody interferes, beside the one on the screen alone. -/
structure Mirrors (h : Handover) (c : Questioning) (s : PromptScreen) : Prop where
  /-- The screen is the one that the next question is put on. -/
  screen : s = c.handover.screen c.lastResult
  /-- Nobody interferes. -/
  interludes : c.interludes = []
  /-- The session is as before, but for the screen and the keys. -/
  session : c.handover.session =
    { h.session with board := { h.board with surface := s.surface }, keys := s.keys }

theorem simulates_amid (h : Handover) {α : Type} {question : Asked PromptScreen α}
    (hleaves : ∀ keys, Preserves (PromptScreen.Leaves keys) question) :
    Simulates h.Mirrors question.amid question := by
  rintro ⟨h', lastResult, interludes⟩ s hmirrors
  obtain rfl := hmirrors.interludes
  obtain rfl := hmirrors.screen
  -- what a question leaves is the end of the keys, so they can be told from the handover
  have hkeys := hleaves (h'.keys.map .press) (h'.screen lastResult) List.suffix_rfl
  rw [amid_alone]
  generalize question (h'.screen lastResult) = asked at hkeys ⊢
  obtain ⟨answer, s'⟩ := asked
  have hanswered := (keys_answered hkeys).1
  refine ⟨rfl, ?_, rfl, ?_⟩
  · show s' = ⟨s'.surface, (h'.answered s').keys.map .press, s'.lastResult⟩
    rw [← hanswered]
  · calc (h'.answered s').session
        = { h'.session with
            board := { h'.session.board with surface := s'.surface }, keys := s'.keys } := by
          rw [hanswered]
          rfl
      _ = { h.session with
            board := { h.board with surface := s'.surface }, keys := s'.keys } := by
          rw [hmirrors.session]

/-- **The questions alone** are those of the session. -/
theorem verify_alone {h : Handover} (hkeys : h.stage.hasKeys = true) (digester : Digester) :
    h.session.verify digester =
      ((h.verify digester []).1.mapError .workflow,
        (h.verify digester []).2.handover.session) := by
  -- question by question, the conversation amid nothing is that on the screen alone
  have hp : terminalPrompter.amid.Simulates h.Mirrors terminalPrompter :=
    { confirmStart := fun count =>
        simulates_amid h fun _ => PromptScreen.leaves_terminalPrompter.confirmStart count
      chooseKind := fun f index total =>
        simulates_amid h fun _ => PromptScreen.leaves_terminalPrompter.chooseKind f index total
      calculating := fun f kind =>
        simulates_amid h fun _ => PromptScreen.leaves_terminalPrompter.calculating f kind
      expectedDigest := fun f =>
        simulates_amid h fun _ => PromptScreen.leaves_terminalPrompter.expectedDigest f
      report := fun f => simulates_amid h fun _ => PromptScreen.leaves_terminalPrompter.report f
      summary := fun counts =>
        simulates_amid h fun _ => PromptScreen.leaves_terminalPrompter.summary counts }
  have hh : digester.hashing.Simulates h.Mirrors digester.hashing := fun _ _ _ _ hcs => ⟨rfl, hcs⟩
  obtain ⟨hresult, hmirrors⟩ := simulates_workflow hp hh h.board.state.completed.files
    { handover := h } (h.screen none) ⟨rfl, rfl, rfl⟩
  have hverify : h.verify digester [] = workflow terminalPrompter.amid digester.hashing
      h.board.state.completed.files { handover := h } := rfl
  -- the session has no control channel left to stop, and none that is broken
  have hstop : h.session.stopControl = h.session := by
    simp [Session.stopControl, session, hkeys]
  have hcontrol : h.session.control ≠ .broken := by
    simp [session, hkeys]
  have hasked : runWorkflow terminalPrompter digester h.session.board.state.completed.files
      { surface := h.session.board.surface, keys := h.session.keys } =
      workflow terminalPrompter digester.hashing h.board.state.completed.files
        (h.screen none) := rfl
  rw [hverify, hresult, hmirrors.session, Session.verify]
  simp only [hstop, if_neg hcontrol, hasked]
  rcases workflow terminalPrompter digester.hashing h.board.state.completed.files
    (h.screen none) with ⟨result, s⟩
  cases result <;> rfl

/-- **What a thread does alone is what the session does.** -/
structure ActsAsSession (h : Handover) : Prop where
  /-- The control channel looks for a key, lets it take its effect, and sleeps. -/
  control : h.Rests → ∀ now, ∃ k,
    (h.run (List.replicate k (.control now))).Rests ∧
      h.session.controlTick now = (h.run (List.replicate k (.control now))).session
  /-- The session stops the control channel, which ends at its next look at the flag, and waits. -/
  wait : h.Rests → ∀ now,
    (h.run [.stop, .control now]).EndsAs (h.session.waitForCompletion now)
  /-- With the keys, the session puts its questions. -/
  verify : h.stage.hasKeys = true → ∀ digester, h.session.verify digester =
    ((h.verify digester []).1.mapError .workflow, (h.verify digester []).2.handover.session)

theorem actsAsSession (h : Handover) : h.ActsAsSession where
  control hrests now := by
    rw [hrests.eq_atRest]
    obtain ⟨k, board', keys', book', hrun, htick⟩ :=
      @controlTick_alone h.config h.board h.keys h.book now
    refine ⟨k, ?_, ?_⟩
    · rw [hrun]
      exact ⟨rfl, rfl, rfl⟩
    · rw [hrun]
      exact htick
  wait hrests now := by
    rw [hrests.eq_atRest]
    exact waitForCompletion_alone now
  verify hkeys digester := verify_alone hkeys digester

end Handover
end TransferBoard
