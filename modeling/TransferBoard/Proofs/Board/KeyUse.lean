import TransferBoard.Proofs.Board.Alone

/-!
# Every key is used once

The control channel, the wait after the last transfer and the questions about the completed files
take keys from the same source, one after the other.  Each key is taken once, by the one whose
turn it is.

## Main results

* `every_key_is_used_once` — who takes which keys.
-/

namespace TransferBoard

namespace Handover

/-- **Every key is used once.**  Some keys are there when the session starts, more are pressed at
any time, producers are at work, and the session is asked to stop the control channel wherever
that is in its loop.  At every moment:

* the control channel has taken the first keys, the wait the next ones, and the others are still
  to come;
* the keys that the control channel took have taken their effect on the dashboard, each once and
  in their order; the last one may be about to;
* once the session has the keys, all of them have, and the control channel never takes another;
* the wait takes one key at most, and says that there was one just when it took one.

Then the completed files are asked about, whatever others do before each question.  What each
question leaves of the keys is there for the next one; so the questions take the keys after that,
and no others do.

And what the control channel and the session do when nobody interferes is what the session does
when it looks for a key, waits, and puts its questions. -/
theorem every_key_is_used_once (config : Config) (board : Dashboard) (keys : List Key)
    (moves : List HandoverMove) :
    let h := (start config board keys).run moves
    let queue := keys ++ moves.filterMap HandoverMove.pressed?
    h.book.byControl ++ h.book.byWait ++ h.keys = queue ∧
    (h.book.byControl = h.book.handled ++ h.loop.held ∧
      ∃ actions, h.board.state = board.state.run actions ∧
        actions.filterMap BoardAction.key? = h.book.handled) ∧
    (h.stage.hasKeys = true → h.book.handled = h.book.byControl ∧
      ∀ later, (h.run later).book.byControl = h.book.byControl) ∧
    (h.book.byWait.length ≤ 1 ∧ ∀ answer, h.stage = .waited answer →
      (answer = .ok true ↔ h.book.byWait ≠ [])) ∧
    (∀ answer, h.stage = .waited answer → ∀ digester interludes,
      let c := (h.verify digester interludes).2
      let pressed := interludes.flatten.filterMap HandoverMove.pressed?
      c.handover.book.byControl = h.book.byControl ∧ c.handover.book.byWait = h.book.byWait ∧
      c.handover.book.byQuestions ++ c.handover.keys ++ c.toCome = h.keys ++ pressed ∧
      h.book.byControl ++ h.book.byWait ++ c.handover.book.byQuestions ++ c.handover.keys ++
        c.toCome = queue ++ pressed) ∧
    h.ActsAsSession := by
  intro h queue
  -- the book is right at the start, and every step keeps it right
  have hs : h.Sound := sound_run moves (sound_start config board keys)
  obtain ⟨hpressed, hquestions⟩ := rest_run moves (start config board keys)
  have hall : h.book.byControl ++ h.book.byWait ++ h.keys = queue := by
    have hall := hs.all
    rw [hquestions, hpressed] at hall
    rwa [show (start config board keys).book.byQuestions = [] from rfl, List.append_nil] at hall
  refine ⟨hall, ⟨hs.handled, ?_⟩, fun hkeys => ⟨?_, fun later => ?_⟩, ⟨?_, ?_⟩, ?_,
    h.actsAsSession⟩
  · -- each key takes its effect when the control channel handles it, and at no other time
    obtain ⟨actions, hhandles⟩ := handles_run moves (start config board keys)
    exact ⟨actions, hhandles.state, hhandles.handled.symm⟩
  · -- the control channel is gone, so it holds no key
    rw [hs.handled, hs.alone hkeys, LoopStage.held, List.append_nil]
    simp
  · exact (kept_run later hs hkeys).byControl
  · rw [hs.wait]
    split <;> decide
  · exact fun answer hanswer => hs.answer_iff_took hanswer
  · intro answer hanswer digester interludes c pressed
    -- every question takes the first keys, so the whole conversation keeps the book right
    have hsound := sound_verify hs (by rw [hanswer]; rfl) digester interludes
    rw [hpressed] at hsound
    -- what is taken and what is left make up all the keys there have been
    have hall' := hsound.sound.all
    rw [hsound.byControl_eq, hsound.byWait_eq] at hall'
    have hlast : h.book.byControl ++ h.book.byWait ++ c.handover.book.byQuestions ++
        c.handover.keys ++ c.toCome = queue ++ pressed := by
      rw [hall']
      exact hsound.pressed_eq
    refine ⟨hsound.byControl_eq, hsound.byWait_eq, ?_, hlast⟩
    rw [← hall] at hlast
    simpa only [List.append_assoc, List.append_cancel_left_eq] using hlast

/-- The control channel has a key when it is told to stop, and lets it take its effect; the wait
takes the next one.  A third one is pressed in the meantime and a fourth one before the first
question, which takes the third one. -/
theorem four_keys_are_used_in_turn :
    let board := Dashboard.fresh (.new 0 0) 0
    let moves : List HandoverMove :=
      [.produce (.register "a" ⟨"out/a"⟩ none), .control 0, .control 0, .stop, .control 1,
        .press (.char 'n'), .session 1, .control 1, .control 2, .session 2, .control 2, .session 3,
        .session 3, .session 3, .session 3, .session 4, .session 5]
    let h := (start {} board [.char 'p', .char 'x']).run moves
    let digester : Digester := fun _ path => .error (.read path .notFound)
    let asked := h.verify digester [[.press (.char 'q')]]
    asked.1.toOption = some ⟨.declined, {}, [.expecting "a" ⟨"out/a"⟩ none]⟩ ∧
    h.board.state.controls.paused = true ∧
    h.book.byControl = [.char 'p'] ∧ h.book.byWait = [.char 'x'] ∧
    asked.2.handover.book.byQuestions = [.char 'n'] ∧ asked.2.handover.keys = [.char 'q'] := by
  intro board moves h digester asked
  have hstage : h.stage = .waited (.ok true) := SessionStage.eq_of_saysKey (by decide +kernel)
  have hquestions : asked.2.handover.book.byQuestions = [.char 'n'] := by decide +kernel
  have hcome : asked.2.toCome = [] := by decide +kernel
  have hleft : h.keys = [.char 'n'] := by decide +kernel
  have hused := every_key_is_used_once {} board [.char 'p', .char 'x'] moves
  rw [show (start {} board [.char 'p', .char 'x']).run moves = h from rfl] at hused
  obtain ⟨-, -, -, -, hverify, -⟩ := hused
  -- what is left is told by the book, so it need not be computed
  have hkeys := hverify _ hstage digester [[.press (.char 'q')]]
  rw [show h.verify digester [[.press (.char 'q')]] = asked from rfl] at hkeys
  obtain ⟨-, -, hkeys, -⟩ := hkeys
  rw [hquestions, hcome, hleft] at hkeys
  refine ⟨by decide +kernel, by decide +kernel, by decide +kernel, by decide +kernel,
    hquestions, ?_⟩
  simpa [HandoverMove.pressed?] using hkeys

end Handover
end TransferBoard
