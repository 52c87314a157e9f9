import TransferBoard.Proofs.Board.KeyBook
import TransferBoard.Proofs.Board.Releases

/-!
# Questions that take keys

The questions are those of the real conversation.  Others do what they like before each of them.
A question that finds no key is over at once, and one that finds a key does not see what comes
after it; so a key that is pressed while a question is on is as good as one that was pressed
before it.

A question leaves the keys that it leaves.  What it has taken is entered in the book, and the book
stays right because a question on the terminal takes the first keys there are.

## Main definitions

* `Handover.answered` — what a question leaves.
* `Questioning` — the conversation, with what others do before each question.
* `Prompter.amid` — a prompter whose questions are put in the midst of all that.
* `Handover.verify` — the completed files are asked about.

## Main results

* `leaves_terminalPrompter` — a question on the terminal takes the first keys.
* `keys_answered` — what such a question leaves, and what it has taken.
* `preserves_amid` — a question that takes the first keys does not spoil the book.
* `sound_verify` — nor does the whole conversation.
-/

namespace TransferBoard

/-! ### A question takes the first keys -/

/-- The key that was pressed. -/
def KeyEvent.key? : KeyEvent → Option Key
  | press key => some key
  | _ => none

theorem KeyEvent.filterMap_key?_map_press (keys : List Key) :
    (keys.map press).filterMap key? = keys := by
  rw [List.filterMap_map]
  exact List.filterMap_some

theorem suffix_readKey (keys : List KeyEvent) : (readKey keys).2 <:+ keys := by
  cases keys with
  | nil => exact List.suffix_rfl
  | cons event rest => cases event <;> exact List.suffix_cons _ _

theorem suffix_chooseKindKeys (keys : List KeyEvent) : (chooseKindKeys keys).2 <:+ keys := by
  induction keys with
  | nil => exact List.suffix_rfl
  | cons event rest ih =>
    cases event with
    | failure cause => exact List.suffix_cons _ _
    | crash => exact List.suffix_cons _ _
    | press key =>
      rw [chooseKindKeys]
      split
      · exact List.suffix_cons _ _
      · exact ih.trans (List.suffix_cons _ _)

theorem suffix_readLine {σ : Type} (echo : String → Asked σ Unit) (keys : List KeyEvent) :
    ∀ typed s, (readLine echo typed keys s).2.1 <:+ keys := by
  induction keys with
  | nil => exact fun _ _ => List.suffix_rfl
  | cons event rest ih =>
    intro typed s
    cases event with
    | failure cause => exact List.suffix_cons _ _
    | crash => exact List.suffix_cons _ _
    | press key =>
      rw [readLine]
      split
      · exact List.suffix_cons _ _
      · exact List.suffix_cons _ _
      · exact (ih typed s).trans (List.suffix_cons _ _)
      · split
        · exact List.suffix_cons _ _
        · exact (ih _ _).trans (List.suffix_cons _ _)

namespace PromptScreen

variable {keys : List KeyEvent}

/-- The keys to come are the last ones of these. -/
def Leaves (keys : List KeyEvent) (s : PromptScreen) : Prop := s.keys <:+ keys

theorem undrawn_leaves : Undrawn (Leaves keys) := fun _ _ _ hs => hs

theorem leaves_answerKeys {α : Type} {answer : List KeyEvent → Except OsError α × List KeyEvent}
    (h : ∀ keys, (answer keys).2 <:+ keys) : Preserves (Leaves keys) (answerKeys answer) :=
  fun s hs => (h s.keys).trans hs

/-- **A question on the terminal takes the first keys.** -/
theorem leaves_terminalPrompter : terminalPrompter.Preserves (Leaves keys) where
  confirmStart _ := preserves_afterPanel undrawn_leaves fun _ => leaves_answerKeys suffix_readKey
  chooseKind _ _ _ :=
    preserves_afterPanel undrawn_leaves fun _ => leaves_answerKeys suffix_chooseKindKeys
  calculating _ _ := preserves_afterPanel undrawn_leaves fun _ _ hs => hs
  expectedDigest _ := preserves_afterPanel undrawn_leaves fun row s hs =>
    (suffix_readLine (echoAt row) s.keys [] s).trans hs
  report _ _ hs := hs
  summary _ := preserves_afterPanel undrawn_leaves fun _ => leaves_answerKeys suffix_readKey

end PromptScreen

/-! ### Questions in the midst of it all -/

namespace Handover

/-- The screen that a question is put on. -/
def screen (h : Handover) (lastResult : Option (String × Tone)) : PromptScreen :=
  { surface := h.board.surface, keys := h.keys.map .press, lastResult := lastResult }

/-- A question has left this screen, and these keys. -/
def answered (h : Handover) (s : PromptScreen) : Handover :=
  { h with
    board := { h.board with surface := s.surface }
    keys := s.keys.filterMap KeyEvent.key?
    book := { h.book with
      byQuestions := h.book.byQuestions ++ h.keys.take (h.keys.length - s.keys.length) } }

/-- **What a question leaves is the end of what there was**, when it takes the first keys, and the
rest is in the book. -/
theorem keys_answered {h : Handover} {s : PromptScreen} (hleaves : s.keys <:+ h.keys.map .press) :
    s.keys = (h.answered s).keys.map .press ∧
      (h.answered s).book.byQuestions ++ (h.answered s).keys = h.book.byQuestions ++ h.keys := by
  have hdrop : s.keys = (h.keys.drop (h.keys.length - s.keys.length)).map .press := by
    rw [List.map_drop]
    simpa using List.suffix_iff_eq_drop.mp hleaves
  have hkeys : (h.answered s).keys = h.keys.drop (h.keys.length - s.keys.length) := by
    show s.keys.filterMap KeyEvent.key? = _
    rw [hdrop, KeyEvent.filterMap_key?_map_press, ← hdrop]
  refine ⟨by rw [hkeys]; exact hdrop, ?_⟩
  rw [hkeys, answered, List.append_assoc, List.take_append_drop]

end Handover

/-- The conversation about the completed files. -/
structure Questioning where
  /-- The session and its control channel. -/
  handover : Handover
  /-- What became of the file before. -/
  lastResult : Option (String × Tone) := none
  /-- What others do before each of the next questions and messages. -/
  interludes : List (List HandoverMove) := []

/-- Puts a question after others have done what they do. -/
def Asked.amid {α : Type} (question : Asked PromptScreen α) : Asked Questioning α := fun c =>
  let h := c.handover.run (c.interludes.headD [])
  let (answer, s) := question (h.screen c.lastResult)
  (answer, ⟨h.answered s, s.lastResult, c.interludes.tail⟩)

/-- The prompter that puts its questions in the midst of what others do. -/
def Prompter.amid (p : Prompter PromptScreen) : Prompter Questioning where
  confirmStart count := (p.confirmStart count).amid
  chooseKind f index total := (p.chooseKind f index total).amid
  calculating f kind := (p.calculating f kind).amid
  expectedDigest f := (p.expectedDigest f).amid
  report f := (p.report f).amid
  summary counts := (p.summary counts).amid

namespace Handover

variable {h : Handover}

/-- The completed files are asked about. -/
def verify (h : Handover) (digester : Digester) (interludes : List (List HandoverMove)) :
    Except WorkflowError WorkflowOutcome × Questioning :=
  runWorkflow terminalPrompter.amid digester h.board.state.completed.files
    { handover := h, interludes := interludes }

/-- The book is right after a question that takes the first keys. -/
theorem Sound.answered (hs : h.Sound) (hover : h.stage.isOver = true) {s : PromptScreen}
    (hleaves : s.keys <:+ h.keys.map .press) : (h.answered s).Sound where
  all := by
    have hall := hs.all
    rw [List.append_assoc] at hall ⊢
    rw [(keys_answered hleaves).2]
    exact hall
  handled := hs.handled
  alone := hs.alone
  wait := hs.wait
  questions hstage := absurd (hover.symm.trans hstage) Bool.noConfusion

/-- What others do after the end of the wait: nobody takes a key. -/
structure Idles (h h' : Handover) : Prop where
  /-- The wait is over, as before. -/
  stage : h'.stage = h.stage
  /-- The control channel has taken no key. -/
  byControl : h'.book.byControl = h.book.byControl
  /-- The wait has taken no key. -/
  byWait : h'.book.byWait = h.book.byWait

theorem idles_after (hs : h.Sound) (hover : h.stage.isOver = true) (move : HandoverMove) :
    h.Idles (h.after move) := by
  -- after the wait the control channel is gone, and neither of the two takes a step
  obtain ⟨answer, hstage⟩ : ∃ answer, h.stage = .waited answer := by
    cases hstage : h.stage with
    | waited answer => exact ⟨answer, rfl⟩
    | _ => rw [hstage] at hover; exact absurd hover Bool.noConfusion
  cases move with
  | press key => exact ⟨rfl, rfl, rfl⟩
  | produce sec => rw [after]; split <;> exact ⟨rfl, rfl, rfl⟩
  | control now =>
    have hgone : h.after (.control now) = h := by
      rw [after, controlStep, hs.alone (by rw [hstage]; rfl)]
    rw [hgone]
    exact ⟨rfl, rfl, rfl⟩
  | stop =>
    have hstopped : h.after .stop = h := by rw [after, hstage]
    rw [hstopped]
    exact ⟨rfl, rfl, rfl⟩
  | session now =>
    have hdone : h.after (.session now) = h := by rw [after, sessionStep, hstage]
    rw [hdone]
    exact ⟨rfl, rfl, rfl⟩

theorem idles_run (moves : List HandoverMove) : ∀ {h : Handover}, h.Sound →
    h.stage.isOver = true → h.Idles (h.run moves) := by
  induction moves with
  | nil => exact fun _ _ => ⟨rfl, rfl, rfl⟩
  | cons move moves ih =>
    intro h hs hover
    have hfirst := idles_after hs hover move
    have hrest := ih (sound_after hs move) (by rw [hfirst.stage]; exact hover)
    exact ⟨hrest.stage.trans hfirst.stage, hrest.byControl.trans hfirst.byControl,
      hrest.byWait.trans hfirst.byWait⟩

end Handover

namespace Questioning

/-- The keys that are pressed before the next questions. -/
def toCome (c : Questioning) : List Key := c.interludes.flatten.filterMap HandoverMove.pressed?

/-- The book is right, the control channel and the wait have taken these keys, and all in all
these are pressed. -/
structure Sound (byControl byWait pressed : List Key) (c : Questioning) : Prop where
  /-- The book is right. -/
  sound : c.handover.Sound
  /-- The wait is over. -/
  isOver : c.handover.stage.isOver = true
  /-- What the control channel has taken. -/
  byControl_eq : c.handover.book.byControl = byControl
  /-- What the wait has taken. -/
  byWait_eq : c.handover.book.byWait = byWait
  /-- What is pressed before and after. -/
  pressed_eq : c.handover.book.pressed ++ c.toCome = pressed

variable {byControl byWait pressed : List Key}

theorem pressed_headD (c : Questioning) :
    (c.handover.run (c.interludes.headD [])).book.pressed ++
        c.interludes.tail.flatten.filterMap HandoverMove.pressed? =
      c.handover.book.pressed ++ c.toCome := by
  rw [(Handover.rest_run _ _).1, toCome]
  cases c.interludes with
  | nil => simp
  | cons moves rest => simp [List.filterMap_append]

/-- **A question that takes the first keys does not spoil the book**, whatever others do before
it. -/
theorem preserves_amid {α : Type} {question : Asked PromptScreen α}
    (hleaves : ∀ keys, Preserves (PromptScreen.Leaves keys) question) :
    Preserves (Sound byControl byWait pressed) question.amid := by
  intro c hc
  have hidles := Handover.idles_run (c.interludes.headD []) hc.sound hc.isOver
  have hsound := Handover.sound_run (c.interludes.headD []) hc.sound
  have hover : (c.handover.run (c.interludes.headD [])).stage.isOver = true := by
    rw [hidles.stage]
    exact hc.isOver
  have htaken := hleaves _ ((c.handover.run (c.interludes.headD [])).screen c.lastResult)
    List.suffix_rfl
  refine ⟨hsound.answered hover htaken, hover, ?_, ?_, ?_⟩
  · exact hidles.byControl.trans hc.byControl_eq
  · exact hidles.byWait.trans hc.byWait_eq
  · exact (pressed_headD c).trans hc.pressed_eq

theorem preserves_terminalPrompter_amid :
    terminalPrompter.amid.Preserves (Sound byControl byWait pressed) where
  confirmStart count :=
    preserves_amid fun _ => PromptScreen.leaves_terminalPrompter.confirmStart count
  chooseKind f index total :=
    preserves_amid fun _ => PromptScreen.leaves_terminalPrompter.chooseKind f index total
  calculating f kind :=
    preserves_amid fun _ => PromptScreen.leaves_terminalPrompter.calculating f kind
  expectedDigest f :=
    preserves_amid fun _ => PromptScreen.leaves_terminalPrompter.expectedDigest f
  report f := preserves_amid fun _ => PromptScreen.leaves_terminalPrompter.report f
  summary counts := preserves_amid fun _ => PromptScreen.leaves_terminalPrompter.summary counts

end Questioning

/-- **The whole conversation keeps the book right**, whatever others do before each question. -/
theorem Handover.sound_verify {h : Handover} (hs : h.Sound) (hover : h.stage.isOver = true)
    (digester : Digester) (interludes : List (List HandoverMove)) :
    Questioning.Sound h.book.byControl h.book.byWait
      (h.book.pressed ++ interludes.flatten.filterMap HandoverMove.pressed?)
      (h.verify digester interludes).2 := by
  -- the digester is no question, and takes no key
  refine preserves_workflow Questioning.preserves_terminalPrompter_amid (fun _ _ _ hc => hc)
    h.board.state.completed.files { handover := h, interludes := interludes } ?_
  exact ⟨hs, hover, rfl, rfl, rfl⟩

end TransferBoard
