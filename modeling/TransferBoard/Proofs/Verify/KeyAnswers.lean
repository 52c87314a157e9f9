import TransferBoard.Verify.TerminalPrompter
import TransferBoard.Proofs.Board.Frames
import TransferBoard.Proofs.Verify.Outcome
import TransferBoard.Proofs.Verify.Preserves

/-!
# Answers read off the keys

A user types ahead: all keys are there before the first question.  Then every answer can be read
off the keys, without a terminal.  A question takes the keys up to the first one that answers it,
and what it makes of them depends on nothing that is drawn.

## Main definitions

* `answerUpTo ends answer` — takes the keys up to the first one that ends the question.
* `KeyAnswers.start`, `KeyAnswers.kind`, `KeyAnswers.line` — what the keys answer.
* `keyPrompter` — the prompter of these answers; it remembers the keys to come.
* `Prompter.beside`, `Hashing.beside` — a prompter and a digester with a memory each.
* `Surface.ShowsAll`, `PromptScreen.Awaits keys` — showing will not fail; and the keys to come.

## Main results

* `readLine_press` — a line prompt reads the line off the keys.
* `keyPrompter_simulates` — **each question on the terminal is answered by the keys alone.**
* `terminal_reads_off_the_keys` — the whole conversation on a terminal.
-/

namespace TransferBoard

/-! ### The answers -/

/-- Answers a question by the keys up to the first one that ends it.  That one is the last one
taken; if there is none, the input is closed. -/
def answerUpTo {α : Type} (ends : Key → Bool) (answer : List Key → Option Key → α) :
    Asked (List Key) α := fun keys =>
  (.ok (answer (keys.takeWhile (!ends ·)) (keys.dropWhile (!ends ·)).head?),
    (keys.dropWhile (!ends ·)).tail)

namespace KeyAnswers

/-- The letter y starts the verification; escape and closed input cancel it. -/
def start (key : Option Key) : Option Bool :=
  if key = none ∨ key = some .esc then none
  else some (key = some (.char 'y') ∨ key = some (.char 'Y'))

/-- The keys that answer the question for a kind. -/
def endsKind (key : Key) : Bool :=
  key ∈ [.char '1', .char '2', .char 'q', .char 'Q', .esc]

/-- The digits choose a kind; what else ends the question cancels it. -/
def kind (key : Option Key) : Option DigestKind :=
  if key = some (.char '1') then some .md5
  else if key = some (.char '2') then some .sha256
  else none

/-- The keys that end a line. -/
def endsLine (key : Key) : Bool := key ∈ [.enter, .esc]

/-- What a key makes of the text typed before. -/
def type (text : List Char) : Key → List Char
  | .char c => if isControl c then text else text ++ [c]
  | .backspace => text.dropLast
  | _ => text

theorem type_char (text : List Char) (c : Char) :
    type text (.char c) = if isControl c then text else text ++ [c] := rfl

theorem type_backspace (text : List Char) : type text .backspace = text.dropLast := rfl

/-- Enter delivers what was typed before; escape and closed input give it up. -/
def line (typed : List Key) (key : Option Key) : Option String :=
  if key = some .enter then some (String.ofList (typed.foldl type [])) else none

end KeyAnswers

/-- Answers by the keys to come. -/
def keyPrompter : Prompter (List Key) where
  confirmStart _ := answerUpTo (fun _ => true) fun _ => KeyAnswers.start
  chooseKind _ _ _ := answerUpTo KeyAnswers.endsKind fun _ => KeyAnswers.kind
  calculating _ _ keys := (.ok (), keys)
  expectedDigest _ := answerUpTo KeyAnswers.endsLine KeyAnswers.line
  report _ keys := (.ok (), keys)
  summary _ := answerUpTo (fun _ => true) fun _ _ => ()

section

variable {α : Type} {ends : Key → Bool} {answer : List Key → Option Key → α} {key : Key}

theorem answerUpTo_cons_of_ends (h : ends key = true) (keys : List Key) :
    answerUpTo ends answer (key :: keys) = (.ok (answer [] (some key)), keys) := by
  simp [answerUpTo, h]

end

/-! ### Two memories -/

section

variable {σ μ α : Type}

/-- Puts a question beside another memory. -/
def Asked.beside (question : Asked σ α) : Asked (σ × μ) α := fun s =>
  ((question s.1).1, ((question s.1).2, s.2))

/-- The prompter beside a digester that has a memory. -/
def Prompter.beside (p : Prompter σ) : Prompter (σ × μ) where
  confirmStart count := (p.confirmStart count).beside
  chooseKind f index total := (p.chooseKind f index total).beside
  calculating f kind := (p.calculating f kind).beside
  expectedDigest f := (p.expectedDigest f).beside
  report f := (p.report f).beside
  summary counts := (p.summary counts).beside

/-- The digester beside a prompter that has a memory. -/
def Hashing.beside (hashing : Hashing μ) : Hashing (σ × μ) := fun kind path s =>
  ((hashing kind path s.2).1, (s.1, (hashing kind path s.2).2))

/-- Runs the conversation with two who have a memory each. -/
def runBeside (p : Prompter σ) (hashing : Hashing μ) (files : List CompletedFile) (s : σ) (m : μ) :
    Except WorkflowError WorkflowOutcome × σ × μ :=
  workflow p.beside hashing.beside files (s, m)

theorem Asked.beside_simulates (question : Asked σ α) :
    Simulates (fun (both : σ × μ) s => both.1 = s) question.beside question := by
  rintro both s rfl
  exact ⟨rfl, rfl⟩

/-- A digester that remembers nothing needs no memory. -/
theorem runBeside_of_digester (p : Prompter σ) (digester : Digester) (files : List CompletedFile)
    (s : σ) (m : μ) :
    ((runBeside p digester.hashing files s m).1, (runBeside p digester.hashing files s m).2.1) =
      runWorkflow p digester files s := by
  have hp : p.beside.Simulates (fun (both : σ × μ) s => both.1 = s) p :=
    { confirmStart := fun _ => Asked.beside_simulates _
      chooseKind := fun _ _ _ => Asked.beside_simulates _
      calculating := fun _ _ => Asked.beside_simulates _
      expectedDigest := fun _ => Asked.beside_simulates _
      report := fun _ => Asked.beside_simulates _
      summary := fun _ => Asked.beside_simulates _ }
  have hh : (digester.hashing (σ := μ)).beside.Simulates (fun (both : σ × μ) s => both.1 = s)
      digester.hashing := by
    rintro kind path both s rfl
    exact ⟨rfl, rfl⟩
  obtain ⟨hresult, hmemory⟩ := simulates_workflow hp hh files (s, m) s rfl
  exact Prod.ext hresult hmemory

end

/-! ### The terminal -/

/-- Showing what is drawn does not fail any more. -/
def Surface.ShowsAll (s : Surface) : Prop := ∀ n, s.flushAttempts ≤ n → s.flushFault n = none

theorem Surface.ShowsAll.present {s : Surface} (h : s.ShowsAll) (calls : List DrawCall) :
    (s.present calls).1 = .ok () ∧ (s.present calls).2.ShowsAll := by
  obtain ⟨hattempts, hfault⟩ := s.drawAll_showing calls
  have hnone : (s.drawAll calls).flushFault (s.drawAll calls).flushAttempts = none := by
    rw [hfault, hattempts]
    exact h _ (Nat.le_refl _)
  rw [Surface.present, Surface.flush, hnone]
  refine ⟨rfl, fun n hn => ?_⟩
  show (s.drawAll calls).flushFault n = none
  rw [hfault]
  refine h n ?_
  have : (s.drawAll calls).flushAttempts + 1 ≤ n := hn
  omega

namespace PromptScreen

/-- Just these keys are to come, and showing does not fail. -/
structure Awaits (keys : List Key) (s : PromptScreen) : Prop where
  /-- The keys to come. -/
  keys_eq : s.keys = keys.map .press
  /-- What is drawn can be shown. -/
  showsAll : s.surface.ShowsAll

theorem Awaits.present {keys : List Key} {s : PromptScreen} (h : s.Awaits keys)
    (calls : List DrawCall) :
    (s.present calls).1 = .ok () ∧ (s.present calls).2.Awaits keys := by
  obtain ⟨hok, hshows⟩ := h.showsAll.present calls
  exact ⟨hok, h.keys_eq, hshows⟩

theorem simulates_afterPanel {α : Type} {lines : List PanelLine} {hint : String}
    {question : Asked (List Key) α} {question' : Nat → Asked PromptScreen α}
    (h : ∀ row, Simulates (fun keys s => Awaits keys s) question (question' row)) :
    Simulates (fun keys s => Awaits keys s) question (afterPanel lines hint question') := by
  intro keys s hs
  obtain ⟨hok, hs'⟩ := hs.present (s.panelCalls lines hint)
  rcases hshown : s.present (s.panelCalls lines hint) with ⟨answer, s'⟩
  rw [hshown] at hok hs'
  obtain rfl : answer = .ok () := hok
  rw [afterPanel, panel, hshown]
  exact h _ keys s' hs'

/-- The keys are taken off by the terminal as by the list of them. -/
theorem simulates_answerKeys {α : Type} {question : Asked (List Key) α}
    {answer : List KeyEvent → Except OsError α × List KeyEvent}
    (h : ∀ keys, answer (keys.map .press) =
      ((question keys).1, (question keys).2.map .press)) :
    Simulates (fun keys s => Awaits keys s) question (answerKeys answer) := by
  intro keys s hs
  have hanswer := h keys
  rw [answerKeys, hs.keys_eq, hanswer]
  exact ⟨rfl, rfl, hs.showsAll⟩

end PromptScreen

/-! ### Each question -/

theorem start_eq_confirmKey (key : Option Key) : KeyAnswers.start key = confirmKey key := by
  unfold confirmKey
  split
  · rfl
  · rfl
  · rfl
  · rfl
  · next key hesc hy hY =>
    have hesc : key ≠ .esc := hesc
    have hy : key ≠ .char 'y' := hy
    have hY : key ≠ .char 'Y' := hY
    simp [KeyAnswers.start, hesc, hy, hY]

/-- One key is read, unless the input is closed. -/
theorem readKey_press {α : Type} (answer : Option Key → α) (keys : List Key) :
    ((readKey (keys.map .press)).1.map answer, (readKey (keys.map .press)).2) =
      ((answerUpTo (fun _ => true) (fun _ => answer) keys).1,
        (answerUpTo (fun _ => true) (fun _ => answer) keys).2.map .press) := by
  cases keys <;> rfl

theorem kindAnswer_of_ends {key : Key} (h : KeyAnswers.endsKind key = true) :
    kindAnswer key = .answer (KeyAnswers.kind (some key)) := by
  have hmem := of_decide_eq_true h
  simp only [List.mem_cons, List.not_mem_nil, or_false] at hmem
  rcases hmem with rfl | rfl | rfl | rfl | rfl <;> rfl

theorem kindAnswer_of_not_ends {key : Key} (h : KeyAnswers.endsKind key = false) :
    kindAnswer key = .stay := by
  have hmem := of_decide_eq_false h
  simp only [List.mem_cons, List.not_mem_nil, or_false, not_or] at hmem
  obtain ⟨h1, h2, hq, hQ, hesc⟩ := hmem
  unfold kindAnswer
  split <;> simp_all

/-- The question for a kind takes keys until one answers it. -/
theorem chooseKindKeys_press (keys : List Key) :
    chooseKindKeys (keys.map .press) =
      ((answerUpTo KeyAnswers.endsKind (fun _ => KeyAnswers.kind) keys).1,
        (answerUpTo KeyAnswers.endsKind (fun _ => KeyAnswers.kind) keys).2.map .press) := by
  induction keys with
  | nil => rfl
  | cons key keys ih =>
    rw [List.map_cons, chooseKindKeys]
    cases hends : KeyAnswers.endsKind key with
    | true =>
      rw [kindAnswer_of_ends hends, answerUpTo_cons_of_ends hends]
    | false =>
      rw [kindAnswer_of_not_ends hends]
      simpa [answerUpTo, hends] using ih

/-- A key that does not end a line leaves the text alone or edits it.  A line prompt holds the text
with its last character first. -/
theorem lineEdit_of_not_ends {key : Key} (h : KeyAnswers.endsLine key = false)
    (typed : List Char) :
    lineEdit key = .ignore ∧ KeyAnswers.type typed.reverse key = typed.reverse ∨
      ∃ f, lineEdit key = .edit f ∧ KeyAnswers.type typed.reverse key = (f typed).reverse := by
  cases key with
  | char c =>
    rw [lineEdit, KeyAnswers.type_char]
    split
    · exact .inl ⟨rfl, rfl⟩
    · exact .inr ⟨_, rfl, List.reverse_cons.symm⟩
  | backspace => exact .inr ⟨_, rfl, by simp [KeyAnswers.type_backspace]⟩
  | up => exact .inl ⟨rfl, rfl⟩
  | down => exact .inl ⟨rfl, rfl⟩
  | other => exact .inl ⟨rfl, rfl⟩
  | esc => exact absurd h (by decide)
  | enter => exact absurd h (by decide)

section

variable {σ : Type} {P : σ → Prop} {echo : String → Asked σ Unit}

/-- A line prompt reads the line off the keys, if each echo succeeds.  By induction on the keys,
for every text typed before. -/
theorem readLine_press (hecho : ∀ text s, P s → (echo text s).1 = .ok () ∧ P (echo text s).2)
    (keys : List Key) : ∀ (typed : List Char) (s : σ), P s → ∃ s', P s' ∧
      readLine echo typed (keys.map .press) s =
        (.ok (if (keys.dropWhile (!KeyAnswers.endsLine ·)).head? = some .enter then
            some (String.ofList
              ((keys.takeWhile (!KeyAnswers.endsLine ·)).foldl KeyAnswers.type typed.reverse))
          else none),
        (keys.dropWhile (!KeyAnswers.endsLine ·)).tail.map .press, s') := by
  induction keys with
  | nil => exact fun typed s hs => ⟨s, hs, rfl⟩
  | cons key keys ih =>
    intro typed s hs
    rw [List.map_cons, readLine]
    cases hends : KeyAnswers.endsLine key with
    | true =>
      have hmem := of_decide_eq_true hends
      simp only [List.mem_cons, List.not_mem_nil, or_false] at hmem
      rcases hmem with rfl | rfl
      · exact ⟨s, hs, rfl⟩
      · exact ⟨s, hs, rfl⟩
    | false =>
      simp only [List.dropWhile_cons, List.takeWhile_cons, hends, Bool.not_false, if_true,
        List.foldl_cons]
      -- the key is ignored, or it changes the line, and that is echoed
      rcases lineEdit_of_not_ends hends typed with ⟨hedit, htext⟩ | ⟨f, hedit, htext⟩
      · rw [hedit, htext]
        exact ih typed s hs
      · obtain ⟨hok, hs'⟩ := hecho (String.ofList (f typed).reverse) s hs
        rcases hechoed : echo (String.ofList (f typed).reverse) s with ⟨answer, s'⟩
        rw [hechoed] at hok hs'
        obtain rfl : answer = .ok () := hok
        rw [hedit, htext]
        simp only [hechoed]
        exact ih (f typed) s' hs'

end

namespace PromptScreen

theorem simulates_answerLine (row : Nat) :
    Simulates (fun keys s => Awaits keys s)
      (answerUpTo KeyAnswers.endsLine KeyAnswers.line) (answerLine row) := by
  intro keys s hs
  -- the keys of the screen are not what the echo draws on, so only showing matters to it
  have hecho : ∀ text (s : PromptScreen), s.surface.ShowsAll →
      (echoAt row text s).1 = .ok () ∧ (echoAt row text s).2.surface.ShowsAll :=
    fun _ s hs => hs.present _
  obtain ⟨s', hs', hread⟩ := readLine_press hecho keys [] s hs.showsAll
  rw [answerLine, hs.keys_eq, hread]
  exact ⟨rfl, rfl, hs'⟩

end PromptScreen

/-- **Each question on the terminal is answered by the keys alone.** -/
theorem keyPrompter_simulates :
    keyPrompter.Simulates (fun keys s => PromptScreen.Awaits keys s) terminalPrompter where
  confirmStart _ := PromptScreen.simulates_afterPanel fun _ =>
    PromptScreen.simulates_answerKeys fun keys => by
      rw [← funext start_eq_confirmKey]
      exact readKey_press KeyAnswers.start keys
  chooseKind _ _ _ := PromptScreen.simulates_afterPanel fun _ =>
    PromptScreen.simulates_answerKeys chooseKindKeys_press
  calculating _ _ := PromptScreen.simulates_afterPanel fun _ _ _ hs => ⟨rfl, hs⟩
  expectedDigest _ := PromptScreen.simulates_afterPanel PromptScreen.simulates_answerLine
  report _ _ _ hs := ⟨rfl, hs.keys_eq, hs.showsAll⟩
  summary _ := PromptScreen.simulates_afterPanel fun _ =>
    PromptScreen.simulates_answerKeys fun keys => readKey_press (fun _ => ()) keys

/-! ### The conversation -/

section

variable {σ τ μ : Type} {R : σ → τ → Prop} {p : Prompter σ} {q : Prompter τ}

theorem Simulates.beside {α : Type} {x : Asked σ α} {y : Asked τ α} (h : Simulates R x y) :
    Simulates (fun (s : σ × μ) (t : τ × μ) => R s.1 t.1 ∧ s.2 = t.2) (Asked.beside x)
      (Asked.beside y) := by
  rintro ⟨s, m⟩ ⟨t, -⟩ ⟨hst, rfl⟩
  obtain ⟨hanswer, hst'⟩ := h s t hst
  exact ⟨hanswer, hst', rfl⟩

/-- With the same digester beside them, the conversations simulate each other. -/
theorem Prompter.Simulates.runBeside (h : p.Simulates R q) (hashing : Hashing μ)
    (files : List CompletedFile) {s : σ} {t : τ} (hst : R s t) (m : μ) :
    (runBeside p hashing files s m).1 = (runBeside q hashing files t m).1 ∧
      R (runBeside p hashing files s m).2.1 (runBeside q hashing files t m).2.1 ∧
        (runBeside p hashing files s m).2.2 = (runBeside q hashing files t m).2.2 := by
  have hboth : p.beside.Simulates (fun (s : σ × μ) (t : τ × μ) => R s.1 t.1 ∧ s.2 = t.2)
      q.beside :=
    { confirmStart := fun count => (h.confirmStart count).beside
      chooseKind := fun f index total => (h.chooseKind f index total).beside
      calculating := fun f kind => (h.calculating f kind).beside
      expectedDigest := fun f => (h.expectedDigest f).beside
      report := fun f => (h.report f).beside
      summary := fun counts => (h.summary counts).beside }
  have hhash : hashing.beside.Simulates (fun (s : σ × μ) (t : τ × μ) => R s.1 t.1 ∧ s.2 = t.2)
      hashing.beside := by
    rintro kind path ⟨s, m⟩ ⟨t, -⟩ ⟨hst, rfl⟩
    exact ⟨rfl, hst, rfl⟩
  exact simulates_workflow hboth hhash files (s, m) (t, m) ⟨hst, rfl⟩

end

section

variable {μ : Type} (hashing : Hashing μ) {files : List CompletedFile}

/-- What is left of the keys are the last ones of them. -/
theorem preserves_answerUpTo {α : Type} (ends : Key → Bool)
    (answer : List Key → Option Key → α) (keys : List Key) :
    Preserves (fun s : List Key × μ => s.1 <:+ keys) (Asked.beside (answerUpTo ends answer)) :=
  fun _ hs => ((List.tail_suffix _).trans (List.dropWhile_suffix _)).trans hs

/-- The keys answer every question, and leave the last ones of them. -/
theorem keyPrompter_answers (hfiles : ∀ f ∈ files, f.status = .notRequested) (keys : List Key)
    (m : μ) : ∃ outcome left m',
      runBeside keyPrompter hashing files keys m = (.ok outcome, left, m') ∧ left <:+ keys := by
  -- keys answer every call, so the conversation comes to its end
  have hexchanges : keyPrompter.beside.Exchanges (fun x => x.fails = false) hashing.beside :=
    { confirmStart := fun _ _ => rfl
      chooseKind := fun _ _ _ _ => rfl
      calculating := fun _ _ _ => rfl
      digest := fun _ _ _ => rfl
      expectedDigest := fun _ _ => rfl
      report := fun _ _ => rfl
      summary := fun _ _ => rfl }
  obtain ⟨outcome, houtcome⟩ :=
    (workflow_course keyPrompter.beside hashing.beside hfiles (keys, m)).exists_ok
      (exchanges_of_record hexchanges files (keys, m))
  -- each call leaves the last ones of the keys there were
  have hsuffix : (keyPrompter.beside (μ := μ)).Preserves fun s => s.1 <:+ keys :=
    { confirmStart := fun _ => preserves_answerUpTo _ _ keys
      chooseKind := fun _ _ _ => preserves_answerUpTo _ _ keys
      calculating := fun _ _ _ hs => hs
      expectedDigest := fun _ => preserves_answerUpTo _ _ keys
      report := fun _ _ hs => hs
      summary := fun _ => preserves_answerUpTo _ _ keys }
  exact ⟨outcome, _, _, Prod.ext houtcome rfl,
    preserves_workflow hsuffix (fun _ _ _ hs => hs) files (keys, m) List.suffix_rfl⟩

/-- **A conversation on the terminal is read off the keys.**  The files are at the start of their
verifications, some keys are typed, and then the input is closed.  The conversation has an
outcome, uses the first of the keys and leaves the others; both are what the answers read off the
keys give.  The screen has no part in it: whatever its size is and whatever is drawn on it, as
long as it can be shown. -/
theorem terminal_reads_off_the_keys (hfiles : ∀ f ∈ files, f.status = .notRequested)
    (keys : List Key) (m : μ) :
    ∃ outcome used left m', keys = used ++ left ∧
      runBeside keyPrompter hashing files keys m = (.ok outcome, left, m') ∧
      (∀ s : PromptScreen, s.Awaits keys → ∃ s' : PromptScreen, s'.Awaits left ∧
        runBeside terminalPrompter hashing files s m = (.ok outcome, s', m')) ∧
      ∀ digester : Digester, hashing = digester.hashing →
        runWorkflow keyPrompter digester files keys = (.ok outcome, left) ∧
        ∀ s : PromptScreen, s.Awaits keys → ∃ s' : PromptScreen, s'.Awaits left ∧
          runWorkflow terminalPrompter digester files s = (.ok outcome, s') := by
  obtain ⟨outcome, left, m', hrun, used, hused⟩ := keyPrompter_answers hashing hfiles keys m
  -- the two prompters go side by side, whatever is on the screen
  have hterminal : ∀ s : PromptScreen, s.Awaits keys → ∃ s' : PromptScreen, s'.Awaits left ∧
      runBeside terminalPrompter hashing files s m = (.ok outcome, s', m') := by
    intro s hs
    obtain ⟨hresult, hawaits, hmemory⟩ := keyPrompter_simulates.runBeside hashing files hs m
    rw [hrun] at hresult hawaits hmemory
    exact ⟨_, hawaits, Prod.ext hresult.symm (Prod.ext rfl hmemory.symm)⟩
  refine ⟨outcome, used, left, m', hused.symm, hrun, hterminal, ?_⟩
  rintro digester rfl
  constructor
  · rw [← runBeside_of_digester keyPrompter digester files keys m, hrun]
  · intro s hs
    obtain ⟨s', hs', hruns⟩ := hterminal s hs
    refine ⟨s', hs', ?_⟩
    rw [← runBeside_of_digester terminalPrompter digester files s m, hruns]

end

/-- Three files are verified on screens of every size by a digester that counts: a line is
corrected, junk is typed at the second question for a kind, the second file is compared without a
question, the third one has no digest.  One key is left. -/
theorem keys_typed_ahead_verify_three_files :
    let hashing : Hashing Nat := fun _ path n =>
      (if path = ⟨"out/c"⟩ then .error (.read path .notFound) else .ok "0F", n + 1)
    let files : List CompletedFile :=
      [{ name := "a", path := ⟨"out/a"⟩ },
        { name := "b", path := ⟨"out/b"⟩, expected := some "0f" },
        { name := "c", path := ⟨"out/c"⟩ }]
    let keys : List Key :=
      [.char 'y', .char '1', .char '0', .char '2', .backspace, .up, .char 'f', .enter, .enter,
        .char '2', .char '1', .esc, .char 'n']
    ∃ outcome, outcome.status = .completed ∧ outcome.summary = ⟨2, 1, 0⟩ ∧
      ∀ width height, ∃ s' : PromptScreen, s'.keys = [.press (.char 'n')] ∧
        runBeside terminalPrompter hashing files
          { surface := .new width height, keys := keys.map .press } 0 = (.ok outcome, s', 3) := by
  intro hashing files keys
  have hfiles : ∀ f ∈ files, f.status = .notRequested := by decide
  obtain ⟨outcome, used, left, m', -, hrun, hterminal, -⟩ :=
    terminal_reads_off_the_keys hashing hfiles keys 0
  -- the keys are computed without a screen, and the theorem gives every screen
  have hstatus : (runBeside keyPrompter hashing files keys 0).1.toOption.map
      (fun outcome => (outcome.status, outcome.summary)) = some (.completed, ⟨2, 1, 0⟩) := by
    decide +kernel
  have hleft : (runBeside keyPrompter hashing files keys 0).2 = ([.char 'n'], 3) := by
    decide +kernel
  rw [hrun] at hstatus hleft
  obtain ⟨rfl, rfl⟩ := Prod.mk.inj hleft
  obtain ⟨hstatus, hsummary⟩ := Prod.mk.inj (Option.some.inj hstatus)
  refine ⟨outcome, hstatus, hsummary, fun width height => ?_⟩
  obtain ⟨s', hs', hruns⟩ := hterminal { surface := .new width height, keys := keys.map .press }
    ⟨rfl, fun _ _ => rfl⟩
  exact ⟨s', hs'.keys_eq, hruns⟩

end TransferBoard
