import TransferBoard.Board.Frame
import TransferBoard.Terminal.LineEditor
import TransferBoard.Verify.Workflow

/-!
# Asking on the terminal

The questions are drawn below the header of the dashboard, and answered by keys.

## Main definitions

* `PromptScreen` — the surface, the keys to come, and the last result to show.
* `PromptScreen.panel` — a question with a heading above and the keys below.
* `confirmKey`, `chooseKindKeys` — the answers that keys give.
* `terminalPrompter` — the prompter made of these.
-/

namespace TransferBoard

/-- What a conversation on the terminal goes through. -/
structure PromptScreen where
  /-- Where the questions are drawn. -/
  surface : Surface
  /-- The keys to come. -/
  keys : List KeyEvent
  /-- What became of the file before. -/
  lastResult : Option (String × Tone) := none

/-- A line of a panel. -/
abbrev PanelLine := String × Tone

/-- The calls for lines one below the other from a row on. -/
def lineCalls : List PanelLine → Nat → List DrawCall
  | [], _ => []
  | (text, tone) :: rest, row => .put row margin text tone :: lineCalls rest (row + 1)

namespace PromptScreen

/-- The row that the lines of a panel start in: two below the heading, and two
more when the last result stands there. -/
def firstRow (s : PromptScreen) : Nat :=
  if s.lastResult.isSome then headerRows + 4 else headerRows + 2

/-- The calls that draw a panel: a heading, the last result, the lines, and the
keys in the bottom row if there is one below the header. -/
def panelCalls (s : PromptScreen) (lines : List PanelLine) (hint : String) : List DrawCall :=
  [.clear headerRows s.surface.height,
   .put headerRows margin "Checksum verification" .header]
  ++ (match s.lastResult with
      | some (text, tone) => [.put (headerRows + 2) margin text tone]
      | none => [])
  ++ lineCalls lines s.firstRow
  ++ (if footerRows < s.surface.height then
        [.put (s.surface.height - 1) margin hint .plain]
      else [])

/-- Draws calls and shows them. -/
def present (s : PromptScreen) (calls : List DrawCall) : Except OsError Unit × PromptScreen :=
  let (r, surface) := s.surface.present calls
  (r, { s with surface := surface })

/-- Shows a panel. Tells the row after its lines. -/
def panel (lines : List PanelLine) (hint : String) : Asked PromptScreen Nat := fun s =>
  match s.present (s.panelCalls lines hint) with
  | (.ok (), s') => (.ok (s.firstRow + lines.length), s')
  | (.error e, s') => (.error e, s')

end PromptScreen

/-! ### Answers -/

/-- The answer that a key gives to the first question. -/
def confirmKey : Option Key → Option Bool
  | none => none
  | some .esc => none
  | some (.char 'y') => some true
  | some (.char 'Y') => some true
  | some _ => some false

/-- What a key answers to the question for a kind: a choice, a cancel, or nothing. -/
inductive KindAnswer where
  /-- A kind, or a cancel. -/
  | answer (choice : Option DigestKind)
  /-- The question stays. -/
  | stay

/-- What a key answers to the question for a kind. -/
def kindAnswer : Key → KindAnswer
  | .char '1' => .answer (some .md5)
  | .char '2' => .answer (some .sha256)
  | .esc => .answer none
  | .char 'q' => .answer none
  | .char 'Q' => .answer none
  | _ => .stay

/-- Reads keys until one answers the question for a kind. -/
def chooseKindKeys : List KeyEvent → Except OsError (Option DigestKind) × List KeyEvent
  | [] => (.ok none, [])
  | .failure e :: rest => (.error e, rest)
  | .crash :: rest => (.error brokenSource, rest)
  | .press key :: rest =>
    match kindAnswer key with
    | .answer choice => (.ok choice, rest)
    | .stay => chooseKindKeys rest

/-- What is shown of a file after its verification. -/
def resultLine (f : CompletedFile) : String × Tone :=
  match f.status with
  | .verified => (f.name ++ ": checksum VERIFIED", .success)
  | .mismatch => (f.name ++ ": checksum MISMATCH", .error)
  | .failed reason => (f.name ++ ": checksum failed (" ++ reason ++ ")", .error)
  | .skipped => (f.name ++ ": comparison skipped", .warning)
  | s => (f.name ++ ": " ++ s.label, .plain)

/-! ### The prompter -/

/-- Puts a question after a panel has been shown. -/
def afterPanel {α : Type} (lines : List PanelLine) (hint : String)
    (question : Nat → Asked PromptScreen α) : Asked PromptScreen α := fun s =>
  match PromptScreen.panel lines hint s with
  | (.error e, s') => (.error e, s')
  | (.ok row, s') => question row s'

/-- Takes an answer off the keys. -/
def answerKeys {α : Type} (answer : List KeyEvent → Except OsError α × List KeyEvent) :
    Asked PromptScreen α := fun s =>
  let (r, keys) := answer s.keys
  (r, { s with keys := keys })

/-- Reads a key as an answer. -/
def answerKey {α : Type} (answer : Option Key → α) : Asked PromptScreen α :=
  answerKeys fun keys => ((readKey keys).1.map answer, (readKey keys).2)

/-- Shows the text typed so far in a row. -/
def echoAt (row : Nat) (text : String) : Asked PromptScreen Unit := fun s =>
  s.present [.clear row (row + 1), .put row margin ("> " ++ text) .plain]

/-- Reads a line, showing it in a row. -/
def answerLine (row : Nat) : Asked PromptScreen (Option String) := fun s =>
  let (r, keys, s') := readLine (echoAt row) [] s.keys s
  (r, { s' with keys := keys })

/-- Asks on the terminal. -/
def terminalPrompter : Prompter PromptScreen where
  confirmStart count :=
    afterPanel [(toString count ++ " file(s) completed. Verify checksums? [y/N]", .info)]
      "[y] Yes   [n] No" fun _ => answerKey confirmKey
  chooseKind f index total :=
    afterPanel
      [("File " ++ toString (index + 1) ++ " of " ++ toString total ++ ": " ++ f.name, .plain),
       ("Path: " ++ f.path.text, .plain),
       ("", .plain),
       ("Select checksum type:", .info),
       ("  1) MD5", .plain),
       ("  2) SHA256", .plain),
       ("  q) Stop verifying", .plain)]
      "[1] MD5   [2] SHA256   [q] Quit" fun _ => answerKeys chooseKindKeys
  calculating f kind :=
    afterPanel [("Calculating " ++ kind.label ++ " for " ++ f.name ++ " ...", .warning)]
      "please wait" fun _ s => (.ok (), s)
  expectedDigest f :=
    let kind := match f.kind with
      | some k => k.label
      | none => "digest"
    afterPanel
      [(f.name, .plain),
       (kind ++ ": " ++ f.digest.getD "", .success),
       ("", .plain),
       ("Expected checksum (Enter to skip):", .info)]
      "[Enter] Confirm   [Esc] Stop" answerLine
  report f s := (.ok (), { s with lastResult := some (resultLine f) })
  summary counts :=
    afterPanel
      [("Verification summary", .info),
       ("  Verified: " ++ toString counts.verified, .success),
       ("  Failed:   " ++ toString counts.failed, .error),
       ("  Skipped:  " ++ toString counts.skipped, .warning)]
      "Press any key to exit" fun _ => answerKey fun _ => ()

end TransferBoard
