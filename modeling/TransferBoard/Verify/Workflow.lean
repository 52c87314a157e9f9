import TransferBoard.Verify.Prompter

/-!
# The workflow of a verification

The completed files are taken one by one: which digest, what is it, what should it
be, are they the same. A missing or a wrong digest is noted and the walk goes on;
only the user can end it early.

## Main definitions

* `WorkflowStatus`, `WorkflowOutcome` — how it ended, with the files and the counts.
* `WorkflowError` — why it did not end properly.
* `Hashing σ`, `Digester.hashing` — how digests are come by in a conversation, and a
  digester that remembers nothing.
* `verifyFile` — the verification of one file.
* `verifyFiles` — the walk over the files.
* `runWorkflow` — the whole conversation.
-/

namespace TransferBoard

/-- How a workflow ended. -/
inductive WorkflowStatus where
  /-- The user said no before any file was touched. -/
  | declined
  /-- The user stopped at a question; the files after it were left alone. -/
  | aborted
  /-- All files were processed. -/
  | completed
  deriving DecidableEq, Repr

/-- The name of the status in a report. -/
def WorkflowStatus.word : WorkflowStatus → String
  | declined => "declined"
  | aborted => "aborted"
  | completed => "completed"

/-- What became of the files. -/
structure WorkflowOutcome where
  /-- How the workflow ended. -/
  status : WorkflowStatus
  /-- The counts over the files. -/
  summary : VerifySummary
  /-- The files, in the order they were given. -/
  files : List CompletedFile
  deriving DecidableEq, Repr

/-- The outcome with the counts over its files. -/
def WorkflowOutcome.of (status : WorkflowStatus) (files : List CompletedFile) : WorkflowOutcome :=
  ⟨status, VerifySummary.ofFiles files, files⟩

/-- Why a workflow did not end properly. -/
inductive WorkflowError where
  /-- A question could not be put. -/
  | prompt (cause : OsError)
  /-- A file was not at the start of its verification. -/
  | transition (cause : InvalidTransition)
  deriving DecidableEq, Repr

/-- The wording of a failed workflow. -/
def WorkflowError.message : WorkflowError → String
  | prompt cause => cause.message
  | transition cause => cause.message

/-- A part of the conversation with someone who remembers `σ`. -/
abbrev Talk (σ : Type) := ExceptT WorkflowError (StateM σ)

/-- Puts a question. -/
def ask {σ α : Type} (question : Asked σ α) : Talk σ α :=
  ExceptT.mk fun s =>
    match question s with
    | (.ok a, s') => (.ok a, s')
    | (.error e, s') => (.error (.prompt e), s')

/-- How someone with a memory comes by the digest of a file. -/
abbrev Hashing (σ : Type) := DigestKind → Path → σ → Except DigestError String × σ

/-- A digester that neither remembers nor changes anything. -/
def Digester.hashing {σ : Type} (digester : Digester) : Hashing σ :=
  fun kind path s => (digester kind path, s)

/-- Calculates the digest of a file. That there is none does not end the conversation. -/
def hash {σ : Type} (hashing : Hashing σ) (kind : DigestKind) (path : Path) :
    Talk σ (Except DigestError String) :=
  ExceptT.mk fun s =>
    match hashing kind path s with
    | (answer, s') => (.ok answer, s')

/-- Takes a step of a file's verification. -/
def take {σ α : Type} (step : Except InvalidTransition α) : Talk σ α :=
  ExceptT.mk fun s =>
    match step with
    | .ok a => (.ok a, s)
    | .error e => (.error (.transition e), s)

section

variable {σ : Type} (p : Prompter σ) (hashing : Hashing σ)

/-- The digest to compare with: the one known before, or the user's answer. -/
def expectedAnswer (f : CompletedFile) : Talk σ (Option String) :=
  match f.expected with
  | some expected => pure (some expected)
  | none => ask (p.expectedDigest f)

/-- Verifies one file with a digest of the given kind. Tells whether the user lets
the walk go on. -/
def verifyFile (f : CompletedFile) (kind : DigestKind) : Talk σ (Bool × CompletedFile) := do
  let f ← take (f.startCalculation kind)
  ask (p.calculating f kind)
  let answer ← hash hashing kind f.path
  let f ← take (f.recordDigest answer)
  if f.computed then
    match ← expectedAnswer p f with
    | none => pure (false, f)
    | some answer => do
      let f ← take (f.resolve answer)
      pure (true, f)
  else pure (true, f)

/-- Walks over the files that are left. `done` are those before them, the latest
one first. -/
def verifyFiles (total : Nat) (done : List CompletedFile) :
    List CompletedFile → Talk σ WorkflowOutcome
  | [] => do
    let outcome := WorkflowOutcome.of .completed done.reverse
    ask (p.summary outcome.summary)
    pure outcome
  | f :: rest => do
    match ← ask (p.chooseKind f done.length total) with
    | none => pure (.of .aborted (done.reverse ++ f :: rest))
    | some kind => do
      let (goOn, f') ← verifyFile p hashing f kind
      if goOn then do
        ask (p.report f')
        verifyFiles total (f' :: done) rest
      else pure (.of .aborted (done.reverse ++ f' :: rest))

/-- The whole conversation over some files. Without files there is nothing to ask. -/
def workflow (files : List CompletedFile) : Talk σ WorkflowOutcome :=
  if files = [] then pure (.of .completed [])
  else do
    match ← ask (p.confirmStart files.length) with
    | some true => verifyFiles p hashing files.length [] files
    | _ => pure (.of .declined files)

/-- Runs the conversation with someone who remembers `s`, and a digester. -/
def runWorkflow (digester : Digester) (files : List CompletedFile) (s : σ) :
    Except WorkflowError WorkflowOutcome × σ :=
  workflow p digester.hashing files s

end

end TransferBoard
