import TransferBoard.Verify.Workflow

/-!
# Answers prepared beforehand

A prompter that gives the answers of a script, and notes what it was asked.

## Main definitions

* `Question` — a question or message of the workflow.
* `PromptScript` — the answers to come, the failure to come, the questions so far.
* `scriptedPrompter` — the prompter made of these. When the answers have run out,
  it cancels.
-/

namespace TransferBoard

/-- A question or message of the workflow, with what it was about. -/
inductive Question where
  /-- Go ahead with so many files? -/
  | confirmStart (count : Nat)
  /-- Which digest for this file? -/
  | chooseKind (name : String) (index total : Nat)
  /-- The digest of this file is being calculated. -/
  | calculating (name : String) (kind : DigestKind) (status : VerifyStatus)
  /-- Which digest is expected of this file? -/
  | expectedDigest (name : String) (digest : Option String)
  /-- This became of a file. -/
  | report (name : String) (status : VerifyStatus)
  /-- These are the counts. -/
  | summary (counts : VerifySummary)
  deriving DecidableEq, Repr

/-- The answers to come and the questions so far. -/
structure PromptScript where
  /-- The answer to the first question. -/
  start : Option Bool := none
  /-- The kinds to choose; nothing for a cancel. -/
  kinds : List (Option DigestKind) := []
  /-- The expected digests to give; nothing for a cancel. -/
  expected : List (Option String) := []
  /-- Why a question, given with those asked before it, cannot be put. -/
  fault : List Question → Question → Option OsError := fun _ _ => none
  /-- The questions so far, the latest one first. -/
  asked : List Question := []

namespace PromptScript

/-- Notes a question and answers it, unless it cannot be put. -/
def answer {α : Type} (q : Question) (reply : PromptScript → α × PromptScript) :
    Asked PromptScript α := fun s =>
  let s' := { s with asked := q :: s.asked }
  match s.fault s.asked q with
  | some e => (.error e, s')
  | none =>
    let (a, s'') := reply s'
    (.ok a, s'')

end PromptScript

/-- Gives the answers of a script. -/
def scriptedPrompter : Prompter PromptScript where
  confirmStart count := PromptScript.answer (.confirmStart count) fun s => (s.start, s)
  chooseKind f index total :=
    PromptScript.answer (.chooseKind f.name index total) fun s =>
      (s.kinds.head?.join, { s with kinds := s.kinds.tail })
  calculating f kind :=
    PromptScript.answer (.calculating f.name kind f.status) fun s => ((), s)
  expectedDigest f :=
    PromptScript.answer (.expectedDigest f.name f.digest) fun s =>
      (s.expected.head?.join, { s with expected := s.expected.tail })
  report f := PromptScript.answer (.report f.name f.status) fun s => ((), s)
  summary counts := PromptScript.answer (.summary counts) fun s => ((), s)

end TransferBoard
