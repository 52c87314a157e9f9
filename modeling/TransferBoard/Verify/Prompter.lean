import TransferBoard.Verify.CompletedFile

/-!
# Asking the user

The workflow of a verification asks questions and shows what happens. Who is
asked, and how, is left open: any answers and any failures are possible.

## Main definitions

* `VerifySummary` — the counts shown at the end.
* `Asked σ α` — a question: it may fail, and changes what the answerer remembers.
* `Prompter σ` — the questions and messages of the workflow.
-/

namespace TransferBoard

/-- The counts of files by their outcome. A file without a digest counts as failed,
as does one with the wrong digest. -/
structure VerifySummary where
  /-- Files with the expected digest. -/
  verified : Nat := 0
  /-- Files without a digest or with the wrong one. -/
  failed : Nat := 0
  /-- Files that were not compared. -/
  skipped : Nat := 0
  deriving DecidableEq, Repr

namespace VerifySummary

/-- The summary with one more file in the given status. -/
def count (s : VerifySummary) : VerifyStatus → VerifySummary
  | .verified => { s with verified := s.verified + 1 }
  | .failed _ => { s with failed := s.failed + 1 }
  | .mismatch => { s with failed := s.failed + 1 }
  | .skipped => { s with skipped := s.skipped + 1 }
  | _ => s

/-- The counts over some files. -/
def ofFiles (files : List CompletedFile) : VerifySummary :=
  files.foldl (fun s f => s.count f.status) {}

/-- The summary in one line. -/
def text (s : VerifySummary) : String :=
  "verified: " ++ toString s.verified ++ ", failed: " ++ toString s.failed
    ++ ", skipped: " ++ toString s.skipped

end VerifySummary

/-- A question put to someone with a memory. -/
abbrev Asked (σ : Type) (α : Type) := σ → Except OsError α × σ

/-- The questions and messages of the workflow. A question that waits for the user
may be answered by a cancel: nothing. -/
structure Prompter (σ : Type) where
  /-- Go ahead with so many files? -/
  confirmStart : Nat → Asked σ (Option Bool)
  /-- Which digest for a file, given its number from zero and the number of
  files? -/
  chooseKind : CompletedFile → Nat → Nat → Asked σ (Option DigestKind)
  /-- The digest of a file is being calculated. -/
  calculating : CompletedFile → DigestKind → Asked σ Unit
  /-- Which digest is expected of a file? A blank answer skips the comparison. -/
  expectedDigest : CompletedFile → Asked σ (Option String)
  /-- This became of a file. -/
  report : CompletedFile → Asked σ Unit
  /-- These are the counts. -/
  summary : VerifySummary → Asked σ Unit

end TransferBoard
