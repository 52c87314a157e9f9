import TransferBoard.Proofs.Verify.Simulates

/-!
# The record of a conversation

What is asked, shown and calculated in the course of a verification is part of what the
verification does, and cannot be seen in how it ends.  So the conversation is recorded:
the one who answers notes each exchange in a list beside its own memory.  The record does
not influence the conversation.

## Main definitions

* `Exchange` — a question, a message or a calculation, with what came back.
* `Exchange.goesOn`, `Exchange.fails` — the conversation may go on after the exchange; the
  question or message could not be put.
* `Prompter.noting`, `Hashing.noting` — a prompter and a digester that note what they are
  asked.
* `record p hashing files s` — the exchanges of a whole conversation, in their order.

## Main results

* `workflow_noting` — the conversation ends as it does without a record.
-/

namespace TransferBoard

/-- A question, a message or a calculation of a conversation, with what came back. -/
inductive Exchange where
  /-- Go ahead with so many files? -/
  | confirmStart (count : Nat) (answer : Except OsError (Option Bool))
  /-- Which digest for this file, which has this number among so many? -/
  | chooseKind (file : CompletedFile) (index total : Nat)
    (answer : Except OsError (Option DigestKind))
  /-- The digest of this file is being calculated. -/
  | calculating (file : CompletedFile) (kind : DigestKind) (answer : Except OsError Unit)
  /-- The digest of the file at this path. -/
  | digest (kind : DigestKind) (path : Path) (answer : Except DigestError String)
  /-- Which digest is expected of this file? -/
  | expectedDigest (file : CompletedFile) (answer : Except OsError (Option String))
  /-- This became of a file. -/
  | report (file : CompletedFile) (answer : Except OsError Unit)
  /-- These are the counts. -/
  | summary (counts : VerifySummary) (answer : Except OsError Unit)

namespace Exchange

/-- The conversation may go on: nothing was declined or cancelled, and the question or
message could be put.  That there is no digest does not matter. -/
def goesOn : Exchange → Bool
  | confirmStart _ (.ok (some true)) | chooseKind _ _ _ (.ok (some _)) | calculating _ _ (.ok ())
  | digest _ _ _ | expectedDigest _ (.ok (some _)) | report _ (.ok ()) | summary _ (.ok ()) => true
  | _ => false

/-- The question or message could not be put. -/
def fails : Exchange → Bool
  | confirmStart _ (.error _) | chooseKind _ _ _ (.error _) | calculating _ _ (.error _)
  | expectedDigest _ (.error _) | report _ (.error _) | summary _ (.error _) => true
  | _ => false

end Exchange

section

variable {σ α β : Type}

/-- A memory with a record beside it. -/
abbrev Noted (σ : Type) := σ × List Exchange

/-- Puts a question and notes the exchange. -/
def noting (exchange : Except OsError α → Exchange) (question : Asked σ α) : Asked (Noted σ) α :=
  fun s => ((question s.1).1, ((question s.1).2, s.2 ++ [exchange (question s.1).1]))

/-- The prompter that notes what it is asked. -/
def Prompter.noting (p : Prompter σ) : Prompter (Noted σ) where
  confirmStart count := TransferBoard.noting (.confirmStart count) (p.confirmStart count)
  chooseKind f index total :=
    TransferBoard.noting (.chooseKind f index total) (p.chooseKind f index total)
  calculating f kind := TransferBoard.noting (.calculating f kind) (p.calculating f kind)
  expectedDigest f := TransferBoard.noting (.expectedDigest f) (p.expectedDigest f)
  report f := TransferBoard.noting (.report f) (p.report f)
  summary counts := TransferBoard.noting (.summary counts) (p.summary counts)

/-- The digester that notes what it is asked. -/
def Hashing.noting (hashing : Hashing σ) : Hashing (Noted σ) := fun kind path s =>
  ((hashing kind path s.1).1,
    ((hashing kind path s.1).2, s.2 ++ [.digest kind path (hashing kind path s.1).1]))

/-- The exchanges of a whole conversation, in their order. -/
def record (p : Prompter σ) (hashing : Hashing σ) (files : List CompletedFile) (s : σ) :
    List Exchange :=
  (workflow p.noting hashing.noting files (s, [])).2.2

/-! ### The record does not influence the conversation -/

variable (p : Prompter σ) (hashing : Hashing σ)

theorem simulates_noting (exchange : Except OsError α → Exchange) (question : Asked σ α) :
    Simulates (fun (noted : Noted σ) s => noted.1 = s) (noting exchange question) question := by
  rintro noted s rfl
  exact ⟨rfl, rfl⟩

/-- One who takes notes answers as before. -/
theorem Prompter.simulates_noting :
    p.noting.Simulates (fun (noted : Noted σ) s => noted.1 = s) p where
  confirmStart _ := TransferBoard.simulates_noting _ _
  chooseKind _ _ _ := TransferBoard.simulates_noting _ _
  calculating _ _ := TransferBoard.simulates_noting _ _
  expectedDigest _ := TransferBoard.simulates_noting _ _
  report _ := TransferBoard.simulates_noting _ _
  summary _ := TransferBoard.simulates_noting _ _

/-- **The conversation ends as it does without a record.** -/
theorem workflow_noting (files : List CompletedFile) (s : σ) :
    workflow p.noting hashing.noting files (s, []) =
      ((workflow p hashing files s).1,
        ((workflow p hashing files s).2, record p hashing files s)) := by
  have hhashing : hashing.noting.Simulates (fun (noted : Noted σ) s => noted.1 = s) hashing := by
    rintro kind path noted s rfl
    exact ⟨rfl, rfl⟩
  obtain ⟨hresult, hmemory⟩ := simulates_workflow p.simulates_noting hhashing files (s, []) s rfl
  exact Prod.ext hresult (Prod.ext hmemory rfl)

end

end TransferBoard
