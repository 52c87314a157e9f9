/-!
# The verification of one file

A file that is verified has its digest calculated first, which may fail. A
calculated digest is compared with an expected one, or the comparison is skipped.

```text
not requested ─→ calculating ─→ failed
                             └→ calculated ─→ skipped | verified | mismatch
```

## Main definitions

* `VerifyStatus` — where a file is on this way.
* `VerifyStatus.isFinal` — no step leads on.
* `VerifyAction`, `InvalidTransition` — the steps, and a step that is not allowed.
* `VerifyStatus.toCalculating`, `toCalculated`, `toFailed`, `toSkipped`, `toCompared`
  — the steps.
-/

namespace TransferBoard

/-- Where a file is on the way to its verification. -/
inductive VerifyStatus where
  /-- Nobody has asked for it. -/
  | notRequested
  /-- The digest is being calculated. -/
  | calculating
  /-- There is no digest, for the reason given. -/
  | failed (reason : String)
  /-- There is a digest. -/
  | calculated
  /-- The digest was not compared. -/
  | skipped
  /-- The digest is the expected one. -/
  | verified
  /-- The digest is not the expected one. -/
  | mismatch
  deriving DecidableEq, Repr

/-- The steps of a verification. -/
inductive VerifyAction where
  /-- Start to calculate the digest. -/
  | startCalculation
  /-- Note that there is a digest. -/
  | recordDigest
  /-- Note that there is none. -/
  | recordFailure
  /-- Do without the comparison. -/
  | skipComparison
  /-- Compare the digest with the expected one. -/
  | compareDigests
  deriving DecidableEq, Repr

/-- The wording of a step. -/
def VerifyAction.label : VerifyAction → String
  | startCalculation => "start calculation"
  | recordDigest => "record digest"
  | recordFailure => "record failure"
  | skipComparison => "skip comparison"
  | compareDigests => "compare digests"

namespace VerifyStatus

/-- The name of the status as it is shown. -/
def label : VerifyStatus → String
  | notRequested => "not requested"
  | calculating => "calculating"
  | failed _ => "failed"
  | calculated => "calculated"
  | skipped => "skipped"
  | verified => "verified"
  | mismatch => "mismatch"

/-- The name of the status in a report. -/
def word : VerifyStatus → String
  | notRequested => "not_requested"
  | s => s.label

/-- No step leads on from here. -/
def isFinal : VerifyStatus → Bool
  | failed _ => true
  | skipped => true
  | verified => true
  | mismatch => true
  | _ => false

end VerifyStatus

/-- A step that is not allowed where the file is. -/
structure InvalidTransition where
  /-- Where the file is. -/
  status : VerifyStatus
  /-- The step. -/
  action : VerifyAction
  deriving DecidableEq, Repr

/-- The wording of a step that is not allowed. -/
def InvalidTransition.message (e : InvalidTransition) : String :=
  "cannot " ++ e.action.label ++ " while " ++ e.status.label

namespace VerifyStatus

/-- Starts the calculation. -/
def toCalculating : VerifyStatus → Except InvalidTransition VerifyStatus
  | notRequested => .ok calculating
  | s => .error ⟨s, .startCalculation⟩

/-- Notes that there is a digest. -/
def toCalculated : VerifyStatus → Except InvalidTransition VerifyStatus
  | calculating => .ok calculated
  | s => .error ⟨s, .recordDigest⟩

/-- Notes that there is no digest. -/
def toFailed (reason : String) : VerifyStatus → Except InvalidTransition VerifyStatus
  | calculating => .ok (failed reason)
  | s => .error ⟨s, .recordFailure⟩

/-- Does without the comparison. -/
def toSkipped : VerifyStatus → Except InvalidTransition VerifyStatus
  | calculated => .ok skipped
  | s => .error ⟨s, .skipComparison⟩

/-- Notes the result of the comparison. -/
def toCompared (matched : Bool) : VerifyStatus → Except InvalidTransition VerifyStatus
  | calculated => .ok (if matched then verified else mismatch)
  | s => .error ⟨s, .compareDigests⟩

end VerifyStatus

end TransferBoard
