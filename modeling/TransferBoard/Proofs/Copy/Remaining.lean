import TransferBoard.Proofs.Copy.Calls
import TransferBoard.Proofs.Copy.Foretold
import TransferBoard.Proofs.Copy.WholeCopy

/-!
# The steps that are left

Every piece that a copy moves takes it five steps, and brings it nearer to the end of its
source.  So the steps that a copy has before it can be counted, and each one that it takes
leaves fewer, unless it has to wait.

## Main definitions

* `CopyStage.remaining size` — a number of steps that a copy at a stage does not exceed, if
  its source has the given size.

## Main results

* `remaining_step` — a copy that need not wait has fewer steps left after one.
* `settle_spec` — a copy that is left alone and not paused comes to its end, if it has one
  before it.
* `copyFile_onCourse` — how a whole copy ends.
* `copyFile_completes` — a copy of a file is complete when nothing is in the way of it.
-/

namespace TransferBoard

open Disk (AgreeOff SameDirs)

/-- A number of steps that a copy does not exceed any more, if its source has the given
size. -/
def CopyStage.remaining (size : Nat) : CopyStage → Nat
  | opening => 5 * size + 16
  | measuring _ => 5 * size + 15
  | creating _ _ => 5 * size + 14
  | announcing _ _ _ => 5 * size + 13
  | showing _ _ _ => 5 * size + 12
  | checking run => 5 * (size - run.copied) + 11
  | reading run => 5 * (size - run.copied) + 10
  | writing run piece => 5 * (size - (run.copied + piece.size)) + 14
  | reporting run count => 5 * (size - (run.copied + count)) + 13
  | drawing run => 5 * (size - run.copied) + 12
  | syncing _ => 9
  | .renaming _ => 8
  | finishing _ => 7
  | showingFinish _ => 6
  | choosingDigest _ => 5
  | hashing _ _ _ => 4
  | settling _ _ => 3
  | showingDigest => 2
  | registering => 1
  | discarding _ _ => 3
  | stopping _ _ => 2
  | showingStop _ => 1
  | ended _ => 0

theorem CopyStage.result?_of_remaining {size : Nat} {stage : CopyStage}
    (h : stage.remaining size = 0) : stage.result?.isSome = true := by
  cases stage with
  | ended result => rfl
  | _ => exact absurd h (by simp [remaining])

namespace CopyPlan

variable {plan : CopyPlan} {tools : CopyTools} {turn : Turn} {w : Workshop} {d₀ d : Disk}
  {stage : CopyStage}

/-- The size of a source is that of the bytes that can be read there. -/
theorem sourceSize_eq (d : Disk) (source : Path) :
    sourceSize d source = (d.bytesAt? source).elim 0 Array.size := by
  rw [sourceSize, Disk.bytesAt?, Disk.at?, Disk.openRead]
  cases d.locate source with
  | error e => rfl
  | ok found =>
    obtain ⟨place, node⟩ := found
    cases node with
    | dir => rfl
    | file contents => rfl
    | stream arrived => cases arrived <;> rfl

/-- A copy that has read a piece is nearer to the end of its source. -/
theorem remaining_reading (hp : plan.Proper) {run : CopyRun} (h : plan.Holds d₀ w.disk (.reading run))
    (hwait : w.disk.isWaiting run.source = false) :
    (plan.step tools turn w (.reading run)).1.remaining (sourceSize d₀ plan.job.source) <
      (CopyStage.reading run).remaining (sourceSize d₀ plan.job.source) := by
  have hnext := (holds_step hp tools turn h).content
  rw [step, if_neg (by simp [hwait])] at hnext ⊢
  cases hread : turn.strike (w.disk.readAt run.source run.copied (tools.readSize turn)) with
  | error e =>
    simp only [CopyStage.remaining]
    omega
  | ok piece =>
    rw [hread] at hnext
    by_cases hempty : piece.isEmpty = true
    · simp only [if_pos hempty, CopyStage.remaining]
      omega
    · -- the piece is not empty, and lies within the source
      simp only [if_neg hempty] at hnext ⊢
      obtain ⟨-, -, bytes, count, hall, hpiece⟩ := hnext
      rw [Array.isEmpty_iff_size_eq_zero, hpiece, Array.size_extract] at hempty
      rw [sourceSize_eq, hall, hpiece]
      simp only [CopyStage.remaining, Array.size_extract, Option.elim_some]
      omega

/-- **A copy that need not wait has fewer steps left after one.** -/
theorem remaining_step (hp : plan.Proper) (tools : CopyTools) (turn : Turn)
    (h : plan.Holds d₀ w.disk stage) (hgoes : stage.isBlocked w = false)
    (hopen : stage.result? = none) :
    (plan.step tools turn w stage).1.remaining (sourceSize d₀ plan.job.source) <
      stage.remaining (sourceSize d₀ plan.job.source) := by
  cases stage with
  -- a read is the only step that depends on what the file holds
  | reading run => exact remaining_reading hp h hgoes
  | ended result => exact absurd hopen (by simp [CopyStage.result?])
  | checking run =>
    rw [step]
    cases hflow : w.board.flow? with
    | none => exact absurd hgoes (by simp [CopyStage.isBlocked, hflow])
    | some flow =>
      cases flow with
      | go => simp [CopyStage.remaining]
      | cancelled =>
        simp only [CopyStage.remaining]
        omega
  | opening => rw [step]; split <;> simp [CopyStage.remaining]
  | measuring source => rw [step]; split <;> simp [CopyStage.remaining]
  | creating source total => rw [step]; split <;> simp [CopyStage.remaining]
  | writing run piece =>
    rw [step]
    split
    · simp only [CopyStage.remaining]
      omega
    · simp [CopyStage.remaining]
  | syncing run => rw [step]; split <;> simp [CopyStage.remaining]
  | «renaming» run => rw [step]; split <;> simp [CopyStage.remaining]
  | stopping run failure => rw [step]; split <;> simp [CopyStage.remaining]
  | showingFinish run => rw [step]; cases plan.job.kind.isSome <;> simp [CopyStage.remaining]
  | choosingDigest run => rw [step]; split <;> simp [CopyStage.remaining]
  | settling run result => rw [step]; split <;> simp [CopyStage.remaining]
  | _ => simp [step, CopyStage.remaining]

/-! ### A copy that is left alone -/

/-- A copy that has ended, or waits although nothing is paused, has the end before it that was
foretold. -/
theorem OnCourse.result?_eq (h : plan.OnCourse d₀ w.disk stage) (hflow : w.board.flow? = some .go)
    (hrests : stage.result?.isSome = true ∨ stage.isBlocked w = true) :
    stage.result? = plan.foretold d₀ .opening := by
  have hending := h.ending
  cases stage with
  | ended result => exact hending
  | checking run => simp [CopyStage.result?, CopyStage.isBlocked, hflow] at hrests
  | reading run =>
    -- nothing will ever arrive on the stream that it reads
    have hwait : w.disk.nodeAt run.source = some (.stream none) := by
      simpa [CopyStage.result?, CopyStage.isBlocked, Disk.isWaiting] using hrests
    have hnone : plan.foretold w.disk (.reading run) = none := by
      rw [foretold, hwait]
      rfl
    exact hnone.symm.trans hending
  | _ => simp [CopyStage.result?, CopyStage.isBlocked] at hrests

/-- **A copy that is left alone comes to its end**, if it has one before it. -/
theorem settle_spec (hp : plan.Proper) (tools : CopyTools) (now : Moment) (n : Nat) :
    ∀ (stage : CopyStage) (w : Workshop), plan.OnCourse d₀ w.disk stage →
      w.board.flow? = some .go → stage.remaining (sourceSize d₀ plan.job.source) ≤ n →
      let c := plan.settle tools { now := now } n stage w
      plan.OnCourse d₀ c.2.disk c.1 ∧ c.2.board.flow? = some .go ∧
        c.1.result? = plan.foretold d₀ .opening := by
  induction n with
  | zero =>
    intro stage w h hflow hn
    have hended := CopyStage.result?_of_remaining (Nat.le_zero.mp hn)
    exact ⟨h, hflow, h.result?_eq hflow (.inl hended)⟩
  | succ n ih =>
    intro stage w h hflow hn
    rw [settle]
    -- the copy has ended or waits for the flags, which cannot be as long as they say go
    by_cases hrests : (stage.result?.isSome || stage.isBlocked w) = true
    · rw [if_pos hrests]
      exact ⟨h, hflow, h.result?_eq hflow (Bool.or_eq_true _ _ ▸ hrests)⟩
    · rw [if_neg hrests]
      simp only [Bool.or_eq_true, not_or, Bool.not_eq_true, Option.isSome_eq_false_iff,
        Option.isNone_iff_eq_none] at hrests
      have hgoes : w.board.isCancelled = false :=
        Dashboard.isCancelled_eq_false_iff.mpr (by simp [hflow])
      -- each step makes the measure smaller, so the rounds are enough
      have hless := remaining_step hp tools { now := now } h.holds hrests.2 hrests.1
      exact ih _ _ (onCourse_step hp tools rfl hgoes h) ((plan.sameFlags_step _ _ _ _).flow?.trans hflow)
        (Nat.le_of_lt_succ (Nat.lt_of_lt_of_le hless hn))

/-- **How a whole copy ends**, also where others have written before, but not on its way. -/
theorem copyFile_onCourse {job : CopyJob} (hplan : job.plan? = some plan) (tools : CopyTools)
    (now : Moment) (h : plan.OnCourse d₀ w.disk .opening) (hflow : w.board.flow? = some .go) :
    let c := copyFile job tools now w
    c.1 = plan.foretold d₀ .opening ∧ c.2.board.flow? = some .go ∧
      (∀ result, c.1 = some result → plan.OnCourse d₀ c.2.disk (.ended result)) ∧
      AgreeOff (plan.WritesAt d₀) w.disk c.2.disk := by
  obtain ⟨hp, rfl, -⟩ := proper_of_plan? hplan
  have hdirs := h.holds.placed.dirs
  have hsize : sourceSize w.disk plan.job.source = sourceSize d₀ plan.job.source := by
    rw [sourceSize_eq, sourceSize_eq, Disk.bytesAt?_congr h.holds.content.1.1]
  -- the bound on the rounds is the measure of the first stage
  obtain ⟨hcourse, hflow', hresult⟩ := settle_spec hp tools now (copySteps w.disk plan.job)
    .opening w h hflow (by rw [copySteps, hsize, CopyStage.remaining]; omega)
  have hcopy : copyFile plan.job tools now w =
      ((plan.settle tools { now := now } (copySteps w.disk plan.job) .opening w).1.result?,
        (plan.settle tools { now := now } (copySteps w.disk plan.job) .opening w).2) := by
    rw [copyFile, hplan]
  simp only [hcopy]
  refine ⟨hresult, hflow', ?_, ?_⟩
  · intro result hended
    rwa [CopyStage.eq_ended_of_result? hended] at hcourse
  · obtain ⟨k, hk⟩ := plan.settle_eq_run tools { now := now } (copySteps w.disk plan.job)
      .opening w
    rw [hk]
    refine (holds_run hp tools _ (.opening, w) (plan.holds_opening w.disk)).2.mono ?_
    exact fun q hq => hq.imp (Disk.resolve_congr hdirs).mpr (Disk.resolve_congr hdirs).mpr

end CopyPlan

/-- **A copy of a file is complete when nothing is in the way of it**: its temporary file can be
made, there is no directory at its destination, and it is neither paused nor cancelled. -/
theorem copyFile_completes {job : CopyJob} {w : Workshop} {bytes : Bytes} {p : Path}
    (hdest : job.destination? = some p) (hfile : w.disk.at? job.source = some (.file bytes))
    (htemp : (w.disk.createFile (tempPath p)).isOk = true) (hfree : w.disk.at? p ≠ some .dir)
    (hflow : w.board.flow? = some .go) (tools : CopyTools) (now : Moment) :
    (copyFile job tools now w).1 = some (.ok (.completed p)) := by
  obtain ⟨name, hname, rfl⟩ := Option.map_eq_some_iff.mp hdest
  obtain ⟨plan, hplan⟩ : ∃ plan, job.plan? = some plan := ⟨_, by rw [CopyJob.plan?, hname]; rfl⟩
  obtain ⟨hp, rfl, hdest'⟩ := CopyPlan.proper_of_plan? hplan
  rw [Option.some.inj (hdest.symm.trans hdest')] at htemp hfree ⊢
  obtain ⟨hend, -⟩ :=
    CopyPlan.copyFile_onCourse hplan tools now (plan.onCourse_opening w.disk) hflow
  obtain ⟨place, hplace⟩ := Disk.at?_eq_some_iff.mp hfile
  have hopen : w.disk.openRead plan.job.source = .ok (place, .file bytes) :=
    Disk.locate_eq_ok_iff.mpr hplace
  -- what is foretold is told from the disk, stage by stage from the last one back
  have hmoved : plan.foretoldMoved w.disk = some (.ok (.completed plan.target)) := by
    rw [CopyPlan.foretoldMoved, if_neg hfree]
  have hopened : plan.foretoldOpened w.disk place = some (.ok (.completed plan.target)) := by
    rw [← hp.temp] at htemp
    rw [CopyPlan.foretoldOpened, hplace.2.1]
    cases hcreate : w.disk.createFile plan.temp with
    | error e => rw [hcreate] at htemp; cases htemp
    | ok made => exact hmoved
  simp only [hend, CopyPlan.foretold, hopen, hopened]

end TransferBoard
