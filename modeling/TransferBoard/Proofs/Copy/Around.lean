import TransferBoard.Proofs.Copy.Records
import TransferBoard.Proofs.Copy.Remaining

/-!
# What is called around a copy

Others may use the dashboard between any two steps of a copy.  Its steps are sections, as are
theirs, so the dashboard goes through sections all along.  A copy that ends as complete has been
announced in one of its steps, which has given it its handle, and has noted its file in the last
one.

## Main definitions

* `CopyMove.MadeOf` — what others do around a copy is made of sections of some kind.
* `CopyJob.Given` — the handle that a copy has been given.
* `CopyPlan.Notes` — the file of a copy is noted once the copy has ended as complete, and not
  before.

## Main results

* `run_of_sections` — an induction over the steps of a copy and the sections of others.
* `board_run` — the dashboard around a copy goes through sections.
* `notes_step`, `notes_run` — every step notes the file when it should, and so does every course.
* `exists_given` — a copy that has ended as complete has been given a handle.
-/

namespace TransferBoard

/-- What others do to the dashboard is made of sections of the given kind. -/
def CopyMove.MadeOf (allowed : BoardSection → Bool) : CopyMove → Prop
  | own _ => True
  | others change => Dashboard.MadeOf allowed change

namespace CopyStage

/-- The copy has no entry yet. -/
def isUnannounced : CopyStage → Bool
  | opening | measuring _ | creating _ _ | announcing _ _ _ => true
  | _ => false

/-- The copy has been given up, and has nothing more to do with its entry. -/
def isGivenUp : CopyStage → Bool
  | showingStop _ | ended (.error _) | ended (.ok .cancelled) => true
  | _ => false

theorem isGivenUp_ended (failure : Option CopyError) :
    (ended (givenUp failure)).isGivenUp = true := by
  cases failure <;> rfl

end CopyStage

namespace CopyPlan

variable {plan : CopyPlan} {tools : CopyTools} {turn : Turn} {w : Workshop} {stage : CopyStage}
  {c : CopyStage × Workshop} {moves : List CopyMove}

/-- A course in which others have held the lock of the dashboard once. -/
def onBoard (c : CopyStage × Workshop) (sec : BoardSection) : CopyStage × Workshop :=
  (c.1, { c.2 with board := c.2.board.after sec })

/-- **What the steps of a copy keep, and the sections of others, its course keeps.** -/
theorem run_of_sections {P : CopyStage × Workshop → Prop} {allowed : BoardSection → Bool}
    (hstep : ∀ c turn, P c → P (plan.step tools turn c.2 c.1))
    (hothers : ∀ c sec, allowed sec = true → P c → P (onBoard c sec))
    (hmoves : ∀ move ∈ moves, move.MadeOf allowed) (hc : P c) : P (plan.run tools c moves) := by
  induction moves generalizing c with
  | nil => exact hc
  | cons move moves ih =>
    refine ih (fun m hm => hmoves m (List.mem_cons_of_mem _ hm)) ?_
    have hmove := hmoves move List.mem_cons_self
    cases move with
    | own turn => exact hstep c turn hc
    | others change =>
      exact Dashboard.MadeOf.keeps (P := fun d => P (c.1, { c.2 with board := d })) hmove
        (fun d sec hsec => hothers (c.1, { c.2 with board := d }) sec hsec) hc

/-- **The dashboard around a copy goes through sections.** -/
theorem board_run {allowed : BoardSection → Bool} (hmoves : ∀ move ∈ moves, move.MadeOf allowed)
    (plan : CopyPlan) (tools : CopyTools) (c : CopyStage × Workshop) :
    ∃ sections, (plan.run tools c moves).2.board = c.2.board.run sections := by
  refine run_of_sections (P := fun c' => ∃ sections, c'.2.board = c.2.board.run sections) ?_ ?_
    hmoves ⟨[], rfl⟩
  · rintro c' turn ⟨sections, hboard⟩
    rw [board_step, hboard]
    cases plan.boardSection? turn c'.1 with
    | none => exact ⟨sections, rfl⟩
    | some sec => exact ⟨sections ++ [sec], (c.2.board.run_snoc sections sec).symm⟩
  · rintro c' sec - ⟨sections, hboard⟩
    exact ⟨sections ++ [sec], by rw [onBoard, hboard, Dashboard.run_snoc]⟩

/-! ### The file that is noted -/

/-- The file of the copy is noted once the copy has ended as complete, and not before. -/
structure Notes (plan : CopyPlan) (c : CopyStage × Workshop) : Prop where
  /-- It is noted when the copy has ended as complete. -/
  landed : c.1.isLanded = true → plan.record ∈ c.2.board.state.completed.files
  /-- Until then no file is noted for its place. -/
  absent : c.1.isLanded = false → c.2.board.state.completed.contains plan.target = false

/-- **A step notes the file when the copy ends as complete.** -/
theorem notes_step (hc : plan.Notes c) (tools : CopyTools) (turn : Turn) :
    plan.Notes (plan.step tools turn c.2 c.1) := by
  obtain ⟨stage, w⟩ := c
  by_cases hregister : stage = .registering
  · subst hregister
    have hnew : w.board.state.completed.contains plan.record.path = false := hc.absent rfl
    refine ⟨fun _ => ?_, fun hopen => (nomatch hopen)⟩
    show plan.record ∈ (w.board.state.completed.register plan.record).2.files
    rw [CompletedFiles.register_of_not_contains hnew]
    exact List.mem_append_right _ (List.mem_singleton_self _)
  · constructor
    · rw [plan.isLanded_step tools turn w hregister, plan.completed_step tools turn w hregister]
      exact hc.landed
    · rw [plan.isLanded_step tools turn w hregister, plan.completed_step tools turn w hregister]
      exact hc.absent

/-- **So in the end the file of a copy that is complete is noted**, if none was for its place. -/
theorem notes_run (hmoves : ∀ move ∈ moves, move.MadeOf (BoardSection.leavesNoted plan.target))
    (tools : CopyTools) (hc : plan.Notes c) : plan.Notes (plan.run tools c moves) := by
  refine run_of_sections (fun c turn hc => notes_step hc tools turn) ?_ hmoves hc
  intro c sec hsec hc
  refine ⟨fun hlanded => Dashboard.noted_after (hc.landed hlanded) ?_,
    fun hopen => Dashboard.contains_after (hc.absent hopen) hsec⟩
  rintro rfl
  exact nomatch hsec

/-! ### The handle of a copy -/

theorem isGivenUp_step (hup : stage.isGivenUp = true) :
    (plan.step tools turn w stage).1.isGivenUp = true := by
  cases stage with
  | showingStop failure => exact CopyStage.isGivenUp_ended failure
  | ended result => exact hup
  | _ => exact absurd hup (by simp [CopyStage.isGivenUp])

/-- A copy that has no entry yet has none after a step either, or is given up, unless it is
announced in the step. -/
theorem isUnannounced_step (hopen : stage.isUnannounced = true) :
    (∃ source temp total, stage = .announcing source temp total) ∨
      (plan.step tools turn w stage).1.isUnannounced = true ∨
      (plan.step tools turn w stage).1.isGivenUp = true := by
  have hnext := plan.next_step tools turn w stage
  generalize (plan.step tools turn w stage).1 = next at hnext ⊢
  cases hnext with
  | announced => exact .inl ⟨_, _, _, rfl⟩
  | waits => exact .inr (.inl hopen)
  | opened => exact .inr (.inl rfl)
  | measured => exact .inr (.inl rfl)
  | created => exact .inr (.inl rfl)
  | unopened => exact .inr (.inr rfl)
  | unmeasured => exact .inr (.inr rfl)
  | uncreated => exact .inr (.inr rfl)
  | _ => cases hopen

/-- A copy has no entry yet, or is given up, or has been announced in one of its steps. -/
theorem announced_of_run (plan : CopyPlan) (tools : CopyTools) (moves : List CopyMove)
    (w : Workshop) :
    (plan.run tools (.opening, w) moves).1.isUnannounced = true ∨
    (plan.run tools (.opening, w) moves).1.isGivenUp = true ∨
    ∃ past turn rest source temp total, moves = past ++ .own turn :: rest ∧
      (plan.run tools (.opening, w) past).1 = .announcing source temp total := by
  induction moves using List.reverseRecOn with
  | nil => exact .inl rfl
  | append_singleton moves move ih =>
    rw [run_append]
    -- the moves grow at their end; what was announced or given up once stays so
    rcases ih with hopen | hup | ⟨past, turn, rest, source, temp, total, rfl, hstage⟩
    · cases move with
      | others change => exact .inl hopen
      | own turn =>
        rcases isUnannounced_step hopen with ⟨source, temp, total, hstage⟩ | hopen | hup
        · exact .inr (.inr ⟨moves, turn, [], source, temp, total, rfl, hstage⟩)
        · exact .inl hopen
        · exact .inr (.inl hup)
    · cases move with
      | others change => exact .inr (.inl hup)
      | own turn => exact .inr (.inl (isGivenUp_step hup))
    · exact .inr (.inr ⟨past, turn, rest ++ [move], source, temp, total, by simp, hstage⟩)

end CopyPlan

/-- The handle that a copy has been given in the step in which it was announced. -/
def CopyJob.Given (job : CopyJob) (tools : CopyTools) (moves : List CopyMove) (w : Workshop)
    (h : Handle) : Prop :=
  ∃ plan past turn rest source temp total, job.plan? = some plan ∧
    moves = past ++ .own turn :: rest ∧
    (plan.run tools (.opening, w) past).1 = .announcing source temp total ∧
    h = ((plan.run tools (.opening, w) past).2.board.track (plan.request total) turn.now).1

namespace CopyJob

variable {job : CopyJob} {tools : CopyTools} {moves : List CopyMove} {w : Workshop}

/-- A copy that has ended as complete has a plan, has come to the end of its course, and is
there. -/
theorem run_of_completed {p : Path}
    (h : (job.copyDuring tools moves w).1 = some (.ok (.completed p))) :
    ∃ plan, job.plan? = some plan ∧ plan.target = p ∧
      plan.run tools (.opening, w) moves =
        (.ended (.ok (.completed p)), (job.copyDuring tools moves w).2) ∧
      plan.There w.disk (job.copyDuring tools moves w).2.disk := by
  unfold copyDuring at h ⊢
  cases hplan : job.plan? with
  | none =>
    rw [hplan] at h
    cases h
  | some plan =>
    rw [hplan] at h
    have hstage := CopyStage.eq_ended_of_result? h
    have hp := (CopyPlan.proper_of_plan? hplan).1
    have hend := (CopyPlan.holds_run hp tools moves (.opening, w) (plan.holds_opening w.disk)).1
    rw [hstage] at hend
    obtain ⟨hpath, hthere, -⟩ := hend.content
    exact ⟨plan, rfl, hpath.symm, Prod.ext hstage rfl, hthere⟩

/-- **A copy that has ended as complete has been given a handle.** -/
theorem exists_given {p : Path}
    (h : (job.copyDuring tools moves w).1 = some (.ok (.completed p))) :
    ∃ handle, job.Given tools moves w handle := by
  obtain ⟨plan, hplan, -, hrun, -⟩ := run_of_completed h
  have hstage := congrArg Prod.fst hrun
  rcases plan.announced_of_run tools moves w with hopen | hup | hannounced
  · rw [hstage] at hopen
    cases hopen
  · rw [hstage] at hup
    cases hup
  · obtain ⟨past, turn, rest, source, temp, total, hsplit, hannounced⟩ := hannounced
    exact ⟨_, plan, past, turn, rest, source, temp, total, hplan, hsplit, hannounced, rfl⟩

end CopyJob
end TransferBoard
