import TransferBoard.Proofs.Copy.OnCourse

/-!
# A run returns

A worker that need not wait brings the run nearer to its end, whatever it does.  So the
steps that the workers of a run can take are counted by the pieces of its sources, in
whatever order they take them.  And when none of them can do anything while nothing is
paused, there is nothing left to do.

## Main definitions

* `Worker.load`, `CopyPool.load` — a number of steps that a worker does not exceed with what
  it has taken, and all workers with all jobs.
* `CopyPool.work` — the steps in a run that workers take who need not wait.

## Main results

* `step_of_rests` — a worker that has to wait does nothing.
* `load_step` — a worker that need not wait leaves fewer steps.
* `work_add_load_le` — the steps of a run are bounded.
* `results?_of_rests` — the workers do not wait for each other.
-/

namespace TransferBoard

/-- A number of steps that the job with a number does not exceed. -/
def CopyBatch.stepsOf (batch : CopyBatch) (d : Disk) (index : Nat) : Nat :=
  (batch.jobs[index]?).elim 0 (copySteps d)

/-- A number of steps that a worker does not exceed with the job that it has taken, and to
find that there are no more. -/
def Worker.load (batch : CopyBatch) (d : Disk) (worker : Worker) : Nat :=
  match worker.task with
  | .idle => 1
  | .taken index => batch.stepsOf d index
  | .copying _ plan stage => stage.remaining (sourceSize d plan.job.source) + 2
  | .gone => 0

theorem CopyPlan.step_of_isBlocked {plan : CopyPlan} {tools : CopyTools} {turn : Turn}
    {w : Workshop} {stage : CopyStage} (h : stage.isBlocked w = true) :
    plan.step tools turn w stage = (stage, w) := by
  cases stage with
  | checking run =>
    rw [CopyStage.isBlocked, Option.isNone_iff_eq_none] at h
    rw [step, h]
  | reading run => rw [step, if_pos (show w.disk.isWaiting run.source = true from h)]
  | _ => exact absurd h (by simp [CopyStage.isBlocked])

theorem CopyStage.result?_of_isBlocked {w : Workshop} {stage : CopyStage}
    (h : stage.isBlocked w = true) : stage.result? = none := by
  cases stage with
  | ended result => exact absurd h (by simp [isBlocked])
  | _ => rfl

namespace CopyPool

/-- A number of steps that the workers do not exceed with the jobs that are left. -/
def load (batch : CopyBatch) (d : Disk) (pool : CopyPool) : Nat :=
  (pool.workers.map (Worker.load batch d)).sum +
    ((batch.jobs.drop pool.next).map (copySteps d)).sum

/-- The steps in a run that workers take who need not wait. -/
def work (batch : CopyBatch) (tools : CopyTools) : CopyPool → List PoolMove → Nat
  | _, [] => 0
  | pool, .worker k turn :: moves =>
    (if pool.rests k then 0 else 1) + work batch tools (pool.step batch tools turn k) moves
  | pool, .others change :: moves =>
    work batch tools (pool.after batch tools (.others change)) moves

variable {batch : CopyBatch} {tools : CopyTools} {turn : Turn} {d₀ : Disk} {pool : CopyPool}
  {k index next : Nat} {worker worker' : Worker} {shop : Workshop}

/-- **A worker that has to wait does nothing.** -/
theorem step_of_rests (batch : CopyBatch) (tools : CopyTools) (turn : Turn)
    (h : pool.rests k = true) : pool.step batch tools turn k = pool := by
  unfold rests at h
  cases hk : pool.workers[k]? with
  | none => rw [step, hk]
  | some worker =>
    simp only [hk] at h
    obtain ⟨task, results⟩ := worker
    cases task with
    | idle => exact absurd h (by simp [Worker.rests])
    | taken index => exact absurd h (by simp [Worker.rests])
    | gone => rw [step, hk]
    | copying index plan stage =>
      have hblocked : stage.isBlocked pool.shop = true := h
      rw [step_of_copying hk rfl (CopyStage.result?_of_isBlocked hblocked), stepped,
        CopyPlan.step_of_isBlocked hblocked, set_of_getElem? hk]

/-! ### The steps that are left -/

/-- A worker that does less and takes no job leaves fewer steps. -/
theorem load_set_lt (hk : pool.workers[k]? = some worker)
    (hless : worker'.load batch d₀ < worker.load batch d₀) :
    (CopyPool.mk (pool.workers.set k worker') pool.next shop).load batch d₀ <
      pool.load batch d₀ := by
  have := sum_map_set (Worker.load batch d₀) worker' hk
  simp only [load]
  omega

/-- A worker that looks for a job takes it from those that are left. -/
theorem load_idle (hk : pool.workers[k]? = some worker) (htask : worker.task = .idle) :
    (pool.step batch tools turn k).load batch d₀ < pool.load batch d₀ := by
  have hidle : worker.load batch d₀ = 1 := by rw [Worker.load, htask]
  rw [step, hk]
  simp only [htask]
  by_cases hmore : pool.next < batch.jobs.length
  · have htaken : Worker.load batch d₀ { worker with task := .taken pool.next } =
        copySteps d₀ batch.jobs[pool.next] := by
      simp only [Worker.load, CopyBatch.stepsOf, List.getElem?_eq_getElem hmore, Option.elim_some]
    have hsum := sum_map_set (Worker.load batch d₀) { worker with task := .taken pool.next } hk
    simp only [if_pos hmore, load, List.drop_eq_getElem_cons hmore, List.map_cons, List.sum_cons]
    omega
  · have hgone : Worker.load batch d₀ { worker with task := .gone } = 0 := rfl
    have hsum := sum_map_set (Worker.load batch d₀) { worker with task := .gone } hk
    simp only [if_neg hmore, load]
    rw [List.drop_of_length_le (by omega), List.drop_of_length_le (by omega)]
    omega

/-- A job that has been taken is refused, or its copy is no longer than its job may take. -/
theorem load_beginJob (shop : Workshop) (worker : Worker) (hindex : index < batch.jobs.length) :
    (beginJob batch shop worker index).load batch d₀ < batch.stepsOf d₀ index := by
  have hjob : batch.jobs[index]? = some batch.jobs[index] := List.getElem?_eq_getElem hindex
  have hsteps : batch.stepsOf d₀ index = copySteps d₀ batch.jobs[index] := by
    rw [CopyBatch.stepsOf, hjob]
    rfl
  -- a job that is not begun costs only its note
  have hnote : ∀ result, (worker.note index result).load batch d₀ < batch.stepsOf d₀ index := by
    intro result
    rw [hsteps, copySteps]
    simp only [Worker.note, Worker.load]
    omega
  unfold beginJob
  split
  · exact hnote _
  split
  · exact hnote _
  rw [hjob]
  simp only
  cases hplan : batch.jobs[index].plan? with
  | none => exact hnote _
  | some plan =>
    obtain ⟨-, hsource, -⟩ := CopyPlan.proper_of_plan? hplan
    simp only [Worker.load, CopyStage.remaining, hsteps, copySteps, hsource]
    omega

/-- **A worker that need not wait leaves fewer steps.** -/
theorem load_step (h : pool.InOrder batch d₀) (hrests : pool.rests k = false) (tools : CopyTools)
    (turn : Turn) : (pool.step batch tools turn k).load batch d₀ < pool.load batch d₀ := by
  -- whatever the worker is at, one part of its load is done by the step
  unfold rests at hrests
  cases hk : pool.workers[k]? with
  | none => simp [hk] at hrests
  | some worker =>
    simp only [hk, Worker.rests] at hrests
    have hworker := List.mem_of_getElem? hk
    cases htask : worker.task with
    | gone => simp [htask] at hrests
    | idle => exact load_idle hk htask
    | taken index =>
      have hindex : worker.task.index? = some index := by rw [htask]; rfl
      have hlt := h.counted.lt_length hworker (Worker.mem_claims_of_task hindex)
      rw [step_of_taken hk htask]
      refine load_set_lt hk ?_
      rw [Worker.load.eq_def batch d₀ worker, htask]
      exact load_beginJob pool.shop worker hlt
    | copying index plan stage =>
      simp only [htask] at hrests
      have hplan := h.free worker hworker _ _ _ htask
      have hp := (CopyBatch.plan?_eq_some (CopyBatch.freePlan?_eq_some.mp hplan).2).1
      have hcourse := ((h.follows index plan hplan).workers worker hworker).copying _ _ htask
      cases hresult : stage.result? with
      | none =>
        rw [step_of_copying hk htask hresult]
        refine load_set_lt hk ?_
        have := CopyPlan.remaining_step hp tools turn hcourse.holds hrests hresult
        simp only [Worker.load, htask]
        omega
      | some result =>
        obtain rfl := CopyStage.eq_ended_of_result? hresult
        rw [step, hk]
        simp only [htask]
        refine load_set_lt hk ?_
        simp only [Worker.load, Worker.note, htask]
        omega

theorem load_start (jobs : List CopyJob) (maxConcurrent : Nat) (shop : Workshop) :
    (start jobs maxConcurrent shop).load (.of jobs) d₀ =
      workerCount jobs.length maxConcurrent + (jobs.map (copySteps d₀)).sum := by
  rw [load, start, List.map_replicate, List.sum_replicate_nat]
  simp only [Worker.load, Nat.mul_one]
  rfl

/-- **The steps of a run are bounded** by those that are left before it. -/
theorem work_add_load_le (hclear : batch.Clear d₀) (tools : CopyTools) (moves : List PoolMove) :
    ∀ pool : CopyPool, pool.InOrder batch d₀ → pool.Goes batch tools moves →
      pool.work batch tools moves + (pool.run batch tools moves).load batch d₀ ≤
        pool.load batch d₀ := by
  induction moves with
  | nil => intro pool _ _; exact Nat.le_of_eq (Nat.zero_add _)
  | cons move moves ih =>
    intro pool h hgoes
    have hrest := ih _ (inOrder_after h hclear hgoes) hgoes.tail
    cases move with
    | others change => exact hrest
    | worker k turn =>
      have hrun : pool.run batch tools (.worker k turn :: moves) =
        (pool.step batch tools turn k).run batch tools moves := rfl
      rw [work, hrun]
      -- a step of a worker that rests is no work and changes nothing
      cases hrests : pool.rests k with
      | true =>
        rw [if_pos rfl, Nat.zero_add]
        rw [after, step_of_rests batch tools turn hrests] at hrest
        rwa [step_of_rests batch tools turn hrests]
      | false =>
        have hless := load_step h hrests tools turn
        rw [after] at hrest
        simp only [Bool.false_eq_true, if_false]
        omega

/-- **The workers do not wait for each other.**  When nothing is paused and none of them can
do anything, all have gone, if every copy has an end before it. -/
theorem results?_of_rests (h : pool.InOrder batch d₀) (hflow : pool.shop.board.flow? = some .go)
    (hends : ∀ i plan, batch.freePlan? i = some plan → plan.foretold d₀ .opening ≠ none)
    (hrests : ∀ k, pool.rests k = true) : pool.results?.isSome = true := by
  have hgone : pool.allGone = true := by
    refine List.all_eq_true.mpr fun worker hworker => ?_
    obtain ⟨k, hk⟩ := List.mem_iff_getElem?.mp hworker
    have hrest : worker.rests pool.shop = true := by
      have := hrests k
      rwa [rests, hk] at this
    unfold Worker.rests at hrest
    cases htask : worker.task with
    | gone => rfl
    | idle => simp [htask] at hrest
    | taken index => simp [htask] at hrest
    | copying index plan stage =>
      -- a copy that waits now would wait for ever
      simp only [htask] at hrest
      have hplan := h.free worker hworker _ _ _ htask
      have hcourse := ((h.follows index plan hplan).workers worker hworker).copying _ _ htask
      have hnone := (hcourse.result?_eq hflow (.inr hrest)).symm.trans
        (CopyStage.result?_of_isBlocked hrest)
      exact absurd hnone (hends index plan hplan)
  rw [results?, if_pos hgone]
  rfl

end CopyPool
end TransferBoard
