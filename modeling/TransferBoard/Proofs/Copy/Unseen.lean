import TransferBoard.Proofs.Board.Behind
import TransferBoard.Proofs.Copy.Calls

/-!
# Copies do not see the screen

A copy looks at the dashboard for the flags, for its entry and for the file of a digest.  All of
that is behind the screen.  So what is behind the screen, the disk and what the copy does next
decide what they become in a step; and so it is for the workers.

## Main definitions

* `CopyStage.behind`, `Worker.behind` — what is done next, with its times or without.
* `Workshop.behind`, `CopyPool.behind` — what copies share, and all of a run, behind the screen.

## Main results

* `behind_step` — **a step of a copy sees nothing but what is behind the screen.**
* `behind_settle`, `behind_copyFile` — nor does a copy that runs on its own.
* `CopyPool.behind_step` — nor does a step of a worker.
-/

namespace TransferBoard

section

variable (timed : Bool)

/-- The copy, with the time at which it has begun or without. -/
def CopyRun.behind (run : CopyRun) : CopyRun := { run with started := seen timed run.started 0 }

/-- What the copy does next, with the time at which it has begun or without. -/
def CopyStage.behind : CopyStage → CopyStage
  | checking run => checking (run.behind timed)
  | reading run => reading (run.behind timed)
  | writing run piece => writing (run.behind timed) piece
  | reporting run count => reporting (run.behind timed) count
  | drawing run => drawing (run.behind timed)
  | syncing run => syncing (run.behind timed)
  | «renaming» run => «renaming» (run.behind timed)
  | discarding run failure => discarding (run.behind timed) failure
  | stopping run failure => stopping (run.behind timed) failure
  | finishing run => finishing (run.behind timed)
  | showingFinish run => showingFinish (run.behind timed)
  | choosingDigest run => choosingDigest (run.behind timed)
  | hashing run kind path => hashing (run.behind timed) kind path
  | settling run result => settling (run.behind timed) result
  | stage => stage

/-- A turn with its time or without. -/
def Turn.behind (turn : Turn) : Turn := { turn with now := seen timed turn.now 0 }

/-- What copies share, behind the screen. -/
def Workshop.behind (w : Workshop) : Workshop := ⟨w.board.behind timed, w.disk⟩

/-- What a worker does, with the times or without. -/
def WorkerTask.behind : WorkerTask → WorkerTask
  | copying index plan stage => copying index plan (stage.behind timed)
  | task => task

/-- A worker, with the times or without. -/
def Worker.behind (worker : Worker) : Worker := { worker with task := worker.task.behind timed }

/-- A run behind the screen. -/
def CopyPool.behind (pool : CopyPool) : CopyPool :=
  ⟨pool.workers.map (Worker.behind timed), pool.next, pool.shop.behind timed⟩

end

-- whether the times count
variable {t : Bool}

/-! ### What is looked at -/

namespace Dashboard

variable (d : Dashboard)

theorem entry?_behind (h : Handle) :
    Dashboard.entry? (d.behind t) h = (d.entry? h).map (Entry.behind t) := d.state.entry?_behind h

theorem isSome_entry?_behind (h : Handle) :
    (Dashboard.entry? (d.behind t) h).isSome = (d.entry? h).isSome := d.state.isSome_entry?_behind h

theorem flow?_behind : (d.behind t).flow? = d.flow? := rfl

theorem isCancelled_behind : (d.behind t).isCancelled = d.isCancelled := rfl

theorem digestJob?_behind (h : Handle) : (d.behind t).digestJob? h = d.digestJob? h := by
  rw [digestJob?, entry?_behind, Option.bind_map]
  rfl

theorem behind_after_congr {d d' : Dashboard} (hd : d.behind t = d'.behind t)
    {sec sec' : BoardSection} (hsec : sec.behind t = sec'.behind t) :
    (d.after sec).behind t = (d'.after sec').behind t := by
  rw [d.behind_after sec, d'.behind_after sec', hd, hsec]

end Dashboard

@[simp] theorem CopyRun.behind_behind (run : CopyRun) :
    (run.behind t).behind t = run.behind t := by
  simp [behind]

namespace CopyStage

theorem behind_behind (stage : CopyStage) :
    (stage.behind t).behind t = stage.behind t := by
  cases stage <;> simp [behind]

theorem result?_behind (stage : CopyStage) : (stage.behind t).result? = stage.result? := by
  cases stage <;> rfl

theorem isBlocked_behind (stage : CopyStage) (w : Workshop) :
    (stage.behind t).isBlocked (w.behind t) = stage.isBlocked w := by
  cases stage <;> rfl

end CopyStage

@[simp] theorem Workshop.disk_behind (w : Workshop) : (w.behind t).disk = w.disk := rfl

@[simp] theorem Workshop.board_behind (w : Workshop) :
    (w.behind t).board = w.board.behind t := rfl

@[simp] theorem Turn.strike_behind {α : Type} (turn : Turn) (result : Except OsError α) :
    (turn.behind t).strike result = turn.strike result := rfl

@[simp] theorem CopyTools.readSize_behind (tools : CopyTools) (turn : Turn) :
    tools.readSize (turn.behind t) = tools.readSize turn := rfl

theorem Workshop.behind_behind (w : Workshop) :
    (w.behind t).behind t = w.behind t :=
  congrArg (Workshop.mk · w.disk) w.board.behind_behind

theorem Workshop.disk_eq {w w' : Workshop} (h : w.behind t = w'.behind t) :
    w.disk = w'.disk := by
  rw [← w.disk_behind (t := t), h, disk_behind]

/-! ### One step of a copy -/

namespace CopyPlan

variable (plan : CopyPlan) (tools : CopyTools) (turn : Turn) (w : Workshop)

/-- What a step of a copy does under the lock does not depend on the screen. -/
theorem behind_boardSection? (stage : CopyStage) :
    (plan.boardSection? turn stage).map (BoardSection.behind t) =
      (plan.boardSection? (turn.behind t) (stage.behind t)).map
        (BoardSection.behind t) := by
  cases t <;> cases stage <;> rfl

theorem behind_board_step (stage : CopyStage) :
    (plan.step tools turn w stage).2.board.behind t =
      (plan.step tools (turn.behind t) (w.behind t)
        (stage.behind t)).2.board.behind t := by
  have hsection := plan.behind_boardSection? (t := t) turn stage
  rw [board_step, board_step]
  cases hsec : plan.boardSection? turn stage with
  | none =>
    rw [hsec, Option.map_none, eq_comm, Option.map_eq_none_iff] at hsection
    rw [hsection]
    exact w.board.behind_behind.symm
  | some sec =>
    rw [hsec, Option.map_some, eq_comm, Option.map_eq_some_iff] at hsection
    obtain ⟨sec', hsec', hbehind⟩ := hsection
    rw [hsec']
    exact Dashboard.behind_after_congr w.board.behind_behind.symm hbehind.symm

/-- What a copy does next, and what it does to the disk, does not depend on the screen. -/
theorem behind_next (stage : CopyStage) :
    (plan.step tools turn w stage).1.behind t =
        (plan.step tools (turn.behind t) (w.behind t) (stage.behind t)).1.behind t ∧
      (plan.step tools turn w stage).2.disk =
        (plan.step tools (turn.behind t) (w.behind t) (stage.behind t)).2.disk := by
  cases stage with
  -- the disk decides
  | opening =>
    simp only [CopyStage.behind, step, Turn.strike_behind, Workshop.disk_behind]
    cases turn.strike (w.disk.openRead plan.job.source) <;> exact ⟨rfl, rfl⟩
  | measuring source =>
    simp only [CopyStage.behind, step, Turn.strike_behind, Workshop.disk_behind]
    cases turn.strike (.ok ((w.disk.nodeAt source).elim 0 Node.size)) <;> exact ⟨rfl, rfl⟩
  | creating source total =>
    simp only [CopyStage.behind, step, Turn.strike_behind, Workshop.disk_behind]
    cases turn.strike (w.disk.createFile plan.temp) <;> exact ⟨rfl, rfl⟩
  | reading run =>
    by_cases hwait : w.disk.isWaiting run.source = true
    · simp [CopyStage.behind, CopyRun.behind, step, hwait]
    · simp only [CopyStage.behind, CopyRun.behind, step, Turn.strike_behind,
        CopyTools.readSize_behind, Workshop.disk_behind, hwait, if_false, Bool.false_eq_true]
      cases turn.strike (w.disk.readAt run.source run.copied (tools.readSize turn)) with
      | error e => simp
      | ok piece => cases hpiece : piece.isEmpty <;> simp [hpiece]
  | writing run piece =>
    simp only [CopyStage.behind, CopyRun.behind, step, Turn.strike_behind, Workshop.disk_behind]
    cases turn.strike (.ok (w.disk.append run.temp piece)) <;> simp
  | syncing run =>
    simp only [CopyStage.behind, step, Turn.strike_behind]
    cases turn.strike (.ok ()) <;> simp
  | «renaming» run =>
    simp only [CopyStage.behind, step, Turn.strike_behind, Workshop.disk_behind]
    cases turn.strike (w.disk.renameFile plan.temp plan.target) <;> simp
  | discarding run failure =>
    simp only [CopyStage.behind, step, Workshop.disk_behind]
    cases w.disk.removeFile plan.temp <;> simp
  -- the dashboard decides
  | announcing source temp total =>
    have hhandle := (w.board.behind_track (t := t) (plan.request total) turn.now).1
    exact ⟨congrArg (CopyStage.showing source temp) hhandle.symm, rfl⟩
  | checking run =>
    simp only [CopyStage.behind, step, Workshop.board_behind, Dashboard.flow?_behind]
    rcases w.board.flow? with _ | _ | _ <;> simp
  | stopping run failure =>
    simp only [CopyStage.behind, CopyRun.behind, step, Workshop.board_behind,
      Dashboard.isSome_entry?_behind]
    cases (w.board.entry? run.handle).isSome <;> simp
  | choosingDigest run =>
    simp only [CopyStage.behind, CopyRun.behind, step, Workshop.board_behind,
      Dashboard.digestJob?_behind]
    cases w.board.digestJob? run.handle <;> simp
  | settling run result =>
    simp only [CopyStage.behind, CopyRun.behind, step, Workshop.board_behind,
      Dashboard.isSome_entry?_behind]
    cases (w.board.entry? run.handle).isSome <;> simp
  -- nothing decides
  | showingFinish run =>
    simp only [CopyStage.behind, step]
    cases plan.job.kind.isSome <;> simp
  | _ => simp [CopyStage.behind, CopyRun.behind, step, Turn.behind]

/-- **A step of a copy sees nothing but what is behind the screen.** -/
theorem behind_step (stage : CopyStage) :
    (plan.step tools turn w stage).1.behind t =
        (plan.step tools (turn.behind t) (w.behind t) (stage.behind t)).1.behind t ∧
      (plan.step tools turn w stage).2.behind t =
        (plan.step tools (turn.behind t) (w.behind t) (stage.behind t)).2.behind t := by
  obtain ⟨hstage, hdisk⟩ := plan.behind_next (t := t) tools turn w stage
  refine ⟨hstage, ?_⟩
  rw [Workshop.behind, Workshop.behind, plan.behind_board_step, hdisk]

theorem behind_step_congr {turn turn' : Turn} (hturn : turn.behind t = turn'.behind t)
    {w w' : Workshop} (hw : w.behind t = w'.behind t) {stage stage' : CopyStage}
    (hstage : stage.behind t = stage'.behind t) :
    (plan.step tools turn w stage).1.behind t =
        (plan.step tools turn' w' stage').1.behind t ∧
      (plan.step tools turn w stage).2.behind t =
        (plan.step tools turn' w' stage').2.behind t := by
  obtain ⟨hnext, hshop⟩ := plan.behind_step (t := t) tools turn w stage
  obtain ⟨hnext', hshop'⟩ := plan.behind_step (t := t) tools turn' w' stage'
  rw [hnext, hshop, hnext', hshop', hturn, hw, hstage]
  exact ⟨rfl, rfl⟩

/-- **Nor does a copy that runs until it ends or has to wait.** -/
theorem behind_settle {turn turn' : Turn} (hturn : turn.behind t = turn'.behind t)
    (n : Nat) {w w' : Workshop} (hw : w.behind t = w'.behind t)
    {stage stage' : CopyStage} (hstage : stage.behind t = stage'.behind t) :
    (plan.settle tools turn n stage w).1.behind t =
        (plan.settle tools turn' n stage' w').1.behind t ∧
      (plan.settle tools turn n stage w).2.behind t =
        (plan.settle tools turn' n stage' w').2.behind t := by
  induction n generalizing w w' stage stage' with
  | zero => exact ⟨hstage, hw⟩
  | succ n ih =>
    -- the two come to rest in the same round
    have hends : (stage.result?.isSome || stage.isBlocked w) =
        (stage'.result?.isSome || stage'.isBlocked w') := by
      rw [← stage.result?_behind (t := t), ← stage.isBlocked_behind (t := t), hw,
        hstage, CopyStage.result?_behind, CopyStage.isBlocked_behind]
    rw [settle, settle, hends]
    split
    · exact ⟨hstage, hw⟩
    · obtain ⟨hnext, hshop⟩ := plan.behind_step_congr tools hturn hw hstage
      exact ih hshop hnext

end CopyPlan

/-- A whole copy has the same result, and leaves the same on the disk. -/
theorem behind_copyFile (job : CopyJob) (tools : CopyTools) {now now' : Moment}
    (hnow : seen t now 0 = seen t now' 0) {w w' : Workshop}
    (hw : w.behind t = w'.behind t) :
    (copyFile job tools now w).1 = (copyFile job tools now' w').1 ∧
      (copyFile job tools now w).2.behind t = (copyFile job tools now' w').2.behind t := by
  rw [copyFile, copyFile]
  cases job.plan? with
  | none => exact ⟨rfl, hw⟩
  | some plan =>
    have hdisk : w.disk = w'.disk := Workshop.disk_eq hw
    have hturn : Turn.behind t { now := now } = Turn.behind t { now := now' } :=
      congrArg (fun now => Turn.mk now none none) hnow
    obtain ⟨hstage, hshop⟩ := plan.behind_settle tools hturn (copySteps w'.disk job) hw
      (rfl : CopyStage.opening.behind t = _)
    rw [hdisk]
    refine ⟨?_, hshop⟩
    show (plan.settle tools _ _ _ w).1.result? = (plan.settle tools _ _ _ w').1.result?
    rw [← CopyStage.result?_behind (t := t), hstage, CopyStage.result?_behind]

/-! ### The workers -/

theorem Worker.behind_behind (worker : Worker) :
    (worker.behind t).behind t = worker.behind t := by
  obtain ⟨task, results⟩ := worker
  cases task with
  | copying index plan stage =>
    exact congrArg (fun stage => Worker.mk (.copying index plan stage) results)
      stage.behind_behind
  | _ => rfl

/-- What a worker does with a job that it has taken does not depend on the screen. -/
theorem behind_beginJob (batch : CopyBatch) (shop : Workshop) (worker : Worker) (index : Nat) :
    (beginJob batch shop worker index).behind t =
      (beginJob batch (shop.behind t) (worker.behind t) index).behind t := by
  rw [beginJob, beginJob, Workshop.board_behind, Dashboard.isCancelled_behind]
  cases (batch.taken[index]?).join with
  | some dest => rfl
  | none =>
    show (if shop.board.isCancelled = true then _ else _ : Worker).behind t =
      (if shop.board.isCancelled = true then _ else _ : Worker).behind t
    by_cases hcancelled : shop.board.isCancelled = true
    · rw [if_pos hcancelled, if_pos hcancelled]
      rfl
    · rw [if_neg hcancelled, if_neg hcancelled]
      cases batch.jobs[index]? with
      | none => exact worker.behind_behind.symm
      | some job => cases hplan : job.plan? <;> simp only [hplan] <;> rfl

namespace CopyPool

theorem behindWorkers_set {worker worker' : Worker}
    (h : worker.behind t = worker'.behind t) (workers : List Worker) (k : Nat) :
    (workers.set k worker).map (Worker.behind t) =
      ((workers.map (Worker.behind t)).set k worker').map (Worker.behind t) := by
  rw [List.map_set, List.map_set, h, List.map_map]
  congr 1
  exact List.map_congr_left fun worker _ => worker.behind_behind.symm

theorem behind_behind (pool : CopyPool) : (pool.behind t).behind t = pool.behind t := by
  have hworkers : (pool.workers.map (Worker.behind t)).map (Worker.behind t) =
      pool.workers.map (Worker.behind t) := by
    rw [List.map_map]
    exact List.map_congr_left fun worker _ => worker.behind_behind
  rw [behind, behind, hworkers, Workshop.behind_behind]

/-- One worker changes, in the same way behind the screen as on it. -/
theorem behind_set {worker worker' : Worker} (hworker : worker.behind t = worker'.behind t)
    {shop shop' : Workshop} (hshop : shop.behind t = shop'.behind t) (pool : CopyPool)
    (k next : Nat) :
    behind t ⟨pool.workers.set k worker, next, shop⟩ =
      behind t ⟨(pool.behind t).workers.set k worker', next, shop'⟩ := by
  rw [behind, behind, hshop, behindWorkers_set hworker]
  rfl

/-- **A step of a worker sees nothing but what is behind the screen.** -/
theorem behind_step (batch : CopyBatch) (tools : CopyTools) (turn : Turn) (pool : CopyPool)
    (k : Nat) :
    (pool.step batch tools turn k).behind t =
      ((pool.behind t).step batch tools (turn.behind t) k).behind t := by
  have hworker : (pool.behind t).workers[k]? =
      (pool.workers[k]?).map (Worker.behind t) := List.getElem?_map
  have hshop := pool.shop.behind_behind (t := t)
  cases hk : pool.workers[k]? with
  | none =>
    rw [step, step, hworker, hk]
    exact pool.behind_behind.symm
  | some worker =>
    -- the worker behind the screen is at the same stage, and makes the same step
    rw [hk, Option.map_some] at hworker
    cases htask : worker.task with
    | gone =>
      rw [step_of_gone hk htask, step_of_gone hworker (by rw [Worker.behind, htask]; rfl)]
      exact pool.behind_behind.symm
    | idle =>
      rw [step_of_idle hk htask, step_of_idle hworker (by rw [Worker.behind, htask]; rfl)]
      refine pool.behind_set ?_ hshop.symm k _
      show Worker.behind t ⟨if pool.next < batch.jobs.length then _ else _, worker.results⟩ =
        Worker.behind t ⟨if pool.next < batch.jobs.length then _ else _, worker.results⟩
      split <;> rfl
    | taken index =>
      rw [step_of_taken hk htask, step_of_taken hworker (by rw [Worker.behind, htask]; rfl)]
      exact pool.behind_set (behind_beginJob batch pool.shop worker index) hshop.symm k _
    | copying index plan stage =>
      have htask' : (worker.behind t).task = .copying index plan (stage.behind t) := by
        rw [Worker.behind, htask]
        rfl
      cases hresult : stage.result? with
      | none =>
        have hresult' : (stage.behind t).result? = none := by
          rw [stage.result?_behind, hresult]
        rw [step_of_copying hk htask hresult, step_of_copying hworker htask' hresult']
        obtain ⟨hstage, hshop'⟩ := plan.behind_step (t := t) tools turn pool.shop stage
        refine pool.behind_set ?_ hshop' k _
        exact congrArg (fun stage => Worker.mk (.copying index plan stage) worker.results) hstage
      | some result =>
        obtain rfl := CopyStage.eq_ended_of_result? hresult
        rw [step_of_ended hk htask, step_of_ended hworker htask']
        exact pool.behind_set rfl hshop.symm k _

end CopyPool
end TransferBoard
