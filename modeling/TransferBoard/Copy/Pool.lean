import TransferBoard.Copy.Task

/-!
# Copying many files

Workers take the jobs of a list one after the other and run their copies, several at
a time. A job whose destination an earlier one has is refused, and after a cancel no
copy is started.

## Main definitions

* `Worker`, `WorkerTask` — what a worker does, and what it has done.
* `CopyPool` — the workers, the next job to take, and what they share.
* `CopyPool.step` — one step of one worker.
* `CopyPool.settle` — steps of every worker until it ends or has to wait.
* `CopyPool.results?` — the results in the order of the jobs, when all have ended.
* `copyAll` — a whole run.
-/

namespace TransferBoard

/-- What a worker does. -/
inductive WorkerTask where
  /-- It takes the next job. -/
  | idle
  /-- It has taken the job with this number. -/
  | taken (index : Nat)
  /-- It runs the copy of the job with this number. -/
  | copying (index : Nat) (plan : CopyPlan) (stage : CopyStage)
  /-- There are no more jobs. -/
  | gone

/-- A worker. -/
structure Worker where
  /-- What it does. -/
  task : WorkerTask := .idle
  /-- The jobs that it has done, by their numbers, the latest one first. -/
  results : List (Nat × CopyResult) := []

namespace Worker

/-- The worker notes the result of a job and takes the next one. -/
def note (worker : Worker) (index : Nat) (result : CopyResult) : Worker :=
  ⟨.idle, (index, result) :: worker.results⟩

/-- The worker can do nothing: it has to wait, or there are no more jobs. -/
def rests (w : Workshop) (worker : Worker) : Bool :=
  match worker.task with
  | .gone => true
  | .copying _ _ stage => stage.isBlocked w
  | _ => false

end Worker

/-- The jobs of a run with the destinations that earlier ones have. -/
structure CopyBatch where
  /-- The jobs. -/
  jobs : List CopyJob
  /-- For each job, the destination that an earlier one has. -/
  taken : List (Option Path)

/-- The batch of some jobs. -/
def CopyBatch.of (jobs : List CopyJob) : CopyBatch := ⟨jobs, duplicateDestinations jobs⟩

/-- The workers of a run. -/
structure CopyPool where
  /-- The workers. -/
  workers : List Worker
  /-- The number of the next job. -/
  next : Nat := 0
  /-- What the copies share. -/
  shop : Workshop

/-- What a worker does with a job that it has taken: it is refused when its
destination is taken, not started after a cancel, and otherwise copied. -/
def beginJob (batch : CopyBatch) (shop : Workshop) (worker : Worker) (index : Nat) : Worker :=
  match (batch.taken[index]?).join with
  | some dest => worker.note index (.error (.destinationTaken dest))
  | none =>
    if shop.board.isCancelled then worker.note index (.ok .cancelled)
    else
      match batch.jobs[index]? with
      | none => worker
      | some job =>
        match job.plan? with
        | none => worker.note index (.error (.noFileName job.source))
        | some plan => { worker with task := .copying index plan .opening }

namespace CopyPool

/-- As many workers as may run at a time, but no more than there are jobs, and one at
least. -/
def workerCount (jobs maxConcurrent : Nat) : Nat := min (max maxConcurrent 1) (max jobs 1)

/-- A run that is about to start. -/
def start (jobs : List CopyJob) (maxConcurrent : Nat) (shop : Workshop) : CopyPool :=
  { workers := List.replicate (workerCount jobs.length maxConcurrent) {}, shop := shop }

/-- One step of one worker. -/
def step (batch : CopyBatch) (tools : CopyTools) (turn : Turn) (pool : CopyPool) (k : Nat) :
    CopyPool :=
  match pool.workers[k]? with
  | none => pool
  | some worker =>
    match worker.task with
    | .gone => pool
    | .idle =>
      let task := if pool.next < batch.jobs.length then .taken pool.next else .gone
      { pool with
        workers := pool.workers.set k { worker with task := task }
        next := pool.next + 1 }
    | .taken index =>
      { pool with workers := pool.workers.set k (beginJob batch pool.shop worker index) }
    | .copying index plan stage =>
      match stage with
      | .ended result => { pool with workers := pool.workers.set k (worker.note index result) }
      | stage =>
        let (stage, shop) := plan.step tools turn pool.shop stage
        { pool with
          workers := pool.workers.set k { worker with task := .copying index plan stage }
          shop := shop }

/-- The worker with a number can do nothing now. -/
def rests (pool : CopyPool) (k : Nat) : Bool :=
  match pool.workers[k]? with
  | some worker => worker.rests pool.shop
  | none => true

/-- Steps of one worker until it can do nothing, the given number at most. -/
def stepWorker (batch : CopyBatch) (tools : CopyTools) (turn : Turn) (k : Nat) :
    Nat → CopyPool → CopyPool
  | 0, pool => pool
  | n + 1, pool =>
    if pool.rests k then pool
    else stepWorker batch tools turn k n (pool.step batch tools turn k)

/-- A number of steps after which a worker is no longer at what it does now, unless it
has to wait. What a copy has still to read is what its source holds now, which may be
what an earlier copy has made. -/
def taskSteps (pool : CopyPool) (k : Nat) : Nat :=
  match (pool.workers[k]?).map Worker.task with
  | some (.copying _ plan _) => copySteps pool.shop.disk plan.job + 1
  | _ => 1

/-- What a worker does, one thing after the other, until it can do nothing; the given
number of things at most. -/
def settleWorker (batch : CopyBatch) (tools : CopyTools) (turn : Turn) (k : Nat) :
    Nat → CopyPool → CopyPool
  | 0, pool => pool
  | n + 1, pool =>
    if pool.rests k then pool
    else
      settleWorker batch tools turn k n (stepWorker batch tools turn k (pool.taskSteps k) pool)

/-- The things that a worker does are no more than three for each job, which are to
look for it, to take it and to copy, and one to find that there are no more. -/
def taskCount (batch : CopyBatch) : Nat := 3 * batch.jobs.length + 1

/-- Steps of the workers, one worker after the other, until each can do nothing. -/
def settle (batch : CopyBatch) (tools : CopyTools) (now : Moment) (pool : CopyPool) : CopyPool :=
  (List.range pool.workers.length).foldl
    (fun p k => settleWorker batch tools { now := now } k (taskCount batch) p) pool

/-- There are no more jobs for any worker. -/
def allGone (pool : CopyPool) : Bool :=
  pool.workers.all fun worker =>
    match worker.task with
    | .gone => true
    | _ => false

/-- The results by the numbers of the jobs. -/
def numbered (pool : CopyPool) : List (Nat × CopyResult) :=
  (pool.workers.flatMap fun worker => worker.results.reverse).mergeSort fun a b => a.1 ≤ b.1

/-- The results in the order of the jobs, when all have ended. -/
def results? (pool : CopyPool) : Option (List CopyResult) :=
  if pool.allGone then some (pool.numbered.map Prod.snd) else none

end CopyPool

/-- A whole run at a moment. Without results a copy has to wait. -/
def copyAll (jobs : List CopyJob) (maxConcurrent : Nat) (tools : CopyTools) (now : Moment)
    (w : Workshop) : Option (List CopyResult) × Workshop :=
  let pool := (CopyPool.start jobs maxConcurrent w).settle (.of jobs) tools now
  (pool.results?, pool.shop)

end TransferBoard
