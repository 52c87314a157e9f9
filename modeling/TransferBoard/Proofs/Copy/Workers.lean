import TransferBoard.Copy.Pool
import TransferBoard.Proofs.Lists

/-!
# Every job is taken once

The workers of a run take the numbers of the jobs from one counter.  So in whatever
order their steps come, no job is taken twice, none is left out once all workers have
gone, and the results stand in the order of the jobs.

## Main definitions

* `PoolMove`, `CopyPool.run` — the steps of all workers, in any order, with what changes
  the dashboard between them.
* `copyAllDuring` — the workers for some jobs, in such a run.
* `CopyPool.Change` — what one step of a worker can do.
* `Worker.claims`, `CopyPool.Counted` — the jobs that a worker has taken, and the
  invariant: together they are those below the counter, each one once.

## Main results

* `step_cases` — a step is one of the changes.
* `counted_run` — every run keeps the invariant.
* `getElem?_results` — the result that is reported for a job is the one that a worker has
  noted for it.
* `settle_eq_stepAll`, `copyAll_eq_copyAllDuring` — a run that is left alone is one order of steps.
-/

namespace TransferBoard

/-- What happens next in a run. -/
inductive PoolMove where
  /-- A worker takes a step. -/
  | worker (k : Nat) (turn : Turn)
  /-- The dashboard changes: a key is pressed, or another transfer reports. -/
  | others (change : Dashboard → Dashboard)

/-- The plan of the job with a number. -/
def CopyBatch.plan? (batch : CopyBatch) (index : Nat) : Option CopyPlan :=
  (batch.jobs[index]?).bind CopyJob.plan?

/-- The job that a worker is at. -/
def WorkerTask.index? : WorkerTask → Option Nat
  | taken index | copying index _ _ => some index
  | idle | gone => none

/-- The jobs that a worker has taken. -/
def Worker.claims (worker : Worker) : List Nat :=
  worker.task.index?.toList ++ worker.results.map Prod.fst

theorem Worker.mem_claims_of_task {worker : Worker} {index : Nat}
    (h : worker.task.index? = some index) : index ∈ worker.claims :=
  List.mem_append_left _ (Option.mem_toList.mpr h)

theorem Worker.mem_claims_of_result {worker : Worker} {index : Nat} {result : CopyResult}
    (h : (index, result) ∈ worker.results) : index ∈ worker.claims :=
  List.mem_append_right _ (List.mem_map.mpr ⟨_, h, rfl⟩)

theorem CopyStage.eq_ended_of_result? {stage : CopyStage} {result : CopyResult}
    (h : stage.result? = some result) : stage = .ended result := by
  cases stage with
  | ended result' => rw [Option.some.inj h]
  | _ => exact absurd h (by simp [result?])

namespace CopyPool

/-- A run after what happens next. -/
def after (batch : CopyBatch) (tools : CopyTools) (pool : CopyPool) : PoolMove → CopyPool
  | .worker k turn => pool.step batch tools turn k
  | .others change => { pool with shop := { pool.shop with board := change pool.shop.board } }

/-- A run after all that happens. -/
def run (batch : CopyBatch) (tools : CopyTools) (pool : CopyPool) (moves : List PoolMove) :
    CopyPool :=
  moves.foldl (after batch tools) pool

theorem run_append (batch : CopyBatch) (tools : CopyTools) (pool : CopyPool)
    (moves moves' : List PoolMove) :
    pool.run batch tools (moves ++ moves') = (pool.run batch tools moves).run batch tools moves' :=
  List.foldl_append

/-- What holds before a run and is kept by all that can happen next holds after the run. -/
theorem run_induction {batch : CopyBatch} {tools : CopyTools} {P : CopyPool → Prop}
    (hnext : ∀ pool move, P pool → P (after batch tools pool move)) (moves : List PoolMove) :
    ∀ pool, P pool → P (pool.run batch tools moves) := by
  induction moves with
  | nil => intro pool h; exact h
  | cons move moves ih => intro pool h; exact ih _ (hnext pool move h)

/-! ### What one step can do -/

/-- What one step of a worker can do to it, to the counter and to what is shared. -/
inductive Change (batch : CopyBatch) (tools : CopyTools) (turn : Turn) (pool : CopyPool)
    (worker : Worker) : Worker → Nat → Workshop → Prop where
  /-- It takes the next job. -/
  | take (task : worker.task = .idle) (more : pool.next < batch.jobs.length) :
    Change batch tools turn pool worker { worker with task := .taken pool.next } (pool.next + 1)
      pool.shop
  /-- There are no more jobs. -/
  | leave (task : worker.task = .idle) (none : batch.jobs.length ≤ pool.next) :
    Change batch tools turn pool worker { worker with task := .gone } (pool.next + 1) pool.shop
  /-- It refuses the job, or does not start it. -/
  | refuse {index : Nat} {result : CopyResult} (task : worker.task = .taken index)
    (notDone : ∀ p, result ≠ .ok (.completed p)) :
    Change batch tools turn pool worker (worker.note index result) pool.next pool.shop
  /-- It starts the copy. -/
  | start {index : Nat} {plan : CopyPlan} (task : worker.task = .taken index)
    (found : batch.plan? index = some plan) :
    Change batch tools turn pool worker { worker with task := .copying index plan .opening }
      pool.next pool.shop
  /-- The copy takes a step. -/
  | copy {index : Nat} {plan : CopyPlan} {stage : CopyStage}
    (task : worker.task = .copying index plan stage) :
    Change batch tools turn pool worker
      { worker with task := .copying index plan (plan.step tools turn pool.shop stage).1 }
      pool.next (plan.step tools turn pool.shop stage).2
  /-- It notes the result of the copy. -/
  | note {index : Nat} {plan : CopyPlan} {result : CopyResult}
    (task : worker.task = .copying index plan (.ended result)) :
    Change batch tools turn pool worker (worker.note index result) pool.next pool.shop

variable {batch : CopyBatch} {tools : CopyTools} {turn : Turn} {pool : CopyPool} {k : Nat}

theorem beginJob_cases (batch : CopyBatch) (tools : CopyTools) (turn : Turn) (pool : CopyPool)
    {worker : Worker} {index : Nat} (h : worker.task = .taken index) :
    beginJob batch pool.shop worker index = worker ∨
      Change batch tools turn pool worker (beginJob batch pool.shop worker index) pool.next
        pool.shop := by
  unfold beginJob
  split
  · exact .inr (.refuse h fun p hp => by cases hp)
  split
  · exact .inr (.refuse h fun p hp => by cases hp)
  split
  · exact .inl rfl
  next job hjob =>
  split
  · exact .inr (.refuse h fun p hp => by cases hp)
  · next plan hplan => exact .inr (.start h (by rw [CopyBatch.plan?, hjob]; exact hplan))

/-- **A step of a worker does nothing or one of the changes.** -/
theorem step_cases (batch : CopyBatch) (tools : CopyTools) (turn : Turn) (pool : CopyPool)
    (k : Nat) :
    pool.step batch tools turn k = pool ∨
      ∃ worker worker' next shop, pool.workers[k]? = some worker ∧
        Change batch tools turn pool worker worker' next shop ∧
        pool.step batch tools turn k = ⟨pool.workers.set k worker', next, shop⟩ := by
  -- no such worker, one that is gone, or one change for each task
  unfold step
  split
  · exact .inl rfl
  next worker hworker =>
  split
  · exact .inl rfl
  · next htask =>
    refine .inr ⟨worker, _, _, _, hworker, ?_, rfl⟩
    split
    · next hmore => exact .take htask hmore
    · next hnone => exact .leave htask (by omega)
  · next index htask =>
    rcases beginJob_cases batch tools turn pool htask with hsame | hchange
    · left
      rw [hsame, set_of_getElem? hworker]
    · exact .inr ⟨worker, _, _, _, hworker, hchange, rfl⟩
  · next index plan stage htask =>
    split
    · exact .inr ⟨worker, _, _, _, hworker, .note htask, rfl⟩
    · exact .inr ⟨worker, _, _, _, hworker, .copy htask, rfl⟩

/-! ### What a worker does at each of its tasks -/

/-- What the workers are after a step of a copy. -/
def stepped (pool : CopyPool) (tools : CopyTools) (turn : Turn) (k : Nat) (worker : Worker)
    (index : Nat) (plan : CopyPlan) (stage : CopyStage) : CopyPool where
  workers := pool.workers.set k
    { worker with task := .copying index plan (plan.step tools turn pool.shop stage).1 }
  next := pool.next
  shop := (plan.step tools turn pool.shop stage).2

section

variable {worker : Worker} {index : Nat} {plan : CopyPlan}

theorem step_of_taken (hk : pool.workers[k]? = some worker) (htask : worker.task = .taken index) :
    pool.step batch tools turn k =
      { pool with workers := pool.workers.set k (beginJob batch pool.shop worker index) } := by
  rw [step, hk]
  simp only [htask]

theorem step_of_copying {stage : CopyStage} (hk : pool.workers[k]? = some worker)
    (htask : worker.task = .copying index plan stage) (hopen : stage.result? = none) :
    pool.step batch tools turn k = pool.stepped tools turn k worker index plan stage := by
  rw [step, hk]
  simp only [htask]
  split
  · exact absurd hopen (by simp [CopyStage.result?])
  · rfl

theorem step_of_ended {result : CopyResult} (hk : pool.workers[k]? = some worker)
    (htask : worker.task = .copying index plan (.ended result)) :
    pool.step batch tools turn k =
      { pool with workers := pool.workers.set k (worker.note index result) } := by
  rw [step, hk]
  simp only [htask]

theorem step_of_idle (hk : pool.workers[k]? = some worker) (htask : worker.task = .idle) :
    pool.step batch tools turn k =
      ⟨pool.workers.set k { worker with
          task := if pool.next < batch.jobs.length then .taken pool.next else .gone },
        pool.next + 1, pool.shop⟩ := by
  rw [step, hk]
  simp only [htask]

theorem step_of_gone (hk : pool.workers[k]? = some worker) (htask : worker.task = .gone) :
    pool.step batch tools turn k = pool := by
  rw [step, hk]
  simp only [htask]

end

/-! ### The jobs that are taken -/

/-- Together the workers have taken the jobs below the counter, each one once. -/
structure Counted (batch : CopyBatch) (pool : CopyPool) : Prop where
  /-- The jobs that have been taken. -/
  claimed : (pool.workers.flatMap Worker.claims).Perm
    (List.range (min pool.next batch.jobs.length))
  /-- A worker goes when there are no more jobs. -/
  left : ∀ worker ∈ pool.workers, worker.task = .gone → batch.jobs.length ≤ pool.next
  /-- There is a worker. -/
  staffed : pool.workers ≠ []

theorem counted_start (jobs : List CopyJob) (maxConcurrent : Nat) (shop : Workshop) :
    (start jobs maxConcurrent shop).Counted (.of jobs) where
  claimed := by
    have : (start jobs maxConcurrent shop).workers.flatMap Worker.claims = [] := by
      rw [List.flatMap_eq_nil_iff]
      intro worker hworker
      rw [List.eq_of_mem_replicate hworker]
      rfl
    rw [this]
    exact .refl _
  left worker hworker hgone := by
    rw [List.eq_of_mem_replicate hworker] at hgone
    exact absurd hgone (by simp)
  staffed h := by
    have hlen : workerCount jobs.length maxConcurrent = 0 := by
      simpa [start] using congrArg List.length h
    unfold workerCount at hlen
    omega

/-- A change adds a job to those of the worker only when the counter moves. -/
theorem Change.claims {worker worker' : Worker} {next : Nat} {shop : Workshop}
    (h : Change batch tools turn pool worker worker' next shop) :
    pool.next < batch.jobs.length ∧ next = pool.next + 1 ∧
        worker'.claims.Perm ([pool.next] ++ worker.claims) ∨
      min next batch.jobs.length = min pool.next batch.jobs.length ∧
        worker'.claims.Perm worker.claims := by
  cases h with
  | take htask hmore =>
    left
    refine ⟨hmore, rfl, ?_⟩
    rw [Worker.claims, Worker.claims, htask]
    exact .refl _
  | leave htask hnone =>
    right
    refine ⟨by omega, ?_⟩
    rw [Worker.claims, Worker.claims, htask]
    exact .refl _
  | refuse htask _ => right; rw [Worker.claims, Worker.claims, htask]; exact ⟨rfl, .refl _⟩
  | start htask _ => right; rw [Worker.claims, Worker.claims, htask]; exact ⟨rfl, .refl _⟩
  | copy htask => right; rw [Worker.claims, Worker.claims, htask]; exact ⟨rfl, .refl _⟩
  | note htask => right; rw [Worker.claims, Worker.claims, htask]; exact ⟨rfl, .refl _⟩

theorem Change.gone {worker worker' : Worker} {next : Nat} {shop : Workshop}
    (h : Change batch tools turn pool worker worker' next shop) :
    pool.next ≤ next ∧ (worker'.task = .gone → batch.jobs.length ≤ next) := by
  cases h with
  | take _ _ => exact ⟨Nat.le_succ _, fun hgone => nomatch hgone⟩
  | leave _ hnone => exact ⟨Nat.le_succ _, fun _ => Nat.le_succ_of_le hnone⟩
  | refuse _ _ => exact ⟨Nat.le_refl _, fun hgone => nomatch hgone⟩
  | start _ _ => exact ⟨Nat.le_refl _, fun hgone => nomatch hgone⟩
  | copy _ => exact ⟨Nat.le_refl _, fun hgone => nomatch hgone⟩
  | note _ => exact ⟨Nat.le_refl _, fun hgone => nomatch hgone⟩

theorem counted_step (h : pool.Counted batch) (tools : CopyTools) (turn : Turn) (k : Nat) :
    (pool.step batch tools turn k).Counted batch := by
  rcases step_cases batch tools turn pool k with
    hsame | ⟨worker, worker', next, shop, hk, hchange, hstep⟩
  · rw [hsame]; exact h
  rw [hstep]
  refine ⟨?_, ?_, ?_⟩
  -- the next number joins the jobs that are taken, or nothing does
  · show ((pool.workers.set k worker').flatMap Worker.claims).Perm
      (List.range (min next batch.jobs.length))
    rcases hchange.claims with ⟨hmore, rfl, hperm⟩ | ⟨hnext, hperm⟩
    · have hall := (flatMap_set_perm hperm _ _ hk).trans (h.claimed.append_left _)
      refine hall.trans ?_
      rw [show min (pool.next + 1) batch.jobs.length = pool.next + 1 by omega,
        show min pool.next batch.jobs.length = pool.next by omega, List.range_succ]
      exact List.perm_append_comm
    · have hall : ((pool.workers.set k worker').flatMap Worker.claims).Perm
          ([] ++ pool.workers.flatMap Worker.claims) := flatMap_set_perm hperm _ _ hk
      rw [hnext]
      exact hall.trans h.claimed
  · intro other hother hgone
    rcases List.mem_or_eq_of_mem_set hother with hmem | rfl
    · exact Nat.le_trans (h.left other hmem hgone) hchange.gone.1
    · exact hchange.gone.2 hgone
  · intro hnil
    rw [List.set_eq_nil_iff] at hnil
    exact h.staffed hnil

theorem counted_after (h : pool.Counted batch) (tools : CopyTools) (move : PoolMove) :
    (after batch tools pool move).Counted batch := by
  cases move with
  | worker k turn => exact counted_step h tools turn k
  | others change => exact ⟨h.claimed, h.left, h.staffed⟩

/-- **Every run keeps the count of the jobs that are taken.** -/
theorem counted_run (h : pool.Counted batch) (tools : CopyTools) (moves : List PoolMove) :
    (pool.run batch tools moves).Counted batch := by
  refine run_induction (fun pool move hpool => ?_) moves pool h
  exact counted_after hpool tools move

/-! ### No job is taken twice -/

theorem Counted.nodup (h : pool.Counted batch) : (pool.workers.flatMap Worker.claims).Nodup :=
  h.claimed.nodup_iff.mpr List.nodup_range

theorem Counted.lt_next (h : pool.Counted batch) {worker : Worker} (hw : worker ∈ pool.workers)
    {index : Nat} (hi : index ∈ worker.claims) : index < pool.next := by
  have := h.claimed.mem_iff.mp (List.mem_flatMap.mpr ⟨worker, hw, hi⟩)
  rw [List.mem_range] at this
  omega

/-- A job that one worker has taken is taken by no other. -/
theorem Counted.claims_disjoint (h : pool.Counted batch) {k k' : Nat} {worker worker' : Worker}
    (hk : pool.workers[k]? = some worker) (hk' : pool.workers[k']? = some worker') (hne : k ≠ k')
    {index : Nat} (hi : index ∈ worker.claims) : index ∉ worker'.claims := by
  intro hi'
  have hpairs := (List.pairwise_flatMap.mp h.nodup).2
  rw [List.pairwise_iff_getElem] at hpairs
  obtain ⟨hlt, rfl⟩ := List.getElem?_eq_some_iff.mp hk
  obtain ⟨hlt', rfl⟩ := List.getElem?_eq_some_iff.mp hk'
  rcases Nat.lt_or_gt_of_ne hne with hless | hless
  · exact hpairs k k' hlt hlt' hless index hi index hi' rfl
  · exact hpairs k' k hlt' hlt hless index hi' index hi rfl

theorem Counted.eq_of_mem_claims (h : pool.Counted batch) {worker worker' : Worker}
    (hw : worker ∈ pool.workers) (hw' : worker' ∈ pool.workers) {index : Nat}
    (hi : index ∈ worker.claims) (hi' : index ∈ worker'.claims) : worker = worker' := by
  obtain ⟨k, hk⟩ := List.mem_iff_getElem?.mp hw
  obtain ⟨k', hk'⟩ := List.mem_iff_getElem?.mp hw'
  by_cases hne : k = k'
  · subst hne
    exact Option.some.inj (hk.symm.trans hk')
  · exact absurd hi' (h.claims_disjoint hk hk' hne hi)

/-- When a worker has changed, the others have not taken what it had taken. -/
theorem Counted.notMem_claims_of_mem_set (h : pool.Counted batch) {k : Nat}
    {worker worker' other : Worker} (hk : pool.workers[k]? = some worker) {index : Nat}
    (hi : index ∈ worker.claims) (hother : other ∈ pool.workers.set k worker') :
    other = worker' ∨ index ∉ other.claims := by
  obtain ⟨k', hk'⟩ := List.mem_iff_getElem?.mp hother
  rcases set_cases hk' with ⟨-, rfl⟩ | ⟨hne, hk'⟩
  · exact .inl rfl
  · exact .inr (h.claims_disjoint hk hk' hne.symm hi)

/-- The job that a worker is at is not one that it has done. -/
theorem Counted.notMem_results (h : pool.Counted batch) {worker : Worker}
    (hw : worker ∈ pool.workers) {index : Nat} (hi : worker.task.index? = some index)
    (result : CopyResult) : (index, result) ∉ worker.results := by
  have hnodup := (List.pairwise_flatMap.mp h.nodup).1 worker hw
  rw [Worker.claims, hi, Option.toList_some, List.singleton_append, List.pairwise_cons] at hnodup
  exact fun hmem => hnodup.1 index (List.mem_map.mpr ⟨_, hmem, rfl⟩) rfl

/-! ### Results in the order of the jobs -/

/-- There are results when all workers have gone. -/
theorem results?_eq_some {results : List CopyResult} (h : pool.results? = some results) :
    (∀ worker ∈ pool.workers, worker.task = .gone) ∧ results = pool.numbered.map Prod.snd := by
  unfold results? at h
  split at h
  · next hgone =>
    refine ⟨fun worker hw => ?_, (Option.some.inj h).symm⟩
    have := List.all_eq_true.mp hgone worker hw
    split at this
    · assumption
    · exact absurd this (by simp)
  · exact absurd h (by simp)

/-- When all workers have gone, every job has one result. -/
theorem Counted.numbered_eq_range (h : pool.Counted batch)
    (htask : ∀ worker ∈ pool.workers, worker.task = .gone) :
    pool.numbered.map Prod.fst = List.range batch.jobs.length := by
  have hnext : batch.jobs.length ≤ pool.next := by
    obtain ⟨worker, hw⟩ := List.exists_mem_of_ne_nil _ h.staffed
    exact h.left worker hw (htask worker hw)
  have hsorted : pool.numbered.Pairwise fun a b => decide (a.1 ≤ b.1) = true :=
    List.pairwise_mergeSort (fun a b c hab hbc => by simp at *; omega) (fun a b => by simp; omega) _
  have hasc : (pool.numbered.map Prod.fst).Pairwise (· ≤ ·) := by
    rw [List.pairwise_map]
    exact hsorted.imp fun hab => by simpa using hab
  have hclaims : ((pool.workers.flatMap fun worker => worker.results.reverse).map Prod.fst).Perm
      (pool.workers.flatMap Worker.claims) := by
    rw [List.map_flatMap]
    apply List.Perm.flatMap_left
    intro worker hw
    rw [Worker.claims, htask worker hw, List.map_reverse]
    exact List.reverse_perm _
  have hall := h.claimed
  rw [Nat.min_eq_right hnext] at hall
  -- both sides have the same numbers, and both are sorted
  exact List.Perm.eq_of_pairwise (fun _ _ _ _ => Nat.le_antisymm) hasc
    (List.pairwise_lt_range.imp Nat.le_of_lt)
    (((List.mergeSort_perm _ _).map _).trans (hclaims.trans hall))

theorem mem_numbered {index : Nat} {result : CopyResult} :
    (index, result) ∈ pool.numbered ↔
      ∃ worker ∈ pool.workers, (index, result) ∈ worker.results := by
  rw [numbered, List.mem_mergeSort, List.mem_flatMap]
  simp only [List.mem_reverse]

/-- **The results are those that the workers have noted**, each one at its job. -/
theorem Counted.getElem?_results (h : pool.Counted batch) {results : List CopyResult}
    (hr : pool.results? = some results) {index : Nat} {result : CopyResult} :
    results[index]? = some result ↔
      ∃ worker ∈ pool.workers, (index, result) ∈ worker.results := by
  obtain ⟨hgone, rfl⟩ := results?_eq_some hr
  -- the number beside a result is its position
  have hnumber : ∀ (position number : Nat) (result : CopyResult),
      pool.numbered[position]? = some (number, result) → position = number := by
    intro position number result hget
    have : (pool.numbered.map Prod.fst)[position]? = some number := by
      rw [List.getElem?_map, hget]; rfl
    rw [h.numbered_eq_range hgone] at this
    obtain ⟨hlt, heq⟩ := List.getElem?_eq_some_iff.mp this
    rwa [List.getElem_range] at heq
  rw [← mem_numbered, List.getElem?_map, Option.map_eq_some_iff]
  constructor
  · rintro ⟨⟨number, _⟩, hget, rfl⟩
    obtain rfl := hnumber _ _ _ hget
    exact List.mem_of_getElem? hget
  · intro hmem
    obtain ⟨position, hget⟩ := List.mem_iff_getElem?.mp hmem
    obtain rfl := hnumber _ _ _ hget
    exact ⟨_, hget, rfl⟩

theorem Counted.length_results (h : pool.Counted batch) {results : List CopyResult}
    (hr : pool.results? = some results) : results.length = batch.jobs.length := by
  obtain ⟨hgone, rfl⟩ := results?_eq_some hr
  have hlen := congrArg List.length (h.numbered_eq_range hgone)
  rw [List.length_map, List.length_range] at hlen
  rw [List.length_map, hlen]

/-- Every job has the result that a worker has noted. -/
theorem Counted.exists_noted (h : pool.Counted batch) {results : List CopyResult}
    (hr : pool.results? = some results) {index : Nat} (hi : index < batch.jobs.length) :
    ∃ result, results[index]? = some result ∧
      ∃ worker ∈ pool.workers, (index, result) ∈ worker.results := by
  have hlt : index < results.length := (h.length_results hr).symm ▸ hi
  have hget := List.getElem?_eq_getElem hlt
  exact ⟨results[index], hget, (h.getElem?_results hr).mp hget⟩

/-- Results that the workers hold in the order of the jobs are reported in that order. -/
theorem results?_of_sorted (noted : List (Nat × CopyResult)) (hgone : pool.allGone = true)
    (hnoted : (pool.workers.flatMap fun worker => worker.results.reverse) = noted)
    (hsorted : noted.Pairwise fun a b => a.1 ≤ b.1) :
    pool.results? = some (noted.map Prod.snd) := by
  rw [results?, if_pos hgone, numbered, hnoted, List.mergeSort_of_pairwise]
  exact hsorted.imp fun h => by simpa using h

/-! ### A run that is left alone -/

/-- A run in which only the workers of a list take steps. -/
def stepAll (batch : CopyBatch) (tools : CopyTools) (pool : CopyPool) (turns : List (Nat × Turn)) :
    CopyPool :=
  turns.foldl (fun pool s => pool.step batch tools s.2 s.1) pool

theorem stepAll_append (batch : CopyBatch) (tools : CopyTools) (pool : CopyPool)
    (turns turns' : List (Nat × Turn)) :
    pool.stepAll batch tools (turns ++ turns') =
      (pool.stepAll batch tools turns).stepAll batch tools turns' :=
  List.foldl_append

theorem stepAll_eq_run (batch : CopyBatch) (tools : CopyTools) (pool : CopyPool)
    (turns : List (Nat × Turn)) :
    pool.stepAll batch tools turns =
      pool.run batch tools (turns.map fun s => PoolMove.worker s.1 s.2) := by
  rw [run, List.foldl_map]
  rfl

theorem stepWorker_eq_stepAll (batch : CopyBatch) (tools : CopyTools) (turn : Turn) (k : Nat) :
    ∀ (n : Nat) (pool : CopyPool),
      ∃ turns, stepWorker batch tools turn k n pool = pool.stepAll batch tools turns := by
  intro n
  induction n with
  | zero => intro pool; exact ⟨[], rfl⟩
  | succ n ih =>
    intro pool
    rw [stepWorker]
    split
    · exact ⟨[], rfl⟩
    · obtain ⟨turns, hturns⟩ := ih (pool.step batch tools turn k)
      exact ⟨(k, turn) :: turns, hturns⟩

theorem settleWorker_eq_stepAll (batch : CopyBatch) (tools : CopyTools) (turn : Turn) (k : Nat) :
    ∀ (n : Nat) (pool : CopyPool),
      ∃ turns, settleWorker batch tools turn k n pool = pool.stepAll batch tools turns := by
  intro n
  induction n with
  | zero => intro pool; exact ⟨[], rfl⟩
  | succ n ih =>
    intro pool
    rw [settleWorker]
    split
    · exact ⟨[], rfl⟩
    · obtain ⟨turns, hturns⟩ := stepWorker_eq_stepAll batch tools turn k (pool.taskSteps k) pool
      obtain ⟨turns', hturns'⟩ := ih (stepWorker batch tools turn k (pool.taskSteps k) pool)
      exact ⟨turns ++ turns', by rw [hturns', hturns, stepAll_append]⟩

theorem settle_eq_stepAll (batch : CopyBatch) (tools : CopyTools) (now : Moment) (pool : CopyPool) :
    ∃ turns, pool.settle batch tools now = pool.stepAll batch tools turns := by
  unfold settle
  generalize List.range pool.workers.length = ks
  induction ks generalizing pool with
  | nil => exact ⟨[], rfl⟩
  | cons k ks ih =>
    obtain ⟨turns, hturns⟩ :=
      settleWorker_eq_stepAll batch tools { now := now } k (taskCount batch) pool
    obtain ⟨turns', hturns'⟩ :=
      ih (settleWorker batch tools { now := now } k (taskCount batch) pool)
    exact ⟨turns ++ turns', by rw [List.foldl_cons, hturns', hturns, stepAll_append]⟩

end CopyPool

/-- The workers for some jobs after all that happens. -/
def copyAllDuring (jobs : List CopyJob) (maxConcurrent : Nat) (tools : CopyTools)
    (moves : List PoolMove) (w : Workshop) : CopyPool :=
  (CopyPool.start jobs maxConcurrent w).run (.of jobs) tools moves

theorem copyAll_fst (jobs : List CopyJob) (maxConcurrent : Nat) (tools : CopyTools)
    (now : Moment) (w : Workshop) :
    (copyAll jobs maxConcurrent tools now w).1 =
      ((CopyPool.start jobs maxConcurrent w).settle (.of jobs) tools now).results? := rfl

/-- A run that is left alone is one order of steps. -/
theorem copyAll_eq_copyAllDuring (jobs : List CopyJob) (maxConcurrent : Nat) (tools : CopyTools)
    (now : Moment) (w : Workshop) :
    ∃ moves, copyAll jobs maxConcurrent tools now w =
      ((copyAllDuring jobs maxConcurrent tools moves w).results?,
        (copyAllDuring jobs maxConcurrent tools moves w).shop) := by
  obtain ⟨turns, hturns⟩ :=
    CopyPool.settle_eq_stepAll (.of jobs) tools now (CopyPool.start jobs maxConcurrent w)
  rw [CopyPool.stepAll_eq_run] at hturns
  exact ⟨_, by simp only [copyAll, copyAllDuring, hturns]; rfl⟩

end TransferBoard
