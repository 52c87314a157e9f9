import TransferBoard.Proofs.Copy.Calls
import TransferBoard.Proofs.Copy.OnCourse

/-!
# Jobs that are not copied

A job is refused when an earlier one has its destination, and it is not started when the end
has been asked for.  Either way a worker notes a result for it, and nothing that is shared is
touched.

## Main definitions

* `IsTaken jobs i dest` — an earlier job has the destination of the one with the number.
* `CopyPool.TurnsAway i result` — the job is not under way, and has not ended but with the
  result.
* `CopyPool.Spares i` — no step that a worker takes for the job touches what is shared.

## Main results

* `refusal?_iff` — the jobs that are refused.
* `turnsAway_run`, `spares_of_begins` — a job that every worker turns away is turned away in
  the whole run.
* `refused_run`, `cancelled_run` — refused jobs, and those not started when the end is asked
  for.
-/

namespace TransferBoard

/-! ### Destinations of earlier jobs -/

/-- An earlier job has the destination of the one with the number. -/
def IsTaken (jobs : List CopyJob) (i : Nat) (dest : Path) : Prop :=
  (jobs[i]?).bind CopyJob.destination? = some dest ∧
    ∃ (j : Nat) (other : CopyJob) (p : Path), j < i ∧ jobs[j]? = some other ∧
      other.destination? = some p ∧ p.Same dest

/-- The destinations among those seen and those of earlier jobs are the ones that are not to
be had any more. -/
theorem join_duplicatesAfter {dest : Path} (jobs : List CopyJob) :
    ∀ (seen : List Path) (i : Nat), ((duplicatesAfter seen jobs)[i]?).join = some dest ↔
      (jobs[i]?).bind CopyJob.destination? = some dest ∧
        ∃ p ∈ seen ++ (jobs.take i).filterMap CopyJob.destination?, p.Same dest := by
  induction jobs with
  | nil => intro seen i; simp [duplicatesAfter]
  | cons job jobs ih =>
    intro seen i
    rw [duplicatesAfter]
    cases hdest : job.destination? with
    | none =>
      cases i with
      | zero => simp [hdest]
      | succ i => simpa [hdest] using ih seen i
    | some own =>
      simp only [List.any_eq_true]
      split
      · next hseen =>
        obtain ⟨p, hp, hsame⟩ := hseen
        have hsame : p.Same own := of_decide_eq_true hsame
        cases i with
        | zero =>
          simp only [List.getElem?_cons_zero, Option.join_some, Option.bind_some, hdest,
            List.take_zero, List.filterMap_nil, List.append_nil]
          refine ⟨fun heq => ⟨heq, p, hp, ?_⟩, fun h => h.1⟩
          rwa [← Option.some.inj heq]
        | succ i =>
          simp only [List.getElem?_cons_succ, ih seen i, List.take_succ_cons,
            List.filterMap_cons, hdest]
          -- the destination is no news: one that is the same has been seen
          refine and_congr_right fun _ => ⟨?_, ?_⟩
          · rintro ⟨q, hq, hqdest⟩
            refine ⟨q, ?_, hqdest⟩
            rcases List.mem_append.mp hq with hq | hq
            · exact List.mem_append_left _ hq
            · exact List.mem_append_right _ (List.mem_cons_of_mem _ hq)
          · rintro ⟨q, hq, hqdest⟩
            rcases List.mem_append.mp hq with hq | hq
            · exact ⟨q, List.mem_append_left _ hq, hqdest⟩
            rcases List.mem_cons.mp hq with rfl | hq
            · exact ⟨p, List.mem_append_left _ hp, hsame.trans hqdest⟩
            · exact ⟨q, List.mem_append_right _ hq, hqdest⟩
      · next hnew =>
        cases i with
        | zero =>
          simp only [List.getElem?_cons_zero, Option.join_some, Option.bind_some, hdest,
            List.take_zero, List.filterMap_nil, List.append_nil]
          refine ⟨fun heq => absurd heq (by simp), ?_⟩
          rintro ⟨heq, p, hp, hsame⟩
          obtain rfl := Option.some.inj heq
          exact absurd ⟨p, hp, decide_eq_true hsame⟩ hnew
        | succ i =>
          simp only [List.getElem?_cons_succ, ih (seen ++ [own]) i, List.take_succ_cons,
            List.filterMap_cons, hdest, List.append_assoc, List.singleton_append]

/-- **A job is refused exactly when an earlier one has its destination.** -/
theorem refusal?_iff {jobs : List CopyJob} {i : Nat} {dest : Path} :
    (CopyBatch.of jobs).refusal? i = some dest ↔ IsTaken jobs i dest := by
  rw [CopyBatch.refusal?, CopyBatch.of, duplicateDestinations, join_duplicatesAfter]
  refine and_congr_right fun _ => ⟨?_, ?_⟩
  · rintro ⟨p, hp, hsame⟩
    rw [List.nil_append, List.mem_filterMap] at hp
    obtain ⟨other, hother, hdest⟩ := hp
    obtain ⟨j, hj, hget⟩ := List.mem_take_iff_getElem.mp hother
    exact ⟨j, other, p, by omega, List.getElem?_eq_some_iff.mpr ⟨by omega, hget⟩, hdest, hsame⟩
  · rintro ⟨j, other, p, hj, hother, hdest, hsame⟩
    obtain ⟨hlt, hget⟩ := List.getElem?_eq_some_iff.mp hother
    refine ⟨p, ?_, hsame⟩
    rw [List.nil_append, List.mem_filterMap]
    exact ⟨other, List.mem_take_iff_getElem.mpr ⟨j, by omega, hget⟩, hdest⟩

theorem refusal?_eq_none_iff {jobs : List CopyJob} {i : Nat} :
    (CopyBatch.of jobs).refusal? i = none ↔ ∀ dest, ¬ IsTaken jobs i dest := by
  rw [Option.eq_none_iff_forall_ne_some]
  exact forall_congr' fun dest => not_congr refusal?_iff

/-- The destinations of jobs that are not refused are different places. -/
theorem not_same_of_free {jobs : List CopyJob} {i j : Nat} {plan other : CopyPlan}
    (hi : (CopyBatch.of jobs).freePlan? i = some plan)
    (hj : (CopyBatch.of jobs).freePlan? j = some other) (hne : i ≠ j) :
    ¬ plan.target.Same other.target := by
  -- the later one of the two would be refused
  have hless : ∀ {i j : Nat} {plan other : CopyPlan},
      (CopyBatch.of jobs).freePlan? i = some plan →
      (CopyBatch.of jobs).freePlan? j = some other → i < j → ¬ plan.target.Same other.target := by
    intro i j plan other hi hj hij hsame
    obtain ⟨-, hplan⟩ := CopyBatch.freePlan?_eq_some.mp hi
    obtain ⟨hfree, hother⟩ := CopyBatch.freePlan?_eq_some.mp hj
    obtain ⟨job, hjob, hplan⟩ := Option.bind_eq_some_iff.mp hplan
    obtain ⟨job', hjob', hother⟩ := Option.bind_eq_some_iff.mp hother
    obtain ⟨-, -, hdest⟩ := CopyPlan.proper_of_plan? hplan
    obtain ⟨-, -, hdest'⟩ := CopyPlan.proper_of_plan? hother
    have htaken : IsTaken jobs j other.target :=
      ⟨Option.bind_eq_some_iff.mpr ⟨job', hjob', hdest'⟩, i, job, plan.target, hij, hjob, hdest, hsame⟩
    exact refusal?_eq_none_iff.mp hfree _ htaken
  rcases Nat.lt_or_gt_of_ne hne with hlt | hgt
  · exact hless hi hj hlt
  · exact fun hsame => hless hj hi hgt hsame.symm

variable {batch : CopyBatch} {tools : CopyTools} {turn : Turn} {pool : CopyPool} {i k : Nat}
  {result : CopyResult}

/-! ### Jobs that are turned away -/

/-- The worker does not copy the job, and has not noted another result for it. -/
structure Worker.TurnsAway (i : Nat) (result : CopyResult) (worker : Worker) : Prop where
  /-- The job is not under way. -/
  copying : ∀ plan stage, worker.task ≠ .copying i plan stage
  /-- It has not ended in another way. -/
  noted : ∀ result', (i, result') ∈ worker.results → result' = result

theorem Worker.TurnsAway.note {worker : Worker} (h : worker.TurnsAway i result) {index : Nat}
    {result' : CopyResult} (hsame : index = i → result' = result) :
    (worker.note index result').TurnsAway i result where
  copying _ _ htask := nomatch htask
  noted result'' hmem := by
    rcases Worker.mem_note.mp hmem with ⟨rfl, rfl⟩ | hmem
    · exact hsame rfl
    · exact h.noted _ hmem

/-- A worker that takes up another job turns this one away as before. -/
theorem Worker.TurnsAway.begin {worker : Worker} (h : worker.TurnsAway i result)
    (batch : CopyBatch) (shop : Workshop) {index : Nat} (hne : index ≠ i) :
    (beginJob batch shop worker index).TurnsAway i result := by
  unfold beginJob
  split
  · exact h.note fun heq => absurd heq hne
  split
  · exact h.note fun heq => absurd heq hne
  split
  · exact h
  split
  · exact h.note fun heq => absurd heq hne
  · refine ⟨?_, h.noted⟩
    rintro _ _ ⟨⟩
    exact hne rfl

namespace CopyPool

/-- No worker copies the job, and none has noted another result for it. -/
def TurnsAway (i : Nat) (result : CopyResult) (pool : CopyPool) : Prop :=
  ∀ worker ∈ pool.workers, worker.TurnsAway i result

/-- No step that a worker takes for the job touches what is shared. -/
def Spares (batch : CopyBatch) (tools : CopyTools) (i : Nat) (pool : CopyPool)
    (moves : List PoolMove) : Prop :=
  ∀ past k turn, past ++ [.worker k turn] <+: moves →
    ∀ worker, (pool.run batch tools past).workers[k]? = some worker →
      worker.task.index? = some i →
      CopyPool.shop ((pool.run batch tools past).step batch tools turn k) =
        CopyPool.shop (pool.run batch tools past)

theorem turnsAway_start (jobs : List CopyJob) (maxConcurrent : Nat) (shop : Workshop) (i : Nat)
    (result : CopyResult) : (start jobs maxConcurrent shop).TurnsAway i result := by
  intro worker hworker
  rw [List.eq_of_mem_replicate hworker]
  exact ⟨fun _ _ h => (nomatch h), fun _ h => absurd h List.not_mem_nil⟩

theorem turnsAway_of_not_begun (h : ¬ pool.Begun i) (result : CopyResult) :
    pool.TurnsAway i result := by
  intro worker hworker
  constructor
  · intro plan stage htask
    exact h ⟨worker, hworker, .inl ⟨plan, stage, htask, rfl⟩⟩
  · intro result' hmem
    exact absurd ⟨worker, hworker, .inr ⟨result', hmem, rfl⟩⟩ h

theorem TurnsAway.set (h : pool.TurnsAway i result) {worker : Worker} {next : Nat}
    {shop : Workshop} (hworker : worker.TurnsAway i result) :
    TurnsAway i result ⟨pool.workers.set k worker, next, shop⟩ := by
  intro other hother
  rcases List.mem_or_eq_of_mem_set hother with hmem | rfl
  · exact h other hmem
  · exact hworker

/-- **Where every worker turns the job away, it stays turned away.** -/
theorem turnsAway_step (h : pool.TurnsAway i result)
    (hbegin : ∀ worker, beginJob batch pool.shop worker i = worker.note i result)
    (tools : CopyTools) (turn : Turn) (k : Nat) :
    (pool.step batch tools turn k).TurnsAway i result := by
  cases hk : pool.workers[k]? with
  | none =>
    rw [step, hk]
    exact h
  | some worker =>
    have haway := h worker (List.mem_of_getElem? hk)
    cases htask : worker.task with
    | gone =>
      rw [step_of_gone hk htask]
      exact h
    | idle =>
      rw [step_of_idle hk htask]
      refine h.set ⟨?_, haway.noted⟩
      intro plan stage hcopying
      split at hcopying <;> exact absurd hcopying (by simp)
    | taken index =>
      rw [step_of_taken hk htask]
      apply h.set
      -- the job is taken by a worker that turns it away
      by_cases hindex : index = i
      · rw [hindex, hbegin]
        exact haway.note fun _ => rfl
      · exact haway.begin batch pool.shop hindex
    | copying index plan stage =>
      -- nobody is copying it, by the invariant
      have hindex : index ≠ i := by
        rintro rfl
        exact haway.copying plan stage htask
      cases hresult : stage.result? with
      | none =>
        rw [step_of_copying hk htask hresult]
        refine h.set ⟨?_, haway.noted⟩
        rintro _ _ ⟨⟩
        exact hindex rfl
      | some result' =>
        obtain rfl := CopyStage.eq_ended_of_result? hresult
        rw [step_of_ended hk htask]
        exact h.set (haway.note fun heq => absurd heq hindex)

/-- A step for a job that is turned away touches nothing that is shared. -/
theorem TurnsAway.shop_step (h : pool.TurnsAway i result) {worker : Worker}
    (hk : pool.workers[k]? = some worker) (hindex : worker.task.index? = some i)
    (batch : CopyBatch) (tools : CopyTools) (turn : Turn) :
    (pool.step batch tools turn k).shop = pool.shop := by
  cases htask : worker.task with
  | taken index => rw [step_of_taken hk htask]
  | copying index plan stage =>
    rw [htask] at hindex
    obtain rfl : index = i := Option.some.inj hindex
    exact absurd htask ((h worker (List.mem_of_getElem? hk)).copying plan stage)
  | idle => exact absurd hindex (by simp [htask, WorkerTask.index?])
  | gone => exact absurd hindex (by simp [htask, WorkerTask.index?])

theorem turnsAway_run {moves : List PoolMove} (h : pool.TurnsAway i result)
    (hbegin : ∀ past, past <+: moves → ∀ worker,
      beginJob batch (pool.run batch tools past).shop worker i = worker.note i result) :
    (pool.run batch tools moves).TurnsAway i result := by
  induction moves generalizing pool with
  | nil => exact h
  | cons move moves ih =>
    have hnow : ∀ worker, beginJob batch pool.shop worker i = worker.note i result :=
      hbegin [] List.nil_prefix
    refine ih ?_ fun past hpast => hbegin (move :: past) (List.cons_prefix_cons.mpr ⟨rfl, hpast⟩)
    cases move with
    | worker k turn => exact turnsAway_step h hnow tools turn k
    | others change => exact h

/-- A job that every worker turns away leaves alone what is shared. -/
theorem spares_of_begins {moves : List PoolMove} (h : pool.TurnsAway i result)
    (hbegin : ∀ past, past <+: moves → ∀ worker,
      beginJob batch (pool.run batch tools past).shop worker i = worker.note i result) :
    pool.Spares batch tools i moves := by
  intro past k turn hpast worker hk hindex
  have hearlier := (List.prefix_append past [.worker k turn]).trans hpast
  have haway := turnsAway_run h fun past' hpast' => hbegin past' (hpast'.trans hearlier)
  exact haway.shop_step hk hindex batch tools turn

/-- A job that is turned away is reported with that result. -/
theorem TurnsAway.result_eq {jobs : List CopyJob} (h : pool.TurnsAway i result)
    (hc : pool.Counted (.of jobs)) {results : List CopyResult}
    (hr : pool.results? = some results) (hi : i < jobs.length) : results[i]? = some result := by
  obtain ⟨result', hget, worker, hworker, hmem⟩ := hc.exists_noted hr hi
  rw [hget, (h worker hworker).noted result' hmem]

/-! ### The two reasons -/

theorem beginJob_of_refusal {dest : Path} (h : batch.refusal? i = some dest) (shop : Workshop)
    (worker : Worker) :
    beginJob batch shop worker i = worker.note i (.error (.destinationTaken dest)) := by
  have hjoin : (batch.taken[i]?).join = some dest := h
  rw [beginJob, hjoin]

theorem beginJob_of_cancelled (hfree : batch.refusal? i = none) {shop : Workshop}
    (h : shop.board.isCancelled = true) (worker : Worker) :
    beginJob batch shop worker i = worker.note i (.ok .cancelled) := by
  have hjoin : (batch.taken[i]?).join = none := hfree
  rw [beginJob, hjoin]
  simp only [h, if_true]

variable {jobs : List CopyJob} {maxConcurrent : Nat} {w : Workshop} {moves : List PoolMove}

/-- **A refused job is never copied**, whatever happens in the run. -/
theorem refused_run {dest : Path} (h : (CopyBatch.of jobs).refusal? i = some dest)
    (tools : CopyTools) (moves : List PoolMove) (w : Workshop) :
    let pool := copyAllDuring jobs maxConcurrent tools moves w
    pool.TurnsAway i (.error (.destinationTaken dest)) ∧
      (start jobs maxConcurrent w).Spares (.of jobs) tools i moves := by
  have hstart := turnsAway_start jobs maxConcurrent w i (.error (.destinationTaken dest))
  have hbegin := fun past (_ : past <+: moves) => beginJob_of_refusal h
    ((start jobs maxConcurrent w).run (.of jobs) tools past).shop
  exact ⟨turnsAway_run hstart hbegin, spares_of_begins hstart hbegin⟩

/-- **A job that has not been started when the end is asked for is not started any more.** -/
theorem cancelled_run {allowed : BoardSection → Bool} (hfree : batch.refusal? i = none)
    (hcancelled : pool.shop.board.isCancelled = true) (hnot : ¬ pool.Begun i)
    (hmoves : ∀ move ∈ moves, move.MadeOf allowed) (tools : CopyTools) :
    (pool.run batch tools moves).TurnsAway i (.ok .cancelled) ∧
      pool.Spares batch tools i moves := by
  have hstart := turnsAway_of_not_begun hnot (.ok .cancelled)
  have hbegin : ∀ past, past <+: moves → ∀ worker,
      beginJob batch (pool.run batch tools past).shop worker i =
        worker.note i (.ok .cancelled) := by
    intro past hpast worker
    have hpastMoves := fun move hmove => hmoves move (hpast.subset hmove)
    exact beginJob_of_cancelled hfree (isCancelled_run hpastMoves hcancelled) worker
  exact ⟨turnsAway_run hstart hbegin, spares_of_begins hstart hbegin⟩

end CopyPool
end TransferBoard
