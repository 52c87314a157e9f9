import TransferBoard.Proofs.Copy.Reports
import TransferBoard.Proofs.Copy.Returns

/-!
# Side by side is one by one

However many workers take the jobs of a run, and in whatever order they take their steps:
when the jobs keep clear of each other, every job ends as it would end alone, and the disk
is in the end what it is when the jobs are done one after the other.

## Main definitions

* `resultAlone?` — how a job ends alone, if it is not refused.

## Main results

* `freePlan?_of` — the jobs that are not refused, by their numbers.
* `clear_of_keepApart` — jobs that keep apart keep clear of each other in a run.
* `side_by_side_is_one_by_one` — the results and the disk of a run, the steps that it takes,
  and that it returns.
-/

namespace TransferBoard

variable {jobs : List CopyJob} {d : Disk} {i : Nat}

/-! ### The jobs that are not refused -/

theorem length_duplicatesAfter (seen : List Path) (jobs : List CopyJob) :
    (duplicatesAfter seen jobs).length = jobs.length := by
  induction jobs generalizing seen with
  | nil => rfl
  | cons job jobs ih =>
    rw [duplicatesAfter]
    split
    · rw [List.length_cons, ih, List.length_cons]
    split
    · rw [List.length_cons, ih, List.length_cons]
    · rw [List.length_cons, ih, List.length_cons]

theorem length_withRefusals (jobs : List CopyJob) : (withRefusals jobs).length = jobs.length := by
  rw [withRefusals, List.length_zip, duplicateDestinations, length_duplicatesAfter, Nat.min_self]

theorem getElem?_withRefusals {job : CopyJob} {taken : Option Path} :
    (withRefusals jobs)[i]? = some (job, taken) ↔
      jobs[i]? = some job ∧ (CopyBatch.of jobs).refusal? i = taken := by
  rw [withRefusals, List.getElem?_zip_eq_some]
  refine and_congr_right fun hjob => ?_
  obtain ⟨hlt, -⟩ := List.getElem?_eq_some_iff.mp hjob
  -- the list of refusals is as long as that of the jobs
  have hlen : i < (duplicateDestinations jobs).length := by
    rwa [duplicateDestinations, length_duplicatesAfter]
  rw [CopyBatch.refusal?, CopyBatch.of, List.getElem?_eq_getElem hlen, Option.join_some,
    Option.some.injEq]

theorem freePlan?_of {plan : CopyPlan} :
    (CopyBatch.of jobs).freePlan? i = some plan ↔
      ∃ job, (withRefusals jobs)[i]? = some (job, none) ∧ job.plan? = some plan := by
  rw [CopyBatch.freePlan?_eq_some, CopyBatch.plan?, Option.bind_eq_some_iff]
  constructor
  · rintro ⟨hfree, job, hjob, hplan⟩
    exact ⟨job, getElem?_withRefusals.mpr ⟨hjob, hfree⟩, hplan⟩
  · rintro ⟨job, hentry, hplan⟩
    obtain ⟨hjob, hfree⟩ := getElem?_withRefusals.mp hentry
    exact ⟨hfree, job, hjob, hplan⟩

theorem mem_freeJobs {job : CopyJob} :
    job ∈ freeJobs jobs ↔ ∃ i : Nat, (withRefusals jobs)[i]? = some (job, none) := by
  rw [freeJobs, List.mem_map]
  constructor
  · rintro ⟨⟨_, taken⟩, hentry, rfl⟩
    obtain ⟨hmem, hnone⟩ := List.mem_filter.mp hentry
    obtain rfl : taken = none := Option.isNone_iff_eq_none.mp hnone
    exact List.mem_iff_getElem?.mp hmem
  · intro hentry
    exact ⟨(job, none), List.mem_filter.mpr ⟨List.mem_iff_getElem?.mpr hentry, rfl⟩, rfl⟩

/-- **Jobs that keep apart keep clear of each other in a run.** -/
theorem clear_of_keepApart (h : KeepApart jobs d) : (CopyBatch.of jobs).Clear d := by
  intro i j plan other hne hplan hother
  obtain ⟨job, hjob, hjobPlan⟩ := freePlan?_of.mp hplan
  obtain ⟨job', hjob', hjobPlan'⟩ := freePlan?_of.mp hother
  -- the jobs are kept apart in pairs, so the order of the two does not matter
  have hpairs : (withRefusals jobs).Pairwise fun a b =>
      a.2.isNone = true → b.2.isNone = true → a.1.Apart d b.1 := by
    unfold KeepApart freeJobs at h
    rwa [List.pairwise_map, List.pairwise_filter] at h
  rw [List.pairwise_iff_getElem] at hpairs
  obtain ⟨hi, hgeti⟩ := List.getElem?_eq_some_iff.mp hjob
  obtain ⟨hj, hgetj⟩ := List.getElem?_eq_some_iff.mp hjob'
  have hapart : job.KeepsClear d job' := by
    rcases Nat.lt_or_gt_of_ne hne with hless | hless
    · have := hpairs i j hi hj hless
      rw [hgeti, hgetj] at this
      exact (this rfl rfl).1
    · have := hpairs j i hj hi hless
      rw [hgeti, hgetj] at this
      exact (this rfl rfl).2
  exact hapart plan other hjobPlan hjobPlan'

/-! ### The end of a run -/

/-- How a job ends alone, if it is not refused. -/
def resultAlone? (tools : CopyTools) (now : Moment) (w : Workshop) :
    CopyJob × Option Path → Option CopyResult
  | (_, some dest) => some (.error (.destinationTaken dest))
  | (job, none) => (copyFile job tools now w).1

namespace CopyPool

variable {pool : CopyPool} {d₀ : Disk} {results : List CopyResult}

/-- A copy has ended on its course. -/
theorem InOrder.ended (h : pool.InOrder (.of jobs) d₀) (hr : pool.results? = some results)
    {plan : CopyPlan} (hplan : (CopyBatch.of jobs).freePlan? i = some plan) :
    ∃ result, results[i]? = some result ∧ plan.OnCourse d₀ pool.shop.disk (.ended result) := by
  obtain ⟨job, hentry, -⟩ := freePlan?_of.mp hplan
  obtain ⟨hlt, -⟩ := List.getElem?_eq_some_iff.mp (getElem?_withRefusals.mp hentry).1
  obtain ⟨result, hget, worker, hworker, hmem⟩ := h.counted.exists_noted hr hlt
  exact ⟨result, hget, ((h.follows i plan hplan).workers worker hworker).noted result hmem⟩

theorem InOrder.copiesDone (h : pool.InOrder (.of jobs) d₀) (hr : pool.results? = some results) :
    CopiesDone (freeJobs jobs) d₀ pool.shop.disk where
  ended job hjob plan hplan := by
    obtain ⟨i, hentry⟩ := mem_freeJobs.mp hjob
    obtain ⟨result, -, hended⟩ := h.ended hr (freePlan?_of.mpr ⟨job, hentry, hplan⟩)
    exact ⟨result, hended⟩
  unwritten := by
    refine h.unwritten.mono fun q ⟨i, plan, hplan, hq⟩ => ?_
    obtain ⟨job, hentry, hplan'⟩ := freePlan?_of.mp hplan
    exact ⟨job, mem_freeJobs.mpr ⟨i, hentry⟩, plan, hplan', hq⟩

variable {board : Dashboard}

/-- A job has the result that it has alone. -/
theorem InOrder.getElem?_results (h : pool.InOrder (.of jobs) d₀)
    (hr : pool.results? = some results) (tools : CopyTools) (now : Moment)
    (hflow : board.flow? = some .go) {job : CopyJob} {taken : Option Path}
    (hentry : (withRefusals jobs)[i]? = some (job, taken)) :
    results[i]? = resultAlone? tools now ⟨board, d₀⟩ (job, taken) := by
  obtain ⟨hjob, hrefusal⟩ := getElem?_withRefusals.mp hentry
  obtain ⟨hlt, -⟩ := List.getElem?_eq_some_iff.mp hjob
  obtain ⟨result, hget, worker, hworker, hmem⟩ := h.counted.exists_noted hr hlt
  have hturned := h.turned worker hworker i result hmem
  -- the job was refused, has no name, or was copied as foretold
  cases taken with
  | some dest => rw [hget, hturned.1 dest hrefusal, resultAlone?]
  | none =>
    rw [resultAlone?]
    cases hplan : job.plan? with
    | none => rw [hget, hturned.2 job hrefusal hjob hplan, copyFile, hplan]
    | some plan =>
      obtain ⟨result, hget, hended⟩ := h.ended hr (freePlan?_of.mpr ⟨job, hentry, hplan⟩)
      have hends := (CopyPlan.copyFile_onCourse (w := ⟨board, d₀⟩) hplan tools now
        (plan.onCourse_opening d₀) hflow).1
      rw [hget, hends, ← hended.ending]
      rfl

theorem InOrder.map_results (h : pool.InOrder (.of jobs) d₀) (hr : pool.results? = some results)
    (tools : CopyTools) (now : Moment) (hflow : board.flow? = some .go) :
    results.map some = (withRefusals jobs).map (resultAlone? tools now ⟨board, d₀⟩) := by
  have hlen : results.length = (withRefusals jobs).length :=
    (h.counted.length_results hr).trans (length_withRefusals jobs).symm
  refine List.ext_getElem (by rw [List.length_map, List.length_map, hlen]) fun i hi hi' => ?_
  rw [List.length_map] at hi hi'
  have hentry : (withRefusals jobs)[i]? = some (withRefusals jobs)[i] := List.getElem?_eq_getElem hi'
  rw [List.getElem_map, List.getElem_map]
  exact (List.getElem?_eq_getElem hi).symm.trans (h.getElem?_results hr tools now hflow hentry)

end CopyPool

/-- **Side by side is one by one.**  The jobs that are not refused keep apart, no failure
strikes but those that the disk makes, and nobody cancels the run.  Then, with any number of
workers, any size of the pieces and any order of the steps:

* when there are results, there is one for each job.  It is the one that the job has when it
  is done alone on the disk as it was, or that its destination is taken; and the disk is the
  one after the jobs that are not refused have been done one after the other;
* the workers take no more steps than there are in the jobs, whatever happens between them,
  except where they have to wait;
* and they do not wait for each other: when all of them have to wait, nothing is paused and
  every job comes to an end alone, there are results. -/
theorem side_by_side_is_one_by_one {maxConcurrent : Nat} {tools : CopyTools}
    {moves : List PoolMove} {w : Workshop} (hapart : KeepApart jobs w.disk)
    (hgoes : (CopyPool.start jobs maxConcurrent w).Goes (.of jobs) tools moves)
    (tools' : CopyTools) (now : Moment) {board : Dashboard} (hflow : board.flow? = some .go) :
    let pool := copyAllDuring jobs maxConcurrent tools moves w
    let alone : Workshop := ⟨board, w.disk⟩
    (∀ results, pool.results? = some results →
      results.length = jobs.length ∧
      results.map some = (withRefusals jobs).map (resultAlone? tools' now alone) ∧
      ∀ place, pool.shop.disk.nodeAt place =
        (copyInTurn tools' now (freeJobs jobs) alone).disk.nodeAt place) ∧
    (CopyPool.start jobs maxConcurrent w).work (.of jobs) tools moves ≤
      CopyPool.workerCount jobs.length maxConcurrent + (jobs.map (copySteps w.disk)).sum ∧
    (pool.shop.board.flow? = some .go → (∀ k, pool.rests k = true) →
      (∀ job ∈ freeJobs jobs, (copyFile job tools' now alone).1 ≠ none) →
      pool.results?.isSome = true) := by
  intro pool alone
  have hclear := clear_of_keepApart hapart
  have hstart := CopyPool.inOrder_start jobs maxConcurrent w
  have h : pool.InOrder (.of jobs) w.disk := CopyPool.inOrder_run hclear tools moves _ hstart hgoes
  refine ⟨fun results hr => ⟨h.counted.length_results hr, h.map_results hr tools' now hflow, ?_⟩,
    ?_, fun hgo hrests hends => ?_⟩
  · -- both disks are the one on which the jobs are done
    have hturn : CopiesDone (freeJobs jobs) w.disk
        (copyInTurn tools' now (freeJobs jobs) alone).disk := by
      refine copyInTurn_done tools' now w.disk (freeJobs jobs) [] alone hapart ?_
        (copiesDone_nil w.disk) hflow
      intro job hjob plan hplan
      obtain ⟨result, hended⟩ := (h.copiesDone hr).ended job hjob plan hplan
      exact ⟨plan.onCourse_opening w.disk, result, hended.ending.symm⟩
    exact (h.copiesDone hr).nodeAt_eq hturn
  · have hwork := CopyPool.work_add_load_le hclear tools moves _ hstart hgoes
    rw [CopyPool.load_start] at hwork
    exact Nat.le_trans (Nat.le_add_right _ _) hwork
  · refine CopyPool.results?_of_rests h hgo (fun i plan hplan => ?_) hrests
    obtain ⟨job, hentry, hjob⟩ := freePlan?_of.mp hplan
    have hend := (CopyPlan.copyFile_onCourse (w := alone) hjob tools' now
      (plan.onCourse_opening w.disk) hflow).1
    exact hend ▸ hends job (mem_freeJobs.mpr ⟨i, hentry⟩)

/-- Steps of two workers, the second of which takes two at a time. -/
def turns : Nat → List PoolMove
  | 0 => []
  | n + 1 => .worker 0 { now := n } :: .worker 1 { now := n } :: .worker 1 { now := n } :: turns n

theorem worker_of_mem_turns (n : Nat) :
    ∀ move ∈ turns n, ∃ k turn, move = .worker k turn ∧ turn.fault = none := by
  induction n with
  | zero => exact fun move hmove => absurd hmove List.not_mem_nil
  | succ n ih =>
    intro move hmove
    simp only [turns, List.mem_cons] at hmove
    rcases hmove with rfl | rfl | rfl | hmove
    · exact ⟨0, _, rfl, rfl⟩
    · exact ⟨1, _, rfl, rfl⟩
    · exact ⟨1, _, rfl, rfl⟩
    · exact ih move hmove

/-- Two workers and three jobs, the last of which is refused.  The files are those of the
copies one after the other, which move smaller pieces. -/
theorem two_workers_copy_as_one :
    let jobs := [jobOut ⟨"in/a"⟩, jobOut ⟨"in/b"⟩, jobOut ⟨"in/a"⟩]
    let pool := copyAllDuring jobs 2 { bufferBytes := 4 } (turns 30) threeFiles
    pool.results? = some [.ok (.completed ⟨"out/a"⟩), .ok (.completed ⟨"out/b"⟩),
      .error (.destinationTaken ⟨"out/a"⟩)] ∧
    (copyInTurn { bufferBytes := 1 } 0 (freeJobs jobs) threeFiles).disk.nodeAt ["out", "b"] =
      some (.file #[3]) := by
  intro jobs pool
  have hr := pool.results?_of_sorted
      [(0, .ok (.completed ⟨"out/a"⟩)), (1, .ok (.completed ⟨"out/b"⟩)),
        (2, .error (.destinationTaken ⟨"out/a"⟩))]
      (by decide +kernel) (by decide +kernel) (by decide)
  have hapart : KeepApart jobs threeFiles.disk := by decide +kernel
  have hgoes := CopyPool.goes_of_workers (.of jobs) { bufferBytes := 4 } (turns 30)
    (.start jobs 2 threeFiles) rfl (worker_of_mem_turns 30)
  obtain ⟨hreport, -, -⟩ := side_by_side_is_one_by_one hapart hgoes { bufferBytes := 1 } 0
    (show threeFiles.board.flow? = some .go from rfl)
  refine ⟨hr, ((hreport _ hr).2.2 ["out", "b"]).symm.trans ?_⟩
  decide +kernel

end TransferBoard
