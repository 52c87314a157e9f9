import TransferBoard.Proofs.Copy.Entries
import TransferBoard.Proofs.Copy.Records
import TransferBoard.Proofs.Copy.Reports

/-!
# The books of a run

A copy writes in three places what has become of it: its entry on the dashboard, the files
that are noted as completed, and the result that is reported.  It does so in different steps,
on each of its ways out, while others do the same and the user may ask for the end.  When the
run is over the three agree.

## Main definitions

* `Completes results i p` — the copy of a job is reported as complete at a path.
* `CleanBooks` — the results, the active entries and the files noted agree.

## Main results

* `landed_iff` — the copies that have ended as complete are those that are reported so.
* `run_leaves_clean_books` — **every run leaves clean books**, and jobs that are refused, or not
  started because the end was asked for, leave alone what is shared.
-/

namespace TransferBoard

/-- The copy of the job with a number is reported as complete at a path. -/
def Completes (results : List CopyResult) (i : Nat) (p : Path) : Prop :=
  results[i]? = some (.ok (.completed p))

/-- The books of a run that is over agree.  The dashboard is live as before it, unless it was
torn down in the run: then what was there before is forgotten. -/
structure CleanBooks (jobs : List CopyJob) (before : Dashboard) (pool : CopyPool)
    (results : List CopyResult) : Prop where
  /-- There are as many results as jobs. -/
  length : results.length = jobs.length
  /-- Each of them is the one that a worker has noted for the job at its position. -/
  reported : ∀ i result, results[i]? = some result ↔
    ∃ worker ∈ pool.workers, (i, result) ∈ worker.results
  /-- A complete copy is at the destination of its job, and that is the path to note for it. -/
  placed : ∀ i p, Completes results i p → (jobs[i]?).bind CopyJob.destination? = some p ∧
    (recordAt jobs i).map CompletedFile.path = some p
  /-- Complete copies are at different places. -/
  apart : ∀ i j p q, i ≠ j → Completes results i p → Completes results j q → ¬ p.Same q
  /-- There are as many active entries as before. -/
  active : pool.shop.board.live = before.live →
    pool.shop.board.state.activeCount = before.state.activeCount
  /-- The files noted are those of before and those of the complete copies, each one once, but
  for those that were noted before. -/
  noted : pool.shop.board.live = before.live → ∃ noted : List Nat, noted.Nodup ∧
    pool.shop.board.state.completed.files =
      before.state.completed.files ++ noted.filterMap (recordAt jobs) ∧
    ∀ i, i ∈ noted ↔ ∃ p, Completes results i p ∧ before.state.completed.contains p = false
  /-- One file is noted for each complete copy. -/
  single : pool.shop.board.live = before.live → ∀ i p, Completes results i p →
    (pool.shop.board.state.completed.files.filter fun f => f.path.same p).length = 1
  /-- After a teardown no entry is active, and no file is noted but those of complete copies. -/
  torn : pool.shop.board.live ≠ before.live → pool.shop.board.state.activeCount = 0 ∧
    ∃ noted : List Nat, noted.Nodup ∧
      pool.shop.board.state.completed.files = noted.filterMap (recordAt jobs) ∧
      ∀ i ∈ noted, ∃ p, Completes results i p

namespace CopyPool

variable {jobs : List CopyJob} {d₀ : Disk} {pool : CopyPool} {base : CompletedFiles}
  {noted : List Nat} {whole : Prop} {results : List CopyResult} {i : Nat} {p : Path}

/-- **The copies that have ended as complete are those that are reported so.** -/
theorem landed_iff (hc : pool.Counted (.of jobs)) (hr : pool.results? = some results) :
    pool.Landed i ↔ ∃ p, Completes results i p := by
  obtain ⟨hgone, -⟩ := results?_eq_some hr
  constructor
  · rintro ⟨worker, hworker, hin⟩
    rcases hin with ⟨plan, stage, htask, -⟩ | ⟨result, hmem, hlanded⟩
    · exact nomatch (hgone worker hworker).symm.trans htask
    · obtain ⟨p, rfl⟩ := CopyStage.isLanded_ended.mp hlanded
      exact ⟨p, (hc.getElem?_results hr).mpr ⟨worker, hworker, hmem⟩⟩
  · rintro ⟨p, hp⟩
    obtain ⟨worker, hworker, hmem⟩ := (hc.getElem?_results hr).mp hp
    exact ⟨worker, hworker, .inr ⟨_, hmem, rfl⟩⟩

/-- A complete copy is that of a job that is not refused, at its destination. -/
theorem Admitted.plan_of_completes (h : pool.Admitted (.of jobs) d₀)
    (hc : pool.Counted (.of jobs)) (hr : pool.results? = some results)
    (hp : Completes results i p) :
    ∃ plan, (CopyBatch.of jobs).freePlan? i = some plan ∧ plan.target = p := by
  obtain ⟨plan, hfree⟩ := h.free_of_landed ((landed_iff hc hr).mpr ⟨p, hp⟩)
  obtain ⟨worker, hworker, hmem⟩ := (hc.getElem?_results hr).mp hp
  have hlands : worker.IsIn (CopyStage.landsAt p) i :=
    .inr ⟨_, hmem, CopyStage.landsAt_iff.mpr rfl⟩
  obtain ⟨plan', hplan, rfl⟩ := (h.located.workers worker hworker).landed i p hlands
  obtain rfl := Option.some.inj ((CopyBatch.freePlan?_eq_some.mp hfree).2.symm.trans hplan)
  exact ⟨plan, hfree, rfl⟩

/-- The copies of which files are noted when the run is over. -/
theorem Recorded.mem_iff (h : pool.Recorded jobs d₀ base whole noted) (hwhole : whole)
    (hc : pool.Counted (.of jobs)) (hr : pool.results? = some results) :
    i ∈ noted ↔ ∃ p, Completes results i p ∧ base.contains p = false := by
  constructor
  · intro hi
    obtain ⟨hlanded, hnew⟩ := h.landed i hi
    obtain ⟨p, hp⟩ := (landed_iff hc hr).mp hlanded
    obtain ⟨plan, hfree, rfl⟩ := h.admitted.plan_of_completes hc hr hp
    have hrecord := recordAt_eq (CopyBatch.freePlan?_eq_some.mp hfree).2
    exact ⟨plan.target, hp, hnew plan.record hrecord⟩
  · rintro ⟨p, hp, hnew⟩
    obtain ⟨plan, hfree, rfl⟩ := h.admitted.plan_of_completes hc hr hp
    have hrecord := recordAt_eq (CopyBatch.freePlan?_eq_some.mp hfree).2
    exact h.complete hwhole i ((landed_iff hc hr).mpr ⟨_, hp⟩) plan.record hrecord hnew

/-- The file of a complete copy is noted when the run is over. -/
theorem Recorded.contains_of_completes (h : pool.Recorded jobs d₀ base whole noted)
    (hwhole : whole) (hc : pool.Counted (.of jobs)) (hr : pool.results? = some results)
    (hp : Completes results i p) : pool.shop.board.state.completed.contains p = true := by
  rw [CompletedFiles.contains_iff, h.files]
  cases hbase : base.contains p with
  | true =>
    obtain ⟨f, hf, hsame⟩ := CompletedFiles.contains_iff.mp hbase
    exact ⟨f, List.mem_append_left _ hf, hsame⟩
  | false =>
    have hi : i ∈ noted := (h.mem_iff hwhole hc hr).mpr ⟨p, hp, hbase⟩
    obtain ⟨plan, hfree, rfl⟩ := h.admitted.plan_of_completes hc hr hp
    have hrecord := recordAt_eq (CopyBatch.freePlan?_eq_some.mp hfree).2
    have hmem := List.mem_filterMap.mpr ⟨i, hi, hrecord⟩
    exact ⟨plan.record, List.mem_append_right _ hmem, rfl⟩

/-! ### The end of a run -/

/-- The books agree when the entries are balanced and the files are recorded. -/
theorem cleanBooks {before : Dashboard} (hc : pool.Counted (.of jobs))
    (hr : pool.results? = some results) (hdistinct : pool.shop.board.state.completed.Distinct)
    (hentries : (pool.shop.board.live = before.live → pool.Balanced before.state.activeCount) ∧
      (pool.shop.board.live ≠ before.live → pool.Balanced 0))
    (hrecords : (pool.shop.board.live = before.live →
        ∃ noted, pool.Recorded jobs d₀ before.state.completed True noted) ∧
      (pool.shop.board.live ≠ before.live → ∃ noted, pool.Recorded jobs d₀ {} False noted)) :
    CleanBooks jobs before pool results := by
  obtain ⟨hgone, -⟩ := results?_eq_some hr
  -- the dashboard was torn down in between or not; each of the two has its own records
  have hadmitted : pool.Admitted (.of jobs) d₀ := by
    by_cases hsame : pool.shop.board.live = before.live
    · obtain ⟨noted, hrecorded⟩ := hrecords.1 hsame
      exact hrecorded.admitted
    · obtain ⟨noted, hrecorded⟩ := hrecords.2 hsame
      exact hrecorded.admitted
  constructor
  case length => exact hc.length_results hr
  case reported => exact fun i result => hc.getElem?_results hr
  case placed =>
    intro i p hp
    obtain ⟨plan, hfree, rfl⟩ := hadmitted.plan_of_completes hc hr hp
    have hplan := (CopyBatch.freePlan?_eq_some.mp hfree).2
    obtain ⟨job, hjob, hjobPlan⟩ := Option.bind_eq_some_iff.mp hplan
    obtain ⟨-, -, hdest⟩ := CopyPlan.proper_of_plan? hjobPlan
    rw [recordAt_eq hplan]
    exact ⟨Option.bind_eq_some_iff.mpr ⟨job, hjob, hdest⟩, rfl⟩
  case apart =>
    intro i j p q hne hp hq
    obtain ⟨plan, hfree, rfl⟩ := hadmitted.plan_of_completes hc hr hp
    obtain ⟨other, hfree', rfl⟩ := hadmitted.plan_of_completes hc hr hq
    exact not_same_of_free hfree hfree' hne
  case active =>
    intro hsame
    exact (hentries.1 hsame).activeCount_eq hgone
  case noted =>
    intro hsame
    obtain ⟨noted, hrecorded⟩ := hrecords.1 hsame
    exact ⟨noted, hrecorded.once, hrecorded.files, fun i => hrecorded.mem_iff trivial hc hr⟩
  case single =>
    intro hsame i p hp
    obtain ⟨noted, hrecorded⟩ := hrecords.1 hsame
    -- the record of a completed job is there, and no two records are of one path
    have hcontains := hrecorded.contains_of_completes trivial hc hr hp
    exact CompletedFiles.count_eq_one hdistinct hcontains
  case torn =>
    intro htorn
    obtain ⟨noted, hrecorded⟩ := hrecords.2 htorn
    refine ⟨(hentries.2 htorn).activeCount_eq hgone, noted, hrecorded.once, hrecorded.files, ?_⟩
    intro i hi
    exact (landed_iff hc hr).mp (hrecorded.landed i hi).1

end CopyPool

/-- **Every run leaves clean books.**  Workers copy some jobs with a dashboard that has any
past, in any order of their steps and with any failure in any of them.  No other producer has a
part in it, but keys may be pressed, frames shown and everything torn down in between.

* When there are results, the books agree.
* A job whose destination an earlier one has is reported as refused, and no step for it touches
  the disk or the dashboard.
* When the end has been asked for, a job that is not refused and has not been begun is reported
  as cancelled, and no step for it touches the disk or the dashboard. -/
theorem run_leaves_clean_books (surface : Surface) (interval : Nat) (sections : List BoardSection)
    (disk : Disk) (jobs : List CopyJob) (maxConcurrent : Nat) (tools : CopyTools)
    {moves : List PoolMove} (hmoves : ∀ move ∈ moves, move.MadeOf BoardSection.isOfUser) :
    let w : Workshop := ⟨(Dashboard.fresh surface interval).run sections, disk⟩
    let pool := copyAllDuring jobs maxConcurrent tools moves w
    (∀ results, pool.results? = some results → CleanBooks jobs w.board pool results) ∧
    (∀ i dest, IsTaken jobs i dest →
      (CopyPool.start jobs maxConcurrent w).Spares (.of jobs) tools i moves ∧
      ∀ results, pool.results? = some results →
        results[i]? = some (.error (.destinationTaken dest))) ∧
    ∀ past rest, past ++ rest = moves →
      let asked := copyAllDuring jobs maxConcurrent tools past w
      asked.shop.board.isCancelled = true →
      ∀ i < jobs.length, (∀ dest, ¬ IsTaken jobs i dest) → ¬ asked.Begun i →
        asked.Spares (.of jobs) tools i rest ∧
        ∀ results, pool.results? = some results → results[i]? = some (.ok .cancelled) := by
  intro w pool
  have hcounted : pool.Counted (.of jobs) :=
    CopyPool.counted_run (CopyPool.counted_start jobs maxConcurrent w) tools moves
  refine ⟨fun results hr => ?_, fun i dest htaken => ?_, ?_⟩
  · -- the books of a run that has ended
    have hdetached : w.board.entry? Handle.detached = none :=
      Dashboard.detached_finds_none_run surface interval sections
    have hentries := CopyPool.balanced_run
      (CopyPool.balanced_start jobs maxConcurrent hdetached) (.of jobs) tools hmoves
    have hrecords := CopyPool.recorded_run
      (CopyPool.recorded_start jobs maxConcurrent w True) tools hmoves
    have hdistinct : pool.shop.board.state.completed.Distinct := by
      obtain ⟨sections', hboard⟩ := CopyPool.board_copyAllDuring hmoves jobs maxConcurrent tools
      rw [hboard]
      exact Dashboard.distinct_run surface interval sections'
    exact CopyPool.cleanBooks hcounted hr hdistinct hentries hrecords
  · -- a job whose destination is taken is never begun
    have hrefused : pool.TurnsAway i (.error (.destinationTaken dest)) ∧
        (CopyPool.start jobs maxConcurrent w).Spares (.of jobs) tools i moves :=
      CopyPool.refused_run (refusal?_iff.mpr htaken) tools moves w
    obtain ⟨haway, hspares⟩ := hrefused
    refine ⟨hspares, fun results hr => haway.result_eq hcounted hr ?_⟩
    obtain ⟨job, hjob, -⟩ := Option.bind_eq_some_iff.mp htaken.1
    exact (List.getElem?_eq_some_iff.mp hjob).1
  · -- a job that was not begun when the end was asked for is never begun
    rintro past rest rfl asked hasked i hi hfree hnot
    have hrest : ∀ move ∈ rest, move.MadeOf BoardSection.isOfUser := fun move hmove =>
      hmoves move (List.mem_append_right _ hmove)
    obtain ⟨haway, hspares⟩ := CopyPool.cancelled_run (refusal?_eq_none_iff.mpr hfree) hasked hnot
      hrest tools
    refine ⟨hspares, fun results hr => ?_⟩
    have hpool : pool = asked.run (.of jobs) tools rest := CopyPool.run_append _ _ _ past rest
    rw [← hpool] at haway
    exact haway.result_eq hcounted hr hi

/-- One worker and four jobs: one that is copied, one that is refused, one in the middle of which
the end is asked for, and one that is not started any more.  Another producer has left an active
entry and a file. -/
theorem four_jobs_leave_clean_books :
    let sections : List BoardSection :=
      [.track { name := "x", total := 9 } 0, .register "old" ⟨"old"⟩ none]
    let w : Workshop := ⟨(Dashboard.fresh (Surface.new 80 24) 0).run sections, threeFiles.disk⟩
    let jobs := [jobOut ⟨"in/a"⟩, jobOut ⟨"in/a"⟩, jobOut ⟨"in/b"⟩, jobOut ⟨"in/a.part"⟩]
    let cancel : PoolMove := .others fun d => d.after (.applyKey (.char 'c'))
    let pool := copyAllDuring jobs 1 { bufferBytes := 4 } (steps 34 ++ [cancel] ++ steps 20) w
    ∃ results, pool.results? = some results ∧ Completes results 0 ⟨"out/a"⟩ ∧
      results[1]? = some (.error (.destinationTaken ⟨"out/a"⟩)) ∧
      results[2]? = some (.ok .cancelled) ∧ results[3]? = some (.ok .cancelled) ∧
      w.board.state.activeCount = 1 ∧ pool.shop.board.state.activeCount = 1 ∧
      (pool.shop.board.state.completed.files.filter fun f => f.path.same ⟨"out/a"⟩).length = 1 := by
  intro sections w jobs cancel pool
  have hmoves : ∀ move ∈ steps 34 ++ [cancel] ++ steps 20, move.MadeOf BoardSection.isOfUser := by
    intro move hmove
    rcases List.mem_append.mp hmove with hmove | hmove
    · rcases List.mem_append.mp hmove with hmove | hmove
      · exact madeOf_of_mem_steps _ 34 move hmove
      · rw [List.mem_singleton.mp hmove]
        exact Dashboard.madeOf_after rfl
    · exact madeOf_of_mem_steps _ 20 move hmove
  -- the run is computed once; its books are told by the theorem
  have hr := pool.results?_of_sorted
    [(0, .ok (.completed ⟨"out/a"⟩)), (1, .error (.destinationTaken ⟨"out/a"⟩)),
      (2, .ok .cancelled), (3, .ok .cancelled)]
    (by decide +kernel) (by decide +kernel) (by decide)
  obtain ⟨hbooks, htaken, hcancelled⟩ := run_leaves_clean_books (Surface.new 80 24) 0 sections
    threeFiles.disk jobs 1 { bufferBytes := 4 } hmoves
  have hclean : CleanBooks jobs w.board pool _ := hbooks _ hr
  have hlive : pool.shop.board.live = w.board.live := by decide +kernel
  have hdone : Completes [.ok (.completed ⟨"out/a"⟩), .error (.destinationTaken ⟨"out/a"⟩),
    .ok .cancelled, .ok .cancelled] 0 ⟨"out/a"⟩ := rfl
  have htwice : IsTaken jobs 1 ⟨"out/a"⟩ := refusal?_iff.mp (by decide +kernel)
  have hfree : (CopyBatch.of jobs).refusal? 3 = none := by decide +kernel
  have hlast := (hcancelled (steps 34 ++ [cancel]) (steps 20) rfl (by decide +kernel) 3 (by decide)
    (refusal?_eq_none_iff.mp hfree) (by decide +kernel)).2 _ hr
  have hbefore : w.board.state.activeCount = 1 := by decide +kernel
  exact ⟨_, hr, hdone, (htaken 1 _ htwice).2 _ hr, rfl, hlast, hbefore,
    (hclean.active hlive).trans hbefore, hclean.single hlive 0 _ hdone⟩

end TransferBoard
