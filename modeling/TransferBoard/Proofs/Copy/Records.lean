import TransferBoard.Proofs.Board.Completed
import TransferBoard.Proofs.Copy.Order
import TransferBoard.Proofs.Copy.Refused

/-!
# The records of copies

A copy that ends as complete notes its file first, in one section, and no other step of a copy
notes one.  The destinations of the jobs that are copied are different places.  So the files
noted in a run are those of the copies that have ended as complete, each one once, but for
those that were noted before.

## Main definitions

* `CopyJob.record?`, `recordAt` — what a copy notes of its file.
* `CopyPool.Landed` — the copy of a job has ended as complete.
* `CopyPool.Admitted` — the copies are where their plans say, and no refused job is copied.
* `CopyPool.Recorded` — the invariant: the files noted are those of before and of the copies
  that have ended as complete.

## Main results

* `landed_step_cases` — a step notes the file of a copy and ends the copy, or does neither.
* `recorded_step`, `recorded_run` — every step keeps the invariant, and so does every run.
-/

namespace TransferBoard

/-- What a copy notes of its file. -/
def CopyPlan.record (plan : CopyPlan) : CompletedFile :=
  .expecting plan.name plan.target plan.job.expected

/-- What the copy of a job notes of its file. -/
def CopyJob.record? (job : CopyJob) : Option CompletedFile := job.plan?.map CopyPlan.record

/-- What the copy of the job with a number notes of its file. -/
def recordAt (jobs : List CopyJob) (i : Nat) : Option CompletedFile :=
  (jobs[i]?).bind CopyJob.record?

theorem recordAt_eq {jobs : List CopyJob} {i : Nat} {plan : CopyPlan}
    (h : (CopyBatch.of jobs).plan? i = some plan) : recordAt jobs i = some plan.record := by
  obtain ⟨job, hjob, hplan⟩ := Option.bind_eq_some_iff.mp h
  have hget : jobs[i]? = some job := hjob
  rw [recordAt, hget, Option.bind_some, CopyJob.record?, hplan, Option.map_some]

/-- The copy has ended as complete. -/
def CopyStage.isLanded : CopyStage → Bool
  | ended (.ok (.completed _)) => true
  | _ => false

theorem CopyStage.isLanded_ended {result : CopyResult} :
    (ended result).isLanded = true ↔ ∃ p, result = .ok (.completed p) := by
  cases result with
  | error e => simp [isLanded]
  | ok outcome => cases outcome <;> simp [isLanded]

namespace CopyPlan

variable {tools : CopyTools} {turn : Turn} {w : Workshop} {stage : CopyStage}

/-- A copy ends as complete in the step in which it notes its file. -/
theorem isLanded_step (plan : CopyPlan) (tools : CopyTools) (turn : Turn) (w : Workshop)
    (hne : stage ≠ .registering) :
    (plan.step tools turn w stage).1.isLanded = stage.isLanded := by
  have hnext := plan.next_step tools turn w stage
  generalize (plan.step tools turn w stage).1 = next at hnext ⊢
  cases hnext with
  | registered => exact absurd rfl hne
  | @unstopped run failure => cases failure <;> rfl
  | @shownStop failure => cases failure <;> rfl
  | _ => rfl

/-- No other step notes a file. -/
theorem completed_step (plan : CopyPlan) (tools : CopyTools) (turn : Turn) (w : Workshop)
    (hne : stage ≠ .registering) :
    (plan.step tools turn w stage).2.board.state.completed = w.board.state.completed := by
  rw [board_step]
  cases hsec : plan.boardSection? turn stage with
  | none => rfl
  | some sec =>
    apply Dashboard.completed_after
    · rintro rfl
      exact nomatch setsFlags_boardSection? hsec
    · rintro name path expected rfl
      cases stage <;> first | exact absurd rfl hne | exact nomatch hsec

end CopyPlan

namespace CopyPool

variable {jobs : List CopyJob} {batch : CopyBatch} {tools : CopyTools} {turn : Turn} {d₀ : Disk}
  {pool : CopyPool} {base : CompletedFiles} {noted : List Nat} {whole : Prop} {i k : Nat}

/-- The copy of a job has ended as complete. -/
def Landed (pool : CopyPool) (i : Nat) : Prop := pool.IsIn CopyStage.isLanded i

theorem Landed.step (h : pool.Landed i) (batch : CopyBatch) (tools : CopyTools) (turn : Turn)
    (k : Nat) : (pool.step batch tools turn k).Landed i := by
  refine isIn_step (fun plan turn w stage hstage => ?_) h turn k
  have hne : stage ≠ .registering := by
    rintro rfl
    exact nomatch hstage
  rw [plan.isLanded_step tools turn w hne, hstage]

/-- A copy ends as complete in the step of its worker that notes its file. -/
theorem landed_step_inv {j : Nat} (hj : (pool.step batch tools turn k).Landed j) :
    pool.Landed j ∨ ∃ worker plan, pool.workers[k]? = some worker ∧
      worker.task = .copying j plan .registering := by
  rcases isIn_step_inv rfl (fun _ => rfl) rfl hj with
    hbefore | ⟨worker, plan, stage, hk, htask, hnot, hnow⟩
  · exact .inl hbefore
  · by_cases hne : stage = .registering
    · subst hne
      exact .inr ⟨worker, plan, hk, htask⟩
    · rw [plan.isLanded_step tools turn pool.shop hne, hnot] at hnow
      exact absurd hnow (by simp)

/-- **A step notes the file of a copy and ends that copy as complete, or does neither.** -/
theorem landed_step_cases (batch : CopyBatch) (tools : CopyTools) (turn : Turn) (pool : CopyPool)
    (k : Nat) :
    let pool' := pool.step batch tools turn k
    (pool'.shop.board.state.completed = pool.shop.board.state.completed ∧
      ∀ j, pool'.Landed j → pool.Landed j) ∨
    ∃ worker ∈ pool.workers, ∃ i plan, worker.task = .copying i plan .registering ∧
      pool'.shop.board.state.completed = (pool.shop.board.state.completed.register plan.record).2 ∧
      pool'.Landed i ∧ ∀ j, pool'.Landed j → pool.Landed j ∨ j = i := by
  intro pool'
  by_cases hnotes : ∃ worker i plan, pool.workers[k]? = some worker ∧
      worker.task = .copying i plan .registering
  · obtain ⟨worker, i, plan, hk, htask⟩ := hnotes
    have hlt := (List.getElem?_eq_some_iff.mp hk).1
    have hstep : pool' = pool.stepped tools turn k worker i plan .registering :=
      step_of_copying hk htask rfl
    refine .inr ⟨worker, List.mem_of_getElem? hk, i, plan, htask, ?_, ?_, ?_⟩
    · rw [hstep]
      rfl
    · rw [hstep]
      exact ⟨_, List.mem_set hlt _, .inl ⟨plan, _, rfl, rfl⟩⟩
    · intro j hj
      rcases landed_step_inv hj with hj | ⟨worker', plan', hk', htask'⟩
      · exact .inl hj
      · -- the worker is at one job
        obtain rfl := Option.some.inj (hk.symm.trans hk')
        cases htask.symm.trans htask'
        exact .inr rfl
  · refine .inl ⟨?_, fun j hj => ?_⟩
    · rcases step_cases batch tools turn pool k with
        hsame | ⟨worker, worker', next, shop, hk, hchange, hstep⟩
      · exact congrArg (fun pool => pool.shop.board.state.completed) hsame
      have hcompleted : pool'.shop.board.state.completed = shop.board.state.completed :=
        congrArg (fun pool => pool.shop.board.state.completed) hstep
      rw [hcompleted]
      cases hchange with
      | @copy index plan stage htask =>
        apply plan.completed_step
        rintro rfl
        exact hnotes ⟨worker, index, plan, hk, htask⟩
      | _ => rfl
    · rcases landed_step_inv hj with hj | ⟨worker, plan, hk, htask⟩
      · exact hj
      · exact absurd ⟨worker, j, plan, hk, htask⟩ hnotes

/-! ### Jobs that are copied -/

/-- The copies are where their plans say, and no refused job is copied. -/
structure Admitted (batch : CopyBatch) (d₀ : Disk) (pool : CopyPool) : Prop where
  /-- The copies are where their plans say. -/
  located : pool.Located batch d₀
  /-- Refused jobs are turned away. -/
  refused : ∀ i dest, batch.refusal? i = some dest →
    pool.TurnsAway i (.error (.destinationTaken dest))

theorem admitted_start (jobs : List CopyJob) (maxConcurrent : Nat) (shop : Workshop) :
    (start jobs maxConcurrent shop).Admitted (.of jobs) shop.disk where
  located := located_start jobs maxConcurrent shop
  refused i dest _ := turnsAway_start jobs maxConcurrent shop i (.error (.destinationTaken dest))

theorem admitted_step (h : pool.Admitted batch d₀) (tools : CopyTools) (turn : Turn) (k : Nat) :
    (pool.step batch tools turn k).Admitted batch d₀ where
  located := located_step h.located tools turn k
  refused i dest hrefusal :=
    turnsAway_step (h.refused i dest hrefusal) (beginJob_of_refusal hrefusal pool.shop) tools turn k

theorem Admitted.onBoard (h : pool.Admitted batch d₀) (sec : BoardSection) :
    (pool.onBoard sec).Admitted batch d₀ where
  located := ⟨h.located.dirs, h.located.workers⟩
  refused := h.refused

theorem Admitted.free_of_copying (h : pool.Admitted batch d₀) {worker : Worker}
    (hworker : worker ∈ pool.workers) {plan : CopyPlan} {stage : CopyStage}
    (htask : worker.task = .copying i plan stage) : batch.freePlan? i = some plan := by
  have hplan := ((h.located.workers worker hworker).placed i plan stage htask).1
  have hfree : batch.refusal? i = none := by
    refine Option.eq_none_iff_forall_ne_some.mpr fun dest hrefusal => ?_
    exact (h.refused i dest hrefusal worker hworker).copying plan stage htask
  exact CopyBatch.freePlan?_eq_some.mpr ⟨hfree, hplan⟩

/-- A copy that has ended as complete is that of a job that is not refused. -/
theorem Admitted.free_of_landed (h : pool.Admitted batch d₀) (hi : pool.Landed i) :
    ∃ plan, batch.freePlan? i = some plan := by
  obtain ⟨worker, hworker, hin⟩ := hi
  rcases hin with ⟨plan, stage, htask, -⟩ | ⟨result, hmem, hlanded⟩
  · exact ⟨plan, h.free_of_copying hworker htask⟩
  obtain ⟨p, rfl⟩ := CopyStage.isLanded_ended.mp hlanded
  have hlands : worker.IsIn (CopyStage.landsAt p) i :=
    .inr ⟨_, hmem, CopyStage.landsAt_iff.mpr rfl⟩
  obtain ⟨plan, hplan, -⟩ := (h.located.workers worker hworker).landed i p hlands
  refine ⟨plan, CopyBatch.freePlan?_eq_some.mpr ⟨?_, hplan⟩⟩
  refine Option.eq_none_iff_forall_ne_some.mpr fun dest hrefusal => ?_
  exact nomatch (h.refused i dest hrefusal worker hworker).noted _ hmem

/-! ### The files that are noted -/

/-- The files noted are those of before and those of some copies that have ended as complete,
each one once; of all such copies, if the run is whole. -/
structure Recorded (jobs : List CopyJob) (d₀ : Disk) (base : CompletedFiles) (whole : Prop)
    (noted : List Nat) (pool : CopyPool) : Prop where
  /-- No refused job is copied. -/
  admitted : pool.Admitted (.of jobs) d₀
  /-- The files, in the order in which they were noted. -/
  files : pool.shop.board.state.completed.files = base.files ++ noted.filterMap (recordAt jobs)
  /-- No copy has noted its file twice. -/
  once : noted.Nodup
  /-- A copy that has noted its file has ended as complete, and its file was not noted before. -/
  landed : ∀ i ∈ noted, pool.Landed i ∧
    ∀ f, recordAt jobs i = some f → base.contains f.path = false
  /-- A copy that has ended as complete has noted its file, if it was not noted before. -/
  complete : whole → ∀ i, pool.Landed i → ∀ f, recordAt jobs i = some f →
    base.contains f.path = false → i ∈ noted

theorem recorded_start (jobs : List CopyJob) (maxConcurrent : Nat) (shop : Workshop)
    (whole : Prop) :
    (start jobs maxConcurrent shop).Recorded jobs shop.disk shop.board.state.completed whole [] := by
  refine ⟨admitted_start jobs maxConcurrent shop, (List.append_nil _).symm, .nil, nofun, ?_⟩
  intro _ i hi
  obtain ⟨worker, hworker, hin⟩ := hi
  have hclaim := hin.mem_claims
  rw [List.eq_of_mem_replicate hworker] at hclaim
  exact absurd hclaim List.not_mem_nil

/-- A file that is noted was noted before, or by the one copy whose destination is there. -/
theorem Recorded.noted_of_contains (h : pool.Recorded jobs d₀ base whole noted) {plan : CopyPlan}
    (hplan : (CopyBatch.of jobs).freePlan? i = some plan)
    (hcontains : pool.shop.board.state.completed.contains plan.target = true)
    (hbase : base.contains plan.target = false) : i ∈ noted := by
  obtain ⟨f, hf, hsame⟩ := CompletedFiles.contains_iff.mp hcontains
  rw [h.files, List.mem_append] at hf
  rcases hf with hf | hf
  · exact nomatch hbase.symm.trans (CompletedFiles.contains_iff.mpr ⟨f, hf, hsame⟩)
  · obtain ⟨j, hj, hrecord⟩ := List.mem_filterMap.mp hf
    obtain ⟨other, hother⟩ := h.admitted.free_of_landed (h.landed j hj).1
    have hpath := recordAt_eq (CopyBatch.freePlan?_eq_some.mp hother).2
    obtain rfl := Option.some.inj (hpath.symm.trans hrecord)
    by_cases hne : j = i
    · exact hne ▸ hj
    · exact absurd hsame (not_same_of_free hother hplan hne)

theorem Recorded.base_of_contains (h : pool.Recorded jobs d₀ base whole noted) {p : Path}
    (hnew : pool.shop.board.state.completed.contains p = false) : base.contains p = false := by
  rw [Bool.eq_false_iff] at hnew ⊢
  intro hcontains
  obtain ⟨f, hf, hsame⟩ := CompletedFiles.contains_iff.mp hcontains
  refine hnew (CompletedFiles.contains_iff.mpr ⟨f, ?_, hsame⟩)
  rw [h.files]
  exact List.mem_append_left _ hf

/-- Nothing is noted, because no copy ends as complete or its file is noted already. -/
theorem Recorded.keep {pool' : CopyPool} (h : pool.Recorded jobs d₀ base whole noted)
    (hadmitted : pool'.Admitted (.of jobs) d₀)
    (hsame : pool'.shop.board.state.completed = pool.shop.board.state.completed)
    (hlater : ∀ j, pool.Landed j → pool'.Landed j)
    (hbefore : ∀ j, pool'.Landed j → pool.Landed j ∨
      ∀ f, recordAt jobs j = some f → base.contains f.path = false → j ∈ noted) :
    pool'.Recorded jobs d₀ base whole noted where
  admitted := hadmitted
  files := by
    rw [hsame]
    exact h.files
  once := h.once
  landed j hj := ⟨hlater j (h.landed j hj).1, (h.landed j hj).2⟩
  complete hwhole j hj f hf hbase := by
    rcases hbefore j hj with hj | hnoted
    · exact h.complete hwhole j hj f hf hbase
    · exact hnoted f hf hbase

/-- The file of a copy is noted that ends as complete. -/
theorem Recorded.add {pool' : CopyPool} (h : pool.Recorded jobs d₀ base whole noted)
    (hadmitted : pool'.Admitted (.of jobs) d₀) {f : CompletedFile} (hf : recordAt jobs i = some f)
    (hnew : pool.shop.board.state.completed.contains f.path = false)
    (hadded : pool'.shop.board.state.completed.files = pool.shop.board.state.completed.files ++ [f])
    (hlands : pool'.Landed i) (hlater : ∀ j, pool.Landed j → pool'.Landed j)
    (hbefore : ∀ j, pool'.Landed j → pool.Landed j ∨ j = i) :
    pool'.Recorded jobs d₀ base whole (noted ++ [i]) where
  admitted := hadmitted
  files := by
    rw [hadded, h.files, List.filterMap_append, ← List.append_assoc]
    simp [hf]
  once := by
    -- a job that was noted has its record there, and this one was not there
    have hnot : i ∉ noted := by
      intro hi
      have hmem : f ∈ pool.shop.board.state.completed.files := by
        rw [h.files]
        exact List.mem_append_right _ (List.mem_filterMap.mpr ⟨i, hi, hf⟩)
      have hthere := CompletedFiles.contains_iff.mpr ⟨f, hmem, rfl⟩
      exact absurd (hnew.symm.trans hthere) (by simp)
    rw [List.nodup_append]
    refine ⟨h.once, List.pairwise_singleton _ _, ?_⟩
    intro j hj j' hj' heq
    rw [List.mem_singleton.mp hj'] at heq
    exact hnot (heq ▸ hj)
  landed j hj := by
    rcases List.mem_append.mp hj with hj | hj
    · exact ⟨hlater j (h.landed j hj).1, (h.landed j hj).2⟩
    · rw [List.mem_singleton.mp hj]
      refine ⟨hlands, fun f' hf' => ?_⟩
      obtain rfl := Option.some.inj (hf.symm.trans hf')
      exact h.base_of_contains hnew
  complete hwhole j hj f' hf' hbase := by
    rcases hbefore j hj with hj | rfl
    · exact List.mem_append_left _ (h.complete hwhole j hj f' hf' hbase)
    · exact List.mem_append_right _ (List.mem_singleton_self j)

/-- **A step of a worker keeps the records.** -/
theorem recorded_step (h : pool.Recorded jobs d₀ base whole noted) (tools : CopyTools)
    (turn : Turn) (k : Nat) :
    ∃ noted', (pool.step (.of jobs) tools turn k).Recorded jobs d₀ base whole noted' := by
  have hadmitted := admitted_step h.admitted tools turn k
  have hlater := fun j (hj : pool.Landed j) => hj.step (.of jobs) tools turn k
  rcases landed_step_cases (.of jobs) tools turn pool k with
    ⟨hsame, hbefore⟩ | ⟨worker, hworker, i, plan, htask, hregister, hlands, hbefore⟩
  · exact ⟨noted, h.keep hadmitted hsame hlater fun j hj => .inl (hbefore j hj)⟩
  -- the step registers the file of a job that was admitted
  have hfree := h.admitted.free_of_copying hworker htask
  have hrecord := recordAt_eq (CopyBatch.freePlan?_eq_some.mp hfree).2
  cases hcontains : pool.shop.board.state.completed.contains plan.record.path with
  | true =>
    rw [CompletedFiles.register_of_contains hcontains] at hregister
    refine ⟨noted, h.keep hadmitted hregister hlater fun j hj => ?_⟩
    rcases hbefore j hj with hj | rfl
    · exact .inl hj
    · -- the file was there before, either from the start or from a job with the same destination
      right
      intro f hf hbase
      obtain rfl := Option.some.inj (hrecord.symm.trans hf)
      exact h.noted_of_contains hfree hcontains hbase
  | false =>
    rw [CompletedFiles.register_of_not_contains hcontains] at hregister
    have hadded := congrArg CompletedFiles.files hregister
    exact ⟨noted ++ [i], h.add hadmitted hrecord hcontains hadded hlands hlater hbefore⟩

/-- The workers and the user keep the records. -/
theorem isKept_recorded (jobs : List CopyJob) (tools : CopyTools) (d₀ : Disk)
    (base : CompletedFiles) (whole : Prop) :
    IsKept (.of jobs) tools fun pool => ∃ noted, pool.Recorded jobs d₀ base whole noted where
  step _ turn k h := by
    obtain ⟨noted, h⟩ := h
    exact recorded_step h tools turn k
  others pool sec hsec htear h := by
    obtain ⟨noted, h⟩ := h
    have hsame : (pool.onBoard sec).shop.board.state.completed =
        pool.shop.board.state.completed := by
      refine Dashboard.completed_after htear ?_
      rintro name path expected rfl
      exact nomatch hsec
    exact ⟨noted, h.admitted.onBoard sec, hsame ▸ h.files, h.once, h.landed, h.complete⟩

/-- **A run keeps the records**, and a teardown starts new ones. -/
theorem recorded_run (h : pool.Recorded jobs d₀ base True noted) (tools : CopyTools)
    {moves : List PoolMove} (hmoves : ∀ move ∈ moves, move.MadeOf BoardSection.isOfUser) :
    let pool' := pool.run (.of jobs) tools moves
    (pool'.shop.board.live = pool.shop.board.live →
      ∃ noted', pool'.Recorded jobs d₀ base True noted') ∧
    (pool'.shop.board.live ≠ pool.shop.board.live →
      ∃ noted', pool'.Recorded jobs d₀ {} False noted') := by
  refine run_to_teardown (isKept_recorded jobs tools d₀ base True)
    (isKept_recorded jobs tools d₀ {} False) ?_ hmoves ⟨noted, h⟩
  rintro pool hlive ⟨noted, h⟩
  have hboard : (pool.onBoard .teardown).shop.board = pool.shop.board.teardown := rfl
  rw [Dashboard.teardown, if_pos hlive] at hboard
  refine ⟨[], h.admitted.onBoard .teardown, ?_, .nil, ?_, False.elim⟩
  · rw [hboard]
    rfl
  · intro i hi
    exact absurd hi List.not_mem_nil

end CopyPool
end TransferBoard
