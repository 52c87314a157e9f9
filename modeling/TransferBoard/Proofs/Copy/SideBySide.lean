import TransferBoard.Proofs.Copy.Progress

/-!
# Copies side by side

Copies run side by side and write to one directory.  A copy is not disturbed by another
one that writes to its places at other times: before it has made its temporary file, or
before it has got its name.  So it is enough that at no moment two of them have a file at
one place.

## Main definitions

* `CopyPool.Collides` — a job has its name while the job that has this name as its
  temporary name has its temporary file.
* `CopyPool.Undisturbed` — a job does not collide with another one, and its source is not
  written to.
* `Worker.Bears`, `CopyPool.Tracks` — the invariant for one job of a run: what its copy
  needs of the disk is there, and so is its file once it has its name.

## Main results

* `tracks_run` — every run in which the job is undisturbed keeps the invariant.
* `reported_is_there` — if such a job is reported as complete, its file is at its
  destination with the bytes of its source.
-/

namespace TransferBoard

open Disk (SameDirs)

variable {batch : CopyBatch} {tools : CopyTools} {d₀ d d' : Disk} {pool : CopyPool} {i : Nat}
  {plan : CopyPlan}

namespace CopyPool

/-- The first job has its name, which is the temporary name of the second one, and the
second one has its temporary file. -/
def Collides (batch : CopyBatch) (pool : CopyPool) (i j : Nat) : Prop :=
  batch.NamedLikeTemp i j ∧ pool.Named i ∧ pool.Open j

/-- No other copy makes its temporary file over that of a job, over its temporary file or
over its source. -/
structure Undisturbed (batch : CopyBatch) (d₀ : Disk) (i : Nat) (pool : CopyPool) : Prop where
  /-- No temporary file is where the copy is. -/
  target : ∀ j, ¬ pool.Collides batch i j
  /-- No other copy is where the temporary file is. -/
  temp : ∀ j, ¬ pool.Collides batch j i
  /-- No temporary file is where the source is. -/
  source : ∀ j plan other q, batch.plan? i = some plan → batch.plan? j = some other →
    d₀.resolve plan.job.source = .ok q → d₀.resolve other.temp = .ok q → ¬ pool.Open j

end CopyPool

/-! ### One job among others -/

/-- What the worker needs of the disk for a job is there, and so is what it has reported. -/
structure Worker.Bears (plan : CopyPlan) (d₀ d : Disk) (i : Nat) (worker : Worker) : Prop where
  /-- The source of a job that has been taken is as it was. -/
  taken : worker.task = .taken i → d.at? plan.job.source = d₀.at? plan.job.source
  /-- What the copy needs is there. -/
  copying : ∀ plan' stage, worker.task = .copying i plan' stage → plan.Bears d₀ d stage
  /-- A copy that was reported as complete is there. -/
  noted : ∀ p, (i, .ok (.completed p)) ∈ worker.results → plan.There d₀ d

theorem Worker.bears_of_notMem {worker : Worker} (h : i ∉ worker.claims) :
    worker.Bears plan d₀ d i where
  taken htask := absurd (Worker.mem_claims_of_task (by rw [htask]; rfl)) h
  copying _ _ htask := absurd (Worker.mem_claims_of_task (by rw [htask]; rfl)) h
  noted _ hmem := absurd (Worker.mem_claims_of_result hmem) h

theorem Worker.Bears.elsewhere {worker : Worker} (h : worker.Bears plan d₀ d i)
    (hdirs : SameDirs d d')
    (hs : d'.at? plan.job.source = d.at? plan.job.source)
    (htemp : worker.IsIn CopyStage.isOpen i → d'.at? plan.temp = d.at? plan.temp)
    (htarget : worker.IsIn CopyStage.isNamed i → d'.at? plan.target = d.at? plan.target) :
    worker.Bears plan d₀ d' i where
  taken htask := hs.trans (h.taken htask)
  copying plan' stage htask :=
    (h.copying plan' stage htask).elsewhere hdirs hs
      (fun hopen => htemp (.inl ⟨_, _, htask, hopen⟩))
      fun hnamed => htarget (.inl ⟨_, _, htask, hnamed⟩)
  noted p hmem := by
    obtain ⟨bytes, hbytes, hthere⟩ := h.noted p hmem
    exact ⟨bytes, hbytes, (htarget (.inr ⟨_, hmem, rfl⟩)).trans hthere⟩

namespace CopyPool

/-- What the job needs of the disk is there, and so is its file once it has its name. -/
structure Tracks (batch : CopyBatch) (d₀ : Disk) (i : Nat) (plan : CopyPlan) (pool : CopyPool) :
    Prop where
  /-- No job is taken twice. -/
  counted : pool.Counted batch
  /-- The copies are where their plans say. -/
  located : pool.Located batch d₀
  /-- The source of a job that has not been taken is as it was. -/
  untaken : pool.next ≤ i → pool.shop.disk.at? plan.job.source = d₀.at? plan.job.source
  /-- What the workers need is there. -/
  workers : ∀ worker ∈ pool.workers, worker.Bears plan d₀ pool.shop.disk i

theorem tracks_start (jobs : List CopyJob) (maxConcurrent : Nat) (shop : Workshop) (i : Nat)
    (plan : CopyPlan) : (start jobs maxConcurrent shop).Tracks (.of jobs) shop.disk i plan where
  counted := counted_start jobs maxConcurrent shop
  located := located_start jobs maxConcurrent shop
  untaken _ := rfl
  workers worker hworker := by
    rw [List.eq_of_mem_replicate hworker]
    exact Worker.bears_of_notMem List.not_mem_nil

/-- A change of one worker that leaves the disk as it is. -/
theorem Tracks.set (h : pool.Tracks batch d₀ i plan) {k next : Nat} {worker : Worker}
    (hc : (CopyPool.mk (pool.workers.set k worker) next pool.shop).Counted batch)
    (hl : (CopyPool.mk (pool.workers.set k worker) next pool.shop).Located batch d₀)
    (hnext : pool.next ≤ next) (hworker : worker.Bears plan d₀ pool.shop.disk i) :
    (CopyPool.mk (pool.workers.set k worker) next pool.shop).Tracks batch d₀ i plan where
  counted := hc
  located := hl
  untaken hi := h.untaken (Nat.le_trans hnext hi)
  workers other hother := by
    rcases List.mem_or_eq_of_mem_set hother with hmem | rfl
    · exact h.workers other hmem
    · exact hworker

variable {turn : Turn} {k index : Nat} {worker : Worker} {other : CopyPlan} {stage : CopyStage}

/-- A step of the copy of the job keeps what it needs. -/
theorem Tracks.own (h : pool.Tracks batch d₀ i plan) (hplan : batch.plan? i = some plan)
    (hk : pool.workers[k]? = some worker) (htask : worker.task = .copying i other stage)
    (hc : (pool.stepped tools turn k worker i other stage).Counted batch)
    (hl : (pool.stepped tools turn k worker i other stage).Located batch d₀) :
    (pool.stepped tools turn k worker i other stage).Tracks batch d₀ i plan := by
  have hworker := List.mem_of_getElem? hk
  have hindex : worker.task.index? = some i := by rw [htask]; rfl
  have hclaim := Worker.mem_claims_of_task hindex
  obtain ⟨hother, -⟩ := (h.located.workers worker hworker).placed _ _ _ htask
  obtain rfl := Option.some.inj (hplan.symm.trans hother)
  have hp := (CopyBatch.plan?_eq_some hplan).1
  refine ⟨hc, hl, ?_, ?_⟩
  · intro hi
    exact absurd (h.counted.lt_next hworker hclaim) (Nat.not_lt_of_le hi)
  · intro worker' hworker'
    rcases h.counted.notMem_claims_of_mem_set hk hclaim hworker' with rfl | hnot
    · -- the worker itself, which has not reported the job
      refine ⟨?_, ?_, fun p hmem => ?_⟩
      · rintro ⟨⟩
      · rintro plan' stage' ⟨⟩
        exact CopyPlan.bears_step hp tools turn ((h.workers worker hworker).copying _ _ htask)
      · exact absurd hmem (h.counted.notMem_results hworker hindex _)
    · exact Worker.bears_of_notMem hnot

/-- A step of another copy that does not collide with the job leaves it its source, and
its file while it has one. -/
theorem Undisturbed.stays (hu : pool.Undisturbed batch d₀ i)
    (hu' : (pool.stepped tools turn k worker index other stage).Undisturbed batch d₀ i)
    (hl : pool.Located batch d₀) (hplan : batch.plan? i = some plan) (hdistinct : batch.Distinct)
    (hk : pool.workers[k]? = some worker) (htask : worker.task = .copying index other stage)
    (hne : index ≠ i) :
    let pool' := pool.stepped tools turn k worker index other stage
    pool'.shop.disk.at? plan.job.source = pool.shop.disk.at? plan.job.source ∧
      (pool'.Open i → pool'.shop.disk.at? plan.temp = pool.shop.disk.at? plan.temp) ∧
      (pool.Named i → pool'.Named i →
        pool'.shop.disk.at? plan.target = pool.shop.disk.at? plan.target) := by
  intro pool'
  have hworker := List.mem_of_getElem? hk
  obtain ⟨hother, hat⟩ := (hl.workers worker hworker).placed _ _ _ htask
  have hp := (CopyBatch.plan?_eq_some hplan).1
  have ho := (CopyBatch.plan?_eq_some hother).1
  have hd := (CopyPlan.placed_step ho tools turn hat).2
  have hname := hdistinct i index plan other hplan hother (Ne.symm hne)
  -- the phases of the other job before the step and after it
  have hbefore : ∀ {phase}, phase stage = true → pool.IsIn phase index :=
    fun hphase => ⟨worker, hworker, .inl ⟨_, _, htask, hphase⟩⟩
  have hafter : ∀ {phase}, phase (other.step tools turn pool.shop stage).1 = true →
      pool'.IsIn phase index := by
    intro phase hphase
    obtain ⟨hlt, -⟩ := List.getElem?_eq_some_iff.mp hk
    exact ⟨_, List.mem_set hlt _, .inl ⟨_, _, rfl, hphase⟩⟩
  refine ⟨?_, fun hopen => ?_, fun hnamed hnamed' => ?_⟩
  · refine hd.at? fun q hq hw => ?_
    have hq₀ := (Disk.resolve_congr hl.dirs).mpr hq
    rcases hw with ⟨htemp, hopen | hopen⟩ | ⟨htarget, -⟩
    · exact hu.source index plan other q hplan hother hq₀ htemp (hbefore hopen)
    · exact hu'.source index plan other q hplan hother hq₀ htemp (hafter hopen)
    · obtain ⟨parent, rfl⟩ := hp.source_place hq
      obtain ⟨parent', heq⟩ := ho.target_place htarget
      exact hname (name_eq_of_place_eq heq)
  · refine hd.at? fun q hq hw => ?_
    obtain ⟨parent, rfl⟩ := hp.temp_place hq
    rcases hw.name ho with ⟨heq, -⟩ | ⟨heq, hnamed⟩
    · exact hname (append_tempSuffix_inj heq)
    · exact hu'.temp index ⟨⟨other, plan, hother, hplan, heq.symm⟩, hafter hnamed, hopen⟩
  · refine hd.at? fun q hq hw => ?_
    obtain ⟨parent, rfl⟩ := hp.target_place hq
    rcases hw.name ho with ⟨heq, hopen | hopen⟩ | ⟨heq, -⟩
    · exact hu.target index ⟨⟨plan, other, hplan, hother, heq⟩, hnamed, hbefore hopen⟩
    · exact hu'.target index ⟨⟨plan, other, hplan, hother, heq⟩, hnamed', hafter hopen⟩
    · exact hname heq

/-- A step of another copy leaves the job what it needs. -/
theorem Tracks.elsewhere (h : pool.Tracks batch d₀ i plan) (hplan : batch.plan? i = some plan)
    (hdistinct : batch.Distinct) (hk : pool.workers[k]? = some worker)
    (htask : worker.task = .copying index other stage) (hne : index ≠ i)
    (hu : pool.Undisturbed batch d₀ i)
    (hu' : (pool.stepped tools turn k worker index other stage).Undisturbed batch d₀ i)
    (hc : (pool.stepped tools turn k worker index other stage).Counted batch)
    (hl : (pool.stepped tools turn k worker index other stage).Located batch d₀) :
    (pool.stepped tools turn k worker index other stage).Tracks batch d₀ i plan := by
  have hworker := List.mem_of_getElem? hk
  obtain ⟨hother, hat⟩ := (h.located.workers worker hworker).placed _ _ _ htask
  have hd := (CopyPlan.placed_step (CopyBatch.plan?_eq_some hother).1 tools turn hat).2
  obtain ⟨hs, htemp, htarget⟩ := hu.stays hu' h.located hplan hdistinct hk htask hne
  refine ⟨hc, hl, fun hi => hs.trans (h.untaken hi), fun worker' hworker' => ?_⟩
  -- what the worker knows of the job it knew before
  obtain ⟨hbears, hin⟩ : worker'.Bears plan d₀ pool.shop.disk i ∧
      (worker'.IsIn CopyStage.isNamed i → pool.Named i) := by
    rcases List.mem_or_eq_of_mem_set hworker' with hmem | rfl
    · exact ⟨h.workers worker' hmem, fun hin => ⟨worker', hmem, hin⟩⟩
    · refine ⟨⟨fun h => (nomatch h), ?_, (h.workers worker hworker).noted⟩, ?_⟩
      · rintro plan' stage' ⟨⟩
        exact absurd rfl hne
      · rintro (⟨_, _, ⟨⟩, _⟩ | hresult)
        · exact absurd rfl hne
        · exact ⟨worker, hworker, .inr hresult⟩
  exact hbears.elsewhere hd.dirs hs (fun hopen => htemp ⟨worker', hworker', hopen⟩)
    fun hnamed => htarget (hin hnamed) ⟨worker', hworker', hnamed⟩

theorem tracks_step (h : pool.Tracks batch d₀ i plan) (hplan : batch.plan? i = some plan)
    (hdistinct : batch.Distinct) (tools : CopyTools) (turn : Turn) (k : Nat)
    (hu : pool.Undisturbed batch d₀ i)
    (hu' : (pool.step batch tools turn k).Undisturbed batch d₀ i) :
    (pool.step batch tools turn k).Tracks batch d₀ i plan := by
  have hc := counted_step h.counted tools turn k
  have hl := located_step h.located tools turn k
  rcases step_cases batch tools turn pool k with
    hsame | ⟨worker, worker', next, shop, hk, hchange, hstep⟩
  · exact hsame.symm ▸ h
  have hbears := h.workers worker (List.mem_of_getElem? hk)
  rw [hstep] at hc hl hu' ⊢
  cases hchange with
  | take htask hmore =>
    refine h.set hc hl (Nat.le_succ _) ⟨?_, fun _ _ h => (nomatch h), hbears.noted⟩
    rintro ⟨⟩
    exact h.untaken (Nat.le_refl _)
  | leave htask hnone =>
    exact h.set hc hl (Nat.le_succ _)
      ⟨fun h => (nomatch h), fun _ _ h => (nomatch h), hbears.noted⟩
  | refuse htask hnotDone =>
    refine h.set hc hl (Nat.le_refl _) ⟨fun h => (nomatch h), fun _ _ h => (nomatch h), ?_⟩
    intro p hmem
    rcases List.mem_cons.mp hmem with heq | hmem
    · exact absurd (Prod.mk.inj heq).2.symm (hnotDone p)
    · exact hbears.noted p hmem
  | start htask hfound =>
    -- nothing but the source matters to a copy that starts
    refine h.set hc hl (Nat.le_refl _) ⟨fun h => (nomatch h), ?_, hbears.noted⟩
    rintro plan' stage' ⟨⟩
    exact CopyPlan.bears_opening h.located.dirs (hbears.taken htask)
  | @copy index other stage htask =>
    by_cases hne : index = i
    · subst hne
      exact h.own hplan hk htask hc hl
    · exact h.elsewhere hplan hdistinct hk htask hne hu hu' hc hl
  | note htask =>
    refine h.set hc hl (Nat.le_refl _) ⟨fun h => (nomatch h), fun _ _ h => (nomatch h), ?_⟩
    intro p hmem
    rcases List.mem_cons.mp hmem with heq | hmem
    · obtain ⟨rfl, rfl⟩ := Prod.mk.inj heq
      exact (hbears.copying _ _ htask).there rfl
    · exact hbears.noted p hmem

/-- **A job that no other one collides with is as if it were alone.** -/
theorem tracks_run (hplan : batch.plan? i = some plan) (hdistinct : batch.Distinct)
    (tools : CopyTools) (moves : List PoolMove) :
    ∀ pool : CopyPool, pool.Tracks batch d₀ i plan →
      (∀ past, past <+: moves → (pool.run batch tools past).Undisturbed batch d₀ i) →
      (pool.run batch tools moves).Tracks batch d₀ i plan := by
  induction moves with
  | nil => intro pool h _; exact h
  | cons move moves ih =>
    -- the moments of the rest of the run are moments of the run
    intro pool h hu
    have hnow : pool.Undisturbed batch d₀ i := hu [] List.nil_prefix
    have hlater : ∀ past, past <+: moves →
        ((pool.after batch tools move).run batch tools past).Undisturbed batch d₀ i :=
      fun past hpast => hu (move :: past) (List.cons_prefix_cons.mpr ⟨rfl, hpast⟩)
    refine ih _ ?_ hlater
    cases move with
    | worker k turn =>
      exact tracks_step h hplan hdistinct tools turn k hnow (hlater [] List.nil_prefix)
    | others change =>
      exact ⟨counted_after h.counted tools (.others change),
        located_after h.located tools (.others change), h.untaken, h.workers⟩

section Reported

variable {jobs : List CopyJob} {maxConcurrent : Nat} {moves : List PoolMove} {shop : Workshop}
  {results : List CopyResult} {p : Path}

/-- A job that is reported as complete has a plan, and was to go where it is reported. -/
theorem plan?_of_reported
    (hr : (copyAllDuring jobs maxConcurrent tools moves shop).results? = some results)
    (hi : results[i]? = some (.ok (.completed p))) :
    ∃ plan, (CopyBatch.of jobs).plan? i = some plan ∧ p = plan.target := by
  have hcounted := counted_run (counted_start jobs maxConcurrent shop) tools moves
  have hlocated := located_run (located_start jobs maxConcurrent shop) tools moves
  obtain ⟨worker, hworker, hmem⟩ := (hcounted.getElem?_results hr).mp hi
  exact (hlocated.workers worker hworker).landed i p
    (.inr ⟨_, hmem, CopyStage.landsAt_iff.mpr rfl⟩)

/-- **A copy that is reported as complete is at its destination with the bytes of its
source**, when no other one collides with it. -/
theorem reported_is_there (hdistinct : (CopyBatch.of jobs).Distinct)
    (hplan : (CopyBatch.of jobs).plan? i = some plan)
    (hu : ∀ past, past <+: moves →
      (copyAllDuring jobs maxConcurrent tools past shop).Undisturbed (.of jobs) shop.disk i)
    (hr : (copyAllDuring jobs maxConcurrent tools moves shop).results? = some results)
    (hi : results[i]? = some (.ok (.completed p))) :
    plan.There shop.disk (copyAllDuring jobs maxConcurrent tools moves shop).shop.disk := by
  have h := tracks_run hplan hdistinct tools moves _ (tracks_start jobs maxConcurrent shop i plan)
    hu
  obtain ⟨worker, hworker, hmem⟩ := (h.counted.getElem?_results hr).mp hi
  exact (h.workers worker hworker).noted p hmem

end Reported

end CopyPool
end TransferBoard
