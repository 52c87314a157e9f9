import TransferBoard.Proofs.Copy.SideBySide

/-!
# Copies that are taken away

When a job collides with another one, its file and the temporary file of the other one are
the same.  The other job takes it away when it gives its temporary file its own name, or
when it removes it.  Nothing brings it back, and the job is reported as complete.

## Main definitions

* `CopyPool.Overtakes` — the invariant of a run from the moment on at which two jobs
  collide.

## Main results

* `overtakes_run` — every run keeps the invariant.
* `gone_of_collides` — a job that has collided with another one is reported as complete,
  and nothing is at its destination.
-/

namespace TransferBoard
namespace CopyPool

variable {batch : CopyBatch} {tools : CopyTools} {turn : Turn} {d₀ : Disk} {pool : CopyPool}
  {i j : Nat} {named plan : CopyPlan}

/-- The first job has its name, and when the second one has its temporary file no more,
nothing is at the path of that file. -/
structure Overtakes (batch : CopyBatch) (d₀ : Disk) (i j : Nat) (plan : CopyPlan)
    (pool : CopyPool) : Prop where
  /-- No job is taken twice. -/
  counted : pool.Counted batch
  /-- The copies are where their plans say. -/
  located : pool.Located batch d₀
  /-- The first job has its name. -/
  named : pool.Named i
  /-- The second one has made its temporary file. -/
  begun : pool.IsIn CopyStage.isBegun j
  /-- When it has it no more, nothing is there. -/
  gone : ¬ pool.Open j → pool.shop.disk.at? plan.temp = none

/-- The moment at which the two jobs collide. -/
theorem overtakes_of_collides (hc : pool.Counted batch) (hl : pool.Located batch d₀)
    (h : pool.Collides batch i j) : pool.Overtakes batch d₀ i j plan where
  counted := hc
  located := hl
  named := h.2.1
  begun := by
    obtain ⟨worker, hworker, hopen⟩ := h.2.2
    refine ⟨worker, hworker, hopen.imp ?_ ?_⟩
    · rintro ⟨plan', stage, htask, hstage⟩
      exact ⟨plan', stage, htask, CopyStage.isBegun_of_isOpen hstage⟩
    · rintro ⟨result, hmem, hended⟩
      exact ⟨result, hmem, rfl⟩
  gone hopen := absurd h.2.2 hopen

variable {worker worker' : Worker} {next : Nat} {shop : Workshop}

/-- Where nothing is at the path of the temporary file any more, no change puts anything. -/
theorem Overtakes.gone_stays (h : pool.Overtakes batch d₀ i j plan) (hdistinct : batch.Distinct)
    (hplan : batch.plan? j = some plan) (hnamed : batch.plan? i = some named)
    (hname : named.name = plan.name ++ tempSuffix) (hworker : worker ∈ pool.workers)
    (hchange : Change batch tools turn pool worker worker' next shop) (hj : ¬ pool.Open j) :
    shop.disk.at? plan.temp = none := by
  have hgone := h.gone hj
  cases hchange with
  | take _ _ => exact hgone
  | leave _ _ => exact hgone
  | refuse _ _ => exact hgone
  | start _ _ => exact hgone
  | note _ => exact hgone
  | @copy index other stage htask =>
    -- the two jobs write nothing more, and the others write elsewhere
    by_cases hindex : index = i ∨ index = j
    · have hclosed : stage.isClosed = true := by
        rcases hindex with rfl | rfl
        · exact CopyStage.isClosed_of_isNamed (h.named.of_copying h.counted hworker htask)
        · refine CopyStage.isClosed_of_isBegun (h.begun.of_copying h.counted hworker htask) ?_
          rw [Bool.eq_false_iff]
          exact fun hopen => hj ⟨worker, hworker, .inl ⟨_, _, htask, hopen⟩⟩
      rw [(CopyPlan.step_of_isClosed other tools turn pool.shop hclosed).2.2]
      exact hgone
    · rw [not_or] at hindex
      obtain ⟨hother, hat⟩ := (h.located.workers worker hworker).placed index other stage htask
      have hp := (CopyBatch.plan?_eq_some hplan).1
      have ho := (CopyBatch.plan?_eq_some hother).1
      rw [(CopyPlan.placed_step ho tools turn hat).2.at?]
      · exact hgone
      intro q hq hw
      obtain ⟨parent, rfl⟩ := hp.temp_place hq
      rcases hw.name ho with ⟨heq, -⟩ | ⟨heq, -⟩
      · exact hdistinct j index plan other hplan hother (Ne.symm hindex.2)
          (append_tempSuffix_inj heq)
      · exact hdistinct i index named other hnamed hother (Ne.symm hindex.1) (hname.trans heq)

theorem overtakes_step (h : pool.Overtakes batch d₀ i j plan) (hdistinct : batch.Distinct)
    (hplan : batch.plan? j = some plan) (hnamed : batch.plan? i = some named)
    (hname : named.name = plan.name ++ tempSuffix) (hmeet : named.target = plan.temp)
    (tools : CopyTools) (turn : Turn) (k : Nat) :
    (pool.step batch tools turn k).Overtakes batch d₀ i j plan where
  counted := counted_step h.counted tools turn k
  located := located_step h.located tools turn k
  named := isIn_step (fun _ _ _ _ => CopyPlan.isNamed_step) h.named turn k
  begun := isIn_step (fun _ _ _ _ => CopyPlan.isBegun_step) h.begun turn k
  gone hclosed := by
    -- the temporary file is removed in this step, or was gone before it
    by_cases hopen : pool.Open j
    · rcases isIn_step_cases hopen tools turn k with
        hin | ⟨worker, hworker, other, stage, htask, hstage, hleft, hshop⟩
      · exact absurd hin hclosed
      obtain ⟨hother, -⟩ := (h.located.workers worker hworker).placed j other stage htask
      obtain rfl := Option.some.inj (hplan.symm.trans hother)
      have hdir : pool.shop.disk.at? plan.temp ≠ some .dir := by
        obtain ⟨worker, hworker, hin⟩ := h.named
        obtain ⟨named', hnamed', hdir⟩ := (h.located.workers worker hworker).named i hin
        obtain rfl := Option.some.inj (hnamed.symm.trans hnamed')
        rw [← hmeet]
        exact fun heq => hdir ((Disk.at?_eq_dir_congr h.located.dirs).mpr heq)
      rw [hshop]
      exact CopyPlan.gone_of_closes (CopyBatch.plan?_eq_some hplan).1 hdir hstage hleft
    · rcases step_cases batch tools turn pool k with
        hsame | ⟨worker, worker', next, shop, hk, hchange, hstep⟩
      · rw [hsame]; exact h.gone hopen
      · rw [hstep]
        exact h.gone_stays hdistinct hplan hnamed hname (List.mem_of_getElem? hk) hchange hopen

theorem overtakes_run (h : pool.Overtakes batch d₀ i j plan) (hdistinct : batch.Distinct)
    (hplan : batch.plan? j = some plan) (hnamed : batch.plan? i = some named)
    (hname : named.name = plan.name ++ tempSuffix) (hmeet : named.target = plan.temp)
    (tools : CopyTools) (moves : List PoolMove) :
    (pool.run batch tools moves).Overtakes batch d₀ i j plan := by
  refine run_induction (fun pool move h => ?_) moves pool h
  cases move with
  | worker k turn => exact overtakes_step h hdistinct hplan hnamed hname hmeet tools turn k
  | others change =>
    exact ⟨counted_after h.counted tools (.others change),
      located_after h.located tools (.others change), h.named, h.begun, h.gone⟩

/-- **A copy is taken away by one with its name as the temporary name.**  When the two
collide at a moment of a run, the first one is reported as complete, and nothing is at its
destination. -/
theorem gone_of_collides {jobs : List CopyJob} (hdistinct : (CopyBatch.of jobs).Distinct)
    (hplan : (CopyBatch.of jobs).plan? j = some plan)
    (hnamed : (CopyBatch.of jobs).plan? i = some named)
    (hname : named.name = plan.name ++ tempSuffix) (hmeet : named.target = plan.temp)
    (maxConcurrent : Nat) (tools : CopyTools) (past rest : List PoolMove) (shop : Workshop)
    (h : (copyAllDuring jobs maxConcurrent tools past shop).Collides (.of jobs) i j)
    {results : List CopyResult}
    (hr : (copyAllDuring jobs maxConcurrent tools (past ++ rest) shop).results? = some results) :
    results[i]? = some (.ok (.completed named.target)) ∧
      (copyAllDuring jobs maxConcurrent tools (past ++ rest) shop).shop.disk.at? named.target =
        none := by
  have hcounted := counted_run (counted_start jobs maxConcurrent shop) tools past
  have hlocated := located_run (located_start jobs maxConcurrent shop) tools past
  -- from the moment of the collision on the invariant carries the run to its end
  have hend := overtakes_run (overtakes_of_collides hcounted hlocated h) hdistinct hplan hnamed
    hname hmeet tools rest
  rw [copyAllDuring, run_append] at hr ⊢
  have htask := (results?_eq_some hr).1
  refine ⟨?_, ?_⟩
  · obtain ⟨worker, hworker, hin⟩ := hend.named
    rcases hin with ⟨_, _, ht, _⟩ | ⟨result, hmem, hended⟩
    · exact absurd ((htask worker hworker).symm.trans ht) (by simp)
    obtain ⟨p, rfl⟩ := CopyStage.isNamed_ended hended
    obtain ⟨named', hnamed', rfl⟩ := (hend.located.workers worker hworker).landed i p
      (.inr ⟨_, hmem, CopyStage.landsAt_iff.mpr rfl⟩)
    obtain rfl := Option.some.inj (hnamed.symm.trans hnamed')
    exact (hend.counted.getElem?_results hr).mpr ⟨worker, hworker, hmem⟩
  · rw [hmeet]
    refine hend.gone ?_
    rintro ⟨worker, hworker, ⟨_, _, ht, _⟩ | ⟨result, _, hended⟩⟩
    · exact absurd ((htask worker hworker).symm.trans ht) (by simp)
    · exact absurd hended (by simp [CopyStage.isOpen])

end CopyPool
end TransferBoard
