import TransferBoard.Proofs.Copy.Names
import TransferBoard.Proofs.Copy.Phases

/-!
# How far the jobs of a run are

The copy of a job passes through its phases in the steps of one worker, and the phase in
which it ends can be told from the result that the worker notes.

## Main definitions

* `Worker.IsIn`, `CopyPool.IsIn` — the copy of a job is in a phase, or has ended in it.
* `CopyPool.Named`, `CopyPool.Open` — the copy of a job has its name; it has its temporary
  file.
* `Worker.Located`, `CopyPool.Located` — the copies of a run are at the places that their
  paths lead to, and have ended at their destinations.

## Main results

* `IsIn.of_copying` — all workers agree on the phase of a job.
* `isIn_step_cases`, `isIn_step` — a job leaves a phase in a step of its copy only, and
  stays in one that no copy leaves.
* `located_run` — every run keeps the copies where they are.
-/

namespace TransferBoard

open Disk (SameDirs)

variable {batch : CopyBatch} {tools : CopyTools} {turn : Turn} {d₀ : Disk} {pool : CopyPool}
  {phase : CopyStage → Bool} {i : Nat}

/-! ### The phase of a job -/

/-- The worker has the copy of a job in a phase, or has seen it end in that phase. -/
def Worker.IsIn (worker : Worker) (phase : CopyStage → Bool) (i : Nat) : Prop :=
  (∃ plan stage, worker.task = .copying i plan stage ∧ phase stage = true) ∨
    ∃ result, (i, result) ∈ worker.results ∧ phase (.ended result) = true

theorem Worker.IsIn.mem_claims {worker : Worker} (h : worker.IsIn phase i) :
    i ∈ worker.claims := by
  rcases h with ⟨plan, stage, htask, -⟩ | ⟨result, hmem, -⟩
  · exact Worker.mem_claims_of_task (by rw [htask]; rfl)
  · exact Worker.mem_claims_of_result hmem

/-- The test whether the worker has the copy of a job in a phase. -/
def Worker.isIn (worker : Worker) (phase : CopyStage → Bool) (i : Nat) : Bool :=
  (match worker.task with
    | .copying index _ stage => index == i && phase stage
    | _ => false) ||
  worker.results.any fun r => r.1 == i && phase (.ended r.2)

theorem Worker.isIn_iff (worker : Worker) (phase : CopyStage → Bool) (i : Nat) :
    worker.isIn phase i = true ↔ worker.IsIn phase i := by
  unfold isIn IsIn
  rw [Bool.or_eq_true, List.any_eq_true]
  refine or_congr ?_ ?_
  · cases worker.task <;> simp [and_assoc]
  · simp

instance (worker : Worker) (phase : CopyStage → Bool) (i : Nat) :
    Decidable (worker.IsIn phase i) :=
  decidable_of_iff _ (worker.isIn_iff phase i)

namespace CopyPool

/-- A worker has the copy of a job in a phase, or has seen it end in that phase. -/
def IsIn (pool : CopyPool) (phase : CopyStage → Bool) (i : Nat) : Prop :=
  ∃ worker ∈ pool.workers, worker.IsIn phase i

/-- The copy of a job has been given its name. -/
def Named (pool : CopyPool) (i : Nat) : Prop := pool.IsIn CopyStage.isNamed i

/-- The copy of a job has its temporary file. -/
def Open (pool : CopyPool) (i : Nat) : Prop := pool.IsIn CopyStage.isOpen i

instance (pool : CopyPool) (i : Nat) : Decidable (pool.Named i) :=
  inferInstanceAs (Decidable (∃ worker ∈ pool.workers, worker.IsIn CopyStage.isNamed i))

instance (pool : CopyPool) (i : Nat) : Decidable (pool.Open i) :=
  inferInstanceAs (Decidable (∃ worker ∈ pool.workers, worker.IsIn CopyStage.isOpen i))

/-- **The workers agree on the phase of a job.** -/
theorem IsIn.of_copying (hc : pool.Counted batch) (hi : pool.IsIn phase i) {worker : Worker}
    (hworker : worker ∈ pool.workers) {plan : CopyPlan} {stage : CopyStage}
    (htask : worker.task = .copying i plan stage) : phase stage = true := by
  have hindex : worker.task.index? = some i := by rw [htask]; rfl
  have hclaim := Worker.mem_claims_of_task hindex
  obtain ⟨other, hother, hin⟩ := hi
  obtain rfl := hc.eq_of_mem_claims hworker hother hclaim hin.mem_claims
  -- one worker has taken the job, and it cannot have done it as long as it is at it
  rcases hin with ⟨plan', stage', htask', hphase⟩ | ⟨result, hmem, -⟩
  · cases htask.symm.trans htask'
    exact hphase
  · exact absurd hmem (hc.notMem_results hworker hindex result)

variable {worker worker' : Worker} {next : Nat} {shop : Workshop}

/-- A job leaves a phase in a step of its copy. -/
theorem Change.isIn_cases (h : Change batch tools turn pool worker worker' next shop)
    (hi : worker.IsIn phase i) :
    worker'.IsIn phase i ∨ ∃ plan stage, worker.task = .copying i plan stage ∧
      phase stage = true ∧ phase (plan.step tools turn pool.shop stage).1 = false ∧
      shop = (plan.step tools turn pool.shop stage).2 := by
  cases h with
  | take htask _ => exact .inl (hi.imp (fun ⟨_, _, ht, _⟩ => nomatch htask.symm.trans ht) id)
  | leave htask _ => exact .inl (hi.imp (fun ⟨_, _, ht, _⟩ => nomatch htask.symm.trans ht) id)
  | start htask _ => exact .inl (hi.imp (fun ⟨_, _, ht, _⟩ => nomatch htask.symm.trans ht) id)
  | refuse htask _ =>
    rcases hi with ⟨_, _, ht, _⟩ | ⟨result, hmem, hended⟩
    · exact nomatch htask.symm.trans ht
    · exact .inl (.inr ⟨result, List.mem_cons_of_mem _ hmem, hended⟩)
  | @copy index plan stage htask =>
    rcases hi with ⟨_, _, ht, hstage⟩ | hresult
    · cases htask.symm.trans ht
      cases hnext : phase (plan.step tools turn pool.shop stage).1 with
      | true => exact .inl (.inl ⟨_, _, rfl, hnext⟩)
      | false => exact .inr ⟨_, _, htask, hstage, hnext, rfl⟩
    · exact .inl (.inr hresult)
  | note htask =>
    -- the phase of the stage in which the copy ends is that of its result
    rcases hi with ⟨_, _, ht, hstage⟩ | ⟨result, hmem, hended⟩
    · cases htask.symm.trans ht
      exact .inl (.inr ⟨_, List.mem_cons_self, hstage⟩)
    · exact .inl (.inr ⟨result, List.mem_cons_of_mem _ hmem, hended⟩)

/-- A job comes to a phase that is not that of a refused job in a step of its copy. -/
theorem Change.isIn_inv (h : Change batch tools turn pool worker worker' next shop)
    (hopening : phase .opening = false) (herror : ∀ e, phase (.ended (.error e)) = false)
    (hcancelled : phase (.ended (.ok .cancelled)) = false) (hi : worker'.IsIn phase i) :
    worker.IsIn phase i ∨ ∃ plan stage, worker.task = .copying i plan stage ∧
      phase stage = false ∧ phase (plan.step tools turn pool.shop stage).1 = true ∧
      shop = (plan.step tools turn pool.shop stage).2 := by
  cases h with
  | take _ _ => exact .inl (hi.imp (fun ⟨_, _, htask, _⟩ => nomatch htask) id)
  | leave _ _ => exact .inl (hi.imp (fun ⟨_, _, htask, _⟩ => nomatch htask) id)
  | refuse _ hnotDone =>
    rcases hi with ⟨_, _, htask, _⟩ | ⟨result, hmem, hended⟩
    · exact nomatch htask
    rcases List.mem_cons.mp hmem with heq | hmem
    · -- a refused job is in the phase of a failure
      obtain ⟨-, rfl⟩ := Prod.mk.inj heq
      cases result with
      | error e => exact absurd (hended.symm.trans (herror e)) (by simp)
      | ok outcome =>
        cases outcome with
        | completed p => exact absurd rfl (hnotDone p)
        | cancelled => exact absurd (hended.symm.trans hcancelled) (by simp)
    · exact .inl (.inr ⟨result, hmem, hended⟩)
  | start _ _ =>
    rcases hi with ⟨plan, stage, htask, hstage⟩ | hresult
    · cases htask
      exact absurd (hstage.symm.trans hopening) (by simp)
    · exact .inl (.inr hresult)
  | @copy index plan stage htask =>
    rcases hi with ⟨_, _, ht, hnext⟩ | hresult
    · cases ht
      cases hstage : phase stage with
      | true => exact .inl (.inl ⟨plan, stage, htask, hstage⟩)
      | false => exact .inr ⟨plan, stage, htask, hstage, hnext, rfl⟩
    · exact .inl (.inr hresult)
  | @note index plan result htask =>
    rcases hi with ⟨_, _, ht, _⟩ | ⟨result', hmem, hended⟩
    · exact nomatch ht
    rcases List.mem_cons.mp hmem with heq | hmem
    · obtain ⟨rfl, rfl⟩ := Prod.mk.inj heq
      exact .inl (.inl ⟨plan, _, htask, hended⟩)
    · exact .inl (.inr ⟨result', hmem, hended⟩)

theorem isIn_step_cases (hi : pool.IsIn phase i) (tools : CopyTools) (turn : Turn) (k : Nat) :
    (pool.step batch tools turn k).IsIn phase i ∨ ∃ worker ∈ pool.workers, ∃ plan stage,
      worker.task = .copying i plan stage ∧ phase stage = true ∧
      phase (plan.step tools turn pool.shop stage).1 = false ∧
      (pool.step batch tools turn k).shop = (plan.step tools turn pool.shop stage).2 := by
  rcases step_cases batch tools turn pool k with
    hsame | ⟨worker, worker', next, shop, hk, hchange, hstep⟩
  · rw [hsame]; exact .inl hi
  rw [hstep]
  obtain ⟨other, hother, hin⟩ := hi
  obtain ⟨k', hk'⟩ := List.mem_iff_getElem?.mp hother
  -- the worker of the job makes the step, or another one
  by_cases hne : k = k'
  · subst hne
    obtain rfl := Option.some.inj (hk.symm.trans hk')
    rcases hchange.isIn_cases hin with hin' | ⟨plan, stage, hleft⟩
    · obtain ⟨hlt, -⟩ := List.getElem?_eq_some_iff.mp hk
      exact .inl ⟨worker', List.mem_set hlt worker', hin'⟩
    · exact .inr ⟨worker, hother, plan, stage, hleft⟩
  · exact .inl ⟨other, List.mem_of_getElem? ((List.getElem?_set_ne hne).trans hk'), hin⟩

/-- A job comes to a phase that is not that of a refused job in a step of its copy. -/
theorem isIn_step_inv (hopening : phase .opening = false)
    (herror : ∀ e, phase (.ended (.error e)) = false)
    (hcancelled : phase (.ended (.ok .cancelled)) = false) {tools : CopyTools} {turn : Turn} {k : Nat}
    (hi : (pool.step batch tools turn k).IsIn phase i) :
    pool.IsIn phase i ∨ ∃ worker plan stage, pool.workers[k]? = some worker ∧
      worker.task = .copying i plan stage ∧ phase stage = false ∧
      phase (plan.step tools turn pool.shop stage).1 = true := by
  rcases step_cases batch tools turn pool k with
    hsame | ⟨worker, worker', next, shop, hk, hchange, hstep⟩
  · rw [hsame] at hi; exact .inl hi
  rw [hstep] at hi
  obtain ⟨other, hother, hin⟩ := hi
  rcases List.mem_or_eq_of_mem_set hother with hmem | rfl
  · exact .inl ⟨other, hmem, hin⟩
  · rcases hchange.isIn_inv hopening herror hcancelled hin with
      hbefore | ⟨plan, stage, htask, hnot, hnow, -⟩
    · exact .inl ⟨worker, List.mem_of_getElem? hk, hbefore⟩
    · exact .inr ⟨worker, plan, stage, hk, htask, hnot, hnow⟩

/-- A job stays in a phase that no copy leaves. -/
theorem isIn_step (hphase : ∀ (plan : CopyPlan) turn w stage, phase stage = true →
      phase (plan.step tools turn w stage).1 = true)
    (hi : pool.IsIn phase i) (turn : Turn) (k : Nat) :
    (pool.step batch tools turn k).IsIn phase i := by
  rcases isIn_step_cases hi tools turn k with hin | ⟨_, -, plan, stage, -, hstage, hleft, -⟩
  · exact hin
  · exact absurd (hleft.symm.trans (hphase plan turn pool.shop stage hstage)) (by simp)

end CopyPool

/-! ### Where the copies of a run are -/

/-- The copy has ended as complete at a path. -/
def CopyStage.landsAt (p : Path) : CopyStage → Bool
  | ended (.ok (.completed q)) => q = p
  | _ => false

theorem CopyStage.landsAt_iff {p : Path} {stage : CopyStage} :
    stage.landsAt p = true ↔ stage = .ended (.ok (.completed p)) := by
  unfold landsAt
  split
  · simp
  · next hne =>
    simp only [Bool.false_eq_true, false_iff]
    exact fun heq => hne p heq

/-- The worker copies by the plan of its job, at the places that the paths of the plan lead
to.  A copy that has its name is at its destination, and that is not a directory. -/
structure Worker.Located (batch : CopyBatch) (d₀ d : Disk) (worker : Worker) : Prop where
  /-- The copy under way is where its plan says. -/
  placed : ∀ i plan stage, worker.task = .copying i plan stage →
    batch.plan? i = some plan ∧ plan.Placed d₀ d stage
  /-- A copy with a name is not at a directory. -/
  named : ∀ i, worker.IsIn CopyStage.isNamed i →
    ∃ plan, batch.plan? i = some plan ∧ d₀.at? plan.target ≠ some .dir
  /-- A copy that has ended as complete is at its destination. -/
  landed : ∀ i p, worker.IsIn (CopyStage.landsAt p) i →
    ∃ plan, batch.plan? i = some plan ∧ p = plan.target

theorem Worker.Located.elsewhere {d d' : Disk} {worker : Worker}
    (h : worker.Located batch d₀ d) (hdirs : SameDirs d d') : worker.Located batch d₀ d' where
  placed i plan stage htask :=
    ⟨(h.placed i plan stage htask).1, (h.placed i plan stage htask).2.elsewhere hdirs⟩
  named := h.named
  landed := h.landed

namespace CopyPool

/-- The copies are at the places that their paths lead to. -/
structure Located (batch : CopyBatch) (d₀ : Disk) (pool : CopyPool) : Prop where
  /-- The directories are the same. -/
  dirs : SameDirs d₀ pool.shop.disk
  /-- Each worker is where its plan says. -/
  workers : ∀ worker ∈ pool.workers, worker.Located batch d₀ pool.shop.disk

theorem located_start (jobs : List CopyJob) (maxConcurrent : Nat) (shop : Workshop) :
    (start jobs maxConcurrent shop).Located (.of jobs) shop.disk where
  dirs := SameDirs.refl _
  workers worker hworker := by
    have hnone : ∀ phase i, ¬ worker.IsIn phase i := by
      intro phase i h
      have := h.mem_claims
      rw [List.eq_of_mem_replicate hworker] at this
      exact absurd this List.not_mem_nil
    refine ⟨?_, fun i h => absurd h (hnone _ i), fun i p h => absurd h (hnone _ i)⟩
    intro i plan stage htask
    rw [List.eq_of_mem_replicate hworker] at htask
    exact absurd htask (by simp)

variable {worker worker' : Worker} {next : Nat} {shop : Workshop}

/-- A change makes no directories, and the worker is where its plan says after it. -/
theorem Change.placed (h : Change batch tools turn pool worker worker' next shop)
    (hdirs : SameDirs d₀ pool.shop.disk) (hw : worker.Located batch d₀ pool.shop.disk) :
    SameDirs pool.shop.disk shop.disk ∧
      ∀ i plan stage, worker'.task = .copying i plan stage →
        batch.plan? i = some plan ∧ plan.Placed d₀ shop.disk stage := by
  have hsame := SameDirs.refl pool.shop.disk
  cases h with
  | take _ _ => exact ⟨hsame, fun _ _ _ h => nomatch h⟩
  | leave _ _ => exact ⟨hsame, fun _ _ _ h => nomatch h⟩
  | refuse _ _ => exact ⟨hsame, fun _ _ _ h => nomatch h⟩
  | note _ => exact ⟨hsame, fun _ _ _ h => nomatch h⟩
  | start _ hfound =>
    refine ⟨hsame, ?_⟩
    rintro i plan stage ⟨⟩
    exact ⟨hfound, CopyPlan.placed_opening _ hdirs⟩
  | copy htask =>
    obtain ⟨hplan, hat⟩ := hw.placed _ _ _ htask
    obtain ⟨hnext, hd⟩ :=
      CopyPlan.placed_step (CopyBatch.plan?_eq_some hplan).1 tools turn hat
    refine ⟨hd.dirs, ?_⟩
    rintro i plan' stage' ⟨⟩
    exact ⟨hplan, hnext⟩

/-- A copy that has got its name is not at a directory. -/
theorem Change.named (h : Change batch tools turn pool worker worker' next shop)
    (hdirs : SameDirs d₀ pool.shop.disk) (hw : worker.Located batch d₀ pool.shop.disk)
    (hi : worker'.IsIn CopyStage.isNamed i) :
    ∃ plan, batch.plan? i = some plan ∧ d₀.at? plan.target ≠ some .dir := by
  rcases h.isIn_inv rfl (fun _ => rfl) rfl hi with hbefore | ⟨plan, stage, htask, hnot, hnow, -⟩
  · exact hw.named i hbefore
  · obtain ⟨hplan, -⟩ := hw.placed i plan stage htask
    obtain ⟨hrename, -⟩ := CopyPlan.renamed_of_isNamed hnot hnow
    obtain ⟨p, q, node, -, -, hq, hnode, -⟩ := Disk.renameFile_eq_ok hrename
    refine ⟨plan, hplan, fun hdir => ?_⟩
    obtain ⟨r, hr, hfound, -⟩ := Disk.at?_eq_some_iff.mp ((Disk.at?_eq_dir_congr hdirs).mp hdir)
    obtain rfl := Except.ok.inj (hq.symm.trans hr)
    exact hnode hfound

/-- A copy that has ended as complete is at its destination. -/
theorem Change.landed (h : Change batch tools turn pool worker worker' next shop)
    (hw : worker.Located batch d₀ pool.shop.disk) {p : Path}
    (hi : worker'.IsIn (CopyStage.landsAt p) i) :
    ∃ plan, batch.plan? i = some plan ∧ p = plan.target := by
  rcases h.isIn_inv rfl (fun _ => rfl) rfl hi with hbefore | ⟨plan, stage, htask, hnot, hnow, -⟩
  · exact hw.landed i p hbefore
  · obtain ⟨hplan, -⟩ := hw.placed i plan stage htask
    rcases CopyPlan.lands_step (CopyStage.landsAt_iff.mp hnow) with heq | htarget
    · exact absurd (CopyStage.landsAt_iff.mpr heq) (by simp [hnot])
    · exact ⟨plan, hplan, htarget⟩

theorem located_step (h : pool.Located batch d₀) (tools : CopyTools) (turn : Turn) (k : Nat) :
    (pool.step batch tools turn k).Located batch d₀ := by
  rcases step_cases batch tools turn pool k with
    hsame | ⟨worker, worker', next, shop, hk, hchange, hstep⟩
  · rw [hsame]; exact h
  have hworker := h.workers worker (List.mem_of_getElem? hk)
  obtain ⟨hdirs, hplaced⟩ := hchange.placed h.dirs hworker
  rw [hstep]
  refine ⟨h.dirs.trans hdirs, fun other hother => ?_⟩
  rcases List.mem_or_eq_of_mem_set hother with hmem | rfl
  · exact (h.workers other hmem).elsewhere hdirs
  · exact ⟨hplaced, fun i => hchange.named h.dirs hworker, fun i p => hchange.landed hworker⟩

theorem located_after (h : pool.Located batch d₀) (tools : CopyTools) (move : PoolMove) :
    (after batch tools pool move).Located batch d₀ := by
  cases move with
  | worker k turn => exact located_step h tools turn k
  | others change => exact ⟨h.dirs, h.workers⟩

/-- **In every run the copies stay at the places that their paths lead to**, and end at
their destinations. -/
theorem located_run (h : pool.Located batch d₀) (tools : CopyTools) (moves : List PoolMove) :
    (pool.run batch tools moves).Located batch d₀ := by
  refine run_induction (fun pool move hpool => ?_) moves pool h
  exact located_after hpool tools move

end CopyPool
end TransferBoard
