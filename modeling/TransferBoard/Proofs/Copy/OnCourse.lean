import TransferBoard.Proofs.Copy.InTurn
import TransferBoard.Proofs.Copy.SideBySide

/-!
# Copies that do not meet

Copies run side by side, and their jobs keep clear of each other.  Then every copy stays on
course: its own steps keep it there, and the steps of the others do not touch what it
passes.  A job that has not been started has its whole course before it still.

## Main definitions

* `CopyBatch.refusal?` — the destination because of which a job is refused.
* `CopyBatch.Clear` — the jobs that are not refused keep clear of each other.
* `CopyPool.Follows`, `CopyPool.InOrder` — one job is on course; all of them are, and the
  others have been refused.
* `CopyPool.Goes` — a run that is not cancelled, and in which no failure strikes.

## Main results

* `InOrder.own`, `InOrder.elsewhere` — a copy stays on course in its own steps, and in those
  of the others.
* `inOrder_run` — in every run that goes its ordinary way all jobs stay on course.
-/

namespace TransferBoard

open Disk (AgreeOff SameDirs)

namespace CopyBatch

/-- The destination because of which the job with a number is refused. -/
def refusal? (batch : CopyBatch) (index : Nat) : Option Path := (batch.taken[index]?).join

/-- The plan of the job with a number, if it is not refused. -/
def freePlan? (batch : CopyBatch) (index : Nat) : Option CopyPlan :=
  if (batch.refusal? index).isSome then none else batch.plan? index

/-- The jobs that are not refused keep clear of each other. -/
def Clear (batch : CopyBatch) (d : Disk) : Prop :=
  ∀ i j plan other, i ≠ j → batch.freePlan? i = some plan → batch.freePlan? j = some other →
    ∀ q, plan.Overwrites d q → ¬ other.Passes d q

/-- What is noted for a job that is not copied: it is refused, or its copy has no name. -/
def Turned (batch : CopyBatch) (index : Nat) (result : CopyResult) : Prop :=
  (∀ dest, batch.refusal? index = some dest → result = .error (.destinationTaken dest)) ∧
    ∀ job, batch.refusal? index = none → batch.jobs[index]? = some job → job.plan? = none →
      result = .error (.noFileName job.source)

variable {batch : CopyBatch} {i : Nat} {plan : CopyPlan}

theorem freePlan?_eq_some :
    batch.freePlan? i = some plan ↔ batch.refusal? i = none ∧ batch.plan? i = some plan := by
  unfold freePlan?
  cases batch.refusal? i <;> simp

theorem turned_of_free (h : batch.freePlan? i = some plan) (result : CopyResult) :
    batch.Turned i result := by
  obtain ⟨hrefusal, hplan⟩ := freePlan?_eq_some.mp h
  constructor
  · intro dest hdest
    exact absurd (hrefusal.symm.trans hdest) (by simp)
  · intro job _ hjob hnone
    rw [plan?, hjob] at hplan
    exact absurd (hnone.symm.trans hplan) (by simp)

end CopyBatch

variable {batch : CopyBatch} {tools : CopyTools} {turn : Turn} {d₀ d d' : Disk} {pool : CopyPool}
  {i : Nat} {plan : CopyPlan}

theorem Worker.mem_note {worker : Worker} {index : Nat} {result result' : CopyResult} :
    (i, result') ∈ (worker.note index result).results ↔
      i = index ∧ result' = result ∨ (i, result') ∈ worker.results := by
  rw [Worker.note, List.mem_cons, Prod.mk.injEq]

/-- The copies of one job that a worker has or has had are on course. -/
structure Worker.Follows (plan : CopyPlan) (d₀ d : Disk) (i : Nat) (worker : Worker) : Prop where
  /-- The copy under way is. -/
  copying : ∀ plan' stage, worker.task = .copying i plan' stage → plan.OnCourse d₀ d stage
  /-- The copy that has ended was. -/
  noted : ∀ result, (i, result) ∈ worker.results → plan.OnCourse d₀ d (.ended result)

theorem Worker.Follows.elsewhere {worker : Worker} {off : Place → Prop}
    (h : worker.Follows plan d₀ d i) (hd : AgreeOff off d d')
    (hoff : ∀ q, off q → ¬ plan.Passes d₀ q) : worker.Follows plan d₀ d' i where
  copying plan' stage htask := (h.copying plan' stage htask).elsewhere hd hoff
  noted result hmem := (h.noted result hmem).elsewhere hd hoff

theorem Worker.follows_of_notMem {worker : Worker} (h : i ∉ worker.claims) :
    worker.Follows plan d₀ d i where
  copying _ _ htask := absurd (Worker.mem_claims_of_task (by rw [htask]; rfl)) h
  noted _ hmem := absurd (Worker.mem_claims_of_result hmem) h

namespace CopyPool

/-- A worker has started the copy of a job. -/
def Begun (pool : CopyPool) (i : Nat) : Prop := pool.IsIn (fun _ => true) i

instance (pool : CopyPool) (i : Nat) : Decidable (pool.Begun i) :=
  inferInstanceAs (Decidable (∃ worker ∈ pool.workers, worker.IsIn (fun _ => true) i))

/-- The copy of the job is on course, or has its course before it. -/
structure Follows (d₀ : Disk) (i : Nat) (plan : CopyPlan) (pool : CopyPool) : Prop where
  /-- A copy that has been started is on course. -/
  workers : ∀ worker ∈ pool.workers, worker.Follows plan d₀ pool.shop.disk i
  /-- A copy that has not is at its start. -/
  before : ¬ pool.Begun i → plan.OnCourse d₀ pool.shop.disk .opening

/-- The jobs of a run that are not refused are on course, and the others are refused. -/
structure InOrder (batch : CopyBatch) (d₀ : Disk) (pool : CopyPool) : Prop where
  /-- No job is taken twice. -/
  counted : pool.Counted batch
  /-- The copies are where their plans say. -/
  located : pool.Located batch d₀
  /-- Jobs that are not refused are on course. -/
  follows : ∀ i plan, batch.freePlan? i = some plan → pool.Follows d₀ i plan
  /-- No refused job is copied. -/
  free : ∀ worker ∈ pool.workers, ∀ i plan stage, worker.task = .copying i plan stage →
    batch.freePlan? i = some plan
  /-- The other jobs are refused. -/
  turned : ∀ worker ∈ pool.workers, ∀ i result, (i, result) ∈ worker.results →
    batch.Turned i result
  /-- What no copy writes is as it was. -/
  unwritten : AgreeOff (fun q => ∃ i plan, batch.freePlan? i = some plan ∧ plan.WritesAt d₀ q) d₀
    pool.shop.disk

theorem inOrder_start (jobs : List CopyJob) (maxConcurrent : Nat) (shop : Workshop) :
    (start jobs maxConcurrent shop).InOrder (.of jobs) shop.disk where
  counted := counted_start jobs maxConcurrent shop
  located := located_start jobs maxConcurrent shop
  follows i plan _ := by
    refine ⟨fun worker hworker => ?_, fun _ => plan.onCourse_opening _⟩
    rw [List.eq_of_mem_replicate hworker]
    exact Worker.follows_of_notMem List.not_mem_nil
  free worker hworker i plan stage htask := by
    rw [List.eq_of_mem_replicate hworker] at htask
    exact absurd htask (by simp)
  turned worker hworker i result hmem := by
    rw [List.eq_of_mem_replicate hworker] at hmem
    exact absurd hmem List.not_mem_nil
  unwritten := AgreeOff.refl _ _

/-! ### Jobs that are taken -/

variable {k index next : Nat} {worker worker' : Worker} {shop : Workshop}

theorem Counted.lt_length (h : pool.Counted batch) (hw : worker ∈ pool.workers)
    (hi : i ∈ worker.claims) : i < batch.jobs.length := by
  have := h.claimed.mem_iff.mp (List.mem_flatMap.mpr ⟨worker, hw, hi⟩)
  rw [List.mem_range] at this
  omega

/-- A job that has just been taken has not been started. -/
theorem Counted.not_begun (h : pool.Counted batch) (hw : worker ∈ pool.workers)
    (htask : worker.task = .taken i) : ¬ pool.Begun i := by
  have hindex : worker.task.index? = some i := by rw [htask]; rfl
  rintro ⟨other, hother, hin⟩
  obtain rfl := h.eq_of_mem_claims hw hother (Worker.mem_claims_of_task hindex) hin.mem_claims
  rcases hin with ⟨plan, stage, htask', -⟩ | ⟨result, hmem, -⟩
  · exact nomatch htask.symm.trans htask'
  · exact h.notMem_results hw hindex result hmem

/-! ### Jobs that are started -/

/-- What becomes of a job that has been taken when nothing is cancelled. -/
theorem beginJob_spec (worker : Worker) (hgoes : pool.shop.board.isCancelled = false)
    (hindex : index < batch.jobs.length) :
    (∃ plan, batch.freePlan? index = some plan ∧
      beginJob batch pool.shop worker index =
        { worker with task := .copying index plan .opening }) ∨
    (batch.freePlan? index = none ∧ ∃ result, batch.Turned index result ∧
      beginJob batch pool.shop worker index = worker.note index result) := by
  have hjob : batch.jobs[index]? = some batch.jobs[index] := List.getElem?_eq_getElem hindex
  unfold beginJob
  -- a taken destination, then a source without a name
  cases htaken : (batch.taken[index]?).join with
  | some dest =>
    have hrefusal : batch.refusal? index = some dest := htaken
    refine .inr ⟨by rw [CopyBatch.freePlan?, hrefusal]; rfl, _, ⟨?_, ?_⟩, rfl⟩
    · intro dest' hdest
      obtain rfl := Option.some.inj (hrefusal.symm.trans hdest)
      rfl
    · intro job hnone
      exact absurd (hrefusal.symm.trans hnone) (by simp)
  | none =>
    have hrefusal : batch.refusal? index = none := htaken
    simp only [hgoes, hjob, Bool.false_eq_true, if_false]
    cases hplan : batch.jobs[index].plan? with
    | some plan =>
      refine .inl ⟨plan, CopyBatch.freePlan?_eq_some.mpr ⟨hrefusal, ?_⟩, rfl⟩
      rw [CopyBatch.plan?, hjob]
      exact hplan
    | none =>
      refine .inr ⟨?_, _, ⟨?_, ?_⟩, rfl⟩
      · rw [CopyBatch.freePlan?, hrefusal, CopyBatch.plan?, hjob]
        exact hplan
      · intro dest hdest
        exact absurd (hrefusal.symm.trans hdest) (by simp)
      · intro job _ hjob' _
        obtain rfl := Option.some.inj (hjob.symm.trans hjob')
        rfl

/-! ### A step -/

/-- A job that has been started stays so. -/
theorem Begun.step (h : pool.Begun i) (batch : CopyBatch) (tools : CopyTools) (turn : Turn)
    (k : Nat) : (pool.step batch tools turn k).Begun i :=
  isIn_step (fun _ _ _ _ _ => rfl) h turn k

/-- A step of one worker that leaves the disk as it is. -/
theorem InOrder.set (h : pool.InOrder batch d₀)
    (hstep : pool.step batch tools turn k = ⟨pool.workers.set k worker', next, pool.shop⟩)
    (hfollows : ∀ i plan, batch.freePlan? i = some plan →
      worker'.Follows plan d₀ pool.shop.disk i)
    (hfree : ∀ i plan stage, worker'.task = .copying i plan stage →
      batch.freePlan? i = some plan)
    (hturned : ∀ i result, (i, result) ∈ worker'.results → batch.Turned i result) :
    (pool.step batch tools turn k).InOrder batch d₀ := by
  -- that the jobs are counted and located is known of every step
  have hc := counted_step h.counted tools turn k
  have hl := located_step h.located tools turn k
  have hbegun := fun i (hi : pool.Begun i) => hi.step batch tools turn k
  rw [hstep] at hc hl hbegun ⊢
  have hmem : ∀ {other}, other ∈ pool.workers.set k worker' →
      other ∈ pool.workers ∨ other = worker' := List.mem_or_eq_of_mem_set
  refine ⟨hc, hl, fun i plan hplan => ⟨fun other hother => ?_, fun hnot => ?_⟩, ?_, ?_, h.unwritten⟩
  · rcases hmem hother with hold | rfl
    · exact (h.follows i plan hplan).workers other hold
    · exact hfollows i plan hplan
  · exact (h.follows i plan hplan).before fun hi => hnot (hbegun i hi)
  · intro other hother
    rcases hmem hother with hold | rfl
    · exact h.free other hold
    · exact hfree
  · intro other hother
    rcases hmem hother with hold | rfl
    · exact h.turned other hold
    · exact hturned

/-- A worker that has taken a job refuses it, or starts its copy. -/
theorem InOrder.begin (h : pool.InOrder batch d₀) (tools : CopyTools) (turn : Turn)
    (hgoes : pool.shop.board.isCancelled = false) (hk : pool.workers[k]? = some worker)
    (htask : worker.task = .taken index) : (pool.step batch tools turn k).InOrder batch d₀ := by
  have hworker := List.mem_of_getElem? hk
  have hindex : worker.task.index? = some index := by rw [htask]; rfl
  have hlt := h.counted.lt_length hworker (Worker.mem_claims_of_task hindex)
  have hstep : pool.step batch tools turn k = _ := step_of_taken hk htask
  rcases beginJob_spec worker hgoes hlt with
    ⟨plan, hfree, hbegin⟩ | ⟨hnone, result, hturned, hbegin⟩
  · rw [hbegin] at hstep
    refine h.set hstep (fun i plan' hplan' => ⟨?_, ?_⟩) ?_ (h.turned worker hworker)
    · -- the whole course of the copy is before it
      rintro _ _ ⟨⟩
      exact (h.follows _ plan' hplan').before (h.counted.not_begun hworker htask)
    · exact ((h.follows i plan' hplan').workers worker hworker).noted
    · rintro _ _ _ ⟨⟩
      exact hfree
  · rw [hbegin] at hstep
    refine h.set hstep (fun i plan' hplan' => ⟨fun _ _ h => (nomatch h), ?_⟩)
      (fun _ _ _ h => (nomatch h)) ?_
    · intro result' hmem
      rcases Worker.mem_note.mp hmem with ⟨rfl, rfl⟩ | hmem
      · exact absurd (hnone.symm.trans hplan') (by simp)
      · exact ((h.follows i plan' hplan').workers worker hworker).noted result' hmem
    · intro i result' hmem
      rcases Worker.mem_note.mp hmem with ⟨rfl, rfl⟩ | hmem
      · exact hturned
      · exact h.turned worker hworker i result' hmem

variable {other : CopyPlan} {stage : CopyStage}

/-- A step of a copy changes its own places at most. -/
theorem InOrder.reaches (h : pool.InOrder batch d₀) (hk : pool.workers[k]? = some worker)
    (htask : worker.task = .copying index other stage) (tools : CopyTools) (turn : Turn) :
    AgreeOff (other.WritesAt d₀) pool.shop.disk (other.step tools turn pool.shop stage).2.disk := by
  obtain ⟨hplan, hat⟩ := (h.located.workers worker (List.mem_of_getElem? hk)).placed _ _ _ htask
  have hp := (CopyBatch.plan?_eq_some hplan).1
  exact (CopyPlan.placed_step hp tools turn hat).2.mono fun q hq => hq.writesAt

/-- A step of its own copy keeps a job on course. -/
theorem InOrder.own (h : pool.InOrder batch d₀) (hfault : turn.fault = none)
    (hgoes : pool.shop.board.isCancelled = false) (hk : pool.workers[k]? = some worker)
    (htask : worker.task = .copying i other stage) (hplan : batch.freePlan? i = some plan) :
    (pool.stepped tools turn k worker i other stage).Follows d₀ i plan := by
  have hworker := List.mem_of_getElem? hk
  have hindex : worker.task.index? = some i := by rw [htask]; rfl
  obtain rfl := Option.some.inj (hplan.symm.trans (h.free worker hworker _ _ _ htask))
  have hp := (CopyBatch.plan?_eq_some (CopyBatch.freePlan?_eq_some.mp hplan).2).1
  have hcourse := ((h.follows i plan hplan).workers worker hworker).copying _ _ htask
  refine ⟨fun worker' hworker' => ?_, fun hnot => ?_⟩
  · rcases h.counted.notMem_claims_of_mem_set hk (Worker.mem_claims_of_task hindex) hworker' with
      rfl | hnotMem
    · refine ⟨?_, fun result hmem => absurd hmem (h.counted.notMem_results hworker hindex _)⟩
      rintro _ _ ⟨⟩
      exact CopyPlan.onCourse_step hp tools hfault hgoes hcourse
    · exact Worker.follows_of_notMem hnotMem
  · obtain ⟨hlt, -⟩ := List.getElem?_eq_some_iff.mp hk
    exact absurd ⟨_, List.mem_set hlt _, .inl ⟨_, _, rfl, rfl⟩⟩ hnot

/-- A step of another copy keeps a job on course. -/
theorem InOrder.elsewhere (h : pool.InOrder batch d₀) (hclear : batch.Clear d₀)
    (hk : pool.workers[k]? = some worker) (htask : worker.task = .copying index other stage)
    (hne : index ≠ i) (hplan : batch.freePlan? i = some plan)
    (hbegun : pool.Begun i → (pool.stepped tools turn k worker index other stage).Begun i) :
    (pool.stepped tools turn k worker index other stage).Follows d₀ i plan := by
  have hworker := List.mem_of_getElem? hk
  have hfollows := h.follows i plan hplan
  have hother := h.free worker hworker _ _ _ htask
  have hd := CopyPlan.agreeOff_overwrites h.located.dirs (h.reaches hk htask tools turn)
  have hoff := hclear index i other plan hne hother hplan
  refine ⟨fun worker' hworker' => Worker.Follows.elsewhere ?_ hd hoff,
    fun hnot => (hfollows.before fun hi => hnot (hbegun hi)).elsewhere hd hoff⟩
  -- the workers have the same of the job as before
  rcases List.mem_or_eq_of_mem_set hworker' with hmem | rfl
  · exact hfollows.workers worker' hmem
  · refine ⟨?_, (hfollows.workers worker hworker).noted⟩
    rintro _ _ ⟨⟩
    exact absurd rfl hne

/-- **A step of a worker keeps all jobs on course.** -/
theorem inOrder_step (h : pool.InOrder batch d₀) (hclear : batch.Clear d₀) (tools : CopyTools)
    (hfault : turn.fault = none) (hgoes : pool.shop.board.isCancelled = false) (k : Nat) :
    (pool.step batch tools turn k).InOrder batch d₀ := by
  have hc := counted_step h.counted tools turn k
  have hl := located_step h.located tools turn k
  have hbegun := fun i (hi : pool.Begun i) => hi.step batch tools turn k
  rcases step_cases batch tools turn pool k with
    hsame | ⟨worker, worker', next, shop, hk, hchange, hstep⟩
  · exact hsame.symm ▸ h
  have hworker := List.mem_of_getElem? hk
  have hnoted := fun i plan (hplan : batch.freePlan? i = some plan) =>
    ((h.follows i plan hplan).workers worker hworker).noted
  cases hchange with
  | take htask hmore =>
    exact h.set hstep (fun i plan hplan => ⟨fun _ _ h => (nomatch h), hnoted i plan hplan⟩)
      (fun _ _ _ h => (nomatch h)) (h.turned worker hworker)
  | leave htask hnone =>
    exact h.set hstep (fun i plan hplan => ⟨fun _ _ h => (nomatch h), hnoted i plan hplan⟩)
      (fun _ _ _ h => (nomatch h)) (h.turned worker hworker)
  | refuse htask _ => exact h.begin tools turn hgoes hk htask
  | start htask _ => exact h.begin tools turn hgoes hk htask
  | @copy index other stage htask =>
    -- the job that is copied was free when it was begun
    have hother := h.free worker hworker _ _ _ htask
    rw [hstep] at hc hl hbegun ⊢
    refine ⟨hc, hl, fun i plan hplan => ?_, ?_, ?_, ?_⟩
    · -- the copy of the job itself goes on; the others see nothing of it
      by_cases hne : index = i
      · subst hne
        exact h.own hfault hgoes hk htask hplan
      · exact h.elsewhere hclear hk htask hne hplan (hbegun i)
    · intro worker' hworker'
      rcases List.mem_or_eq_of_mem_set hworker' with hmem | rfl
      · exact h.free worker' hmem
      · rintro _ _ _ ⟨⟩
        exact hother
    · intro worker' hworker'
      rcases List.mem_or_eq_of_mem_set hworker' with hmem | rfl
      · exact h.turned worker' hmem
      · exact h.turned worker hworker
    · refine h.unwritten.trans ((h.reaches hk htask tools turn).mono fun q hq => ?_)
      exact ⟨index, other, hother, hq⟩
  | @note index other result htask =>
    have hother := h.free worker hworker _ _ _ htask
    refine h.set hstep (fun i plan hplan => ⟨fun _ _ h => (nomatch h), ?_⟩)
      (fun _ _ _ h => (nomatch h)) ?_
    · intro result' hmem
      rcases Worker.mem_note.mp hmem with ⟨rfl, rfl⟩ | hmem
      · exact ((h.follows _ plan hplan).workers worker hworker).copying _ _ htask
      · exact hnoted i plan hplan result' hmem
    · intro i result' hmem
      rcases Worker.mem_note.mp hmem with ⟨rfl, rfl⟩ | hmem
      · exact CopyBatch.turned_of_free hother _
      · exact h.turned worker hworker i result' hmem

/-! ### A run -/

/-- The run goes its ordinary way: nothing fails that the disk does not make fail, and nobody
cancels it. -/
structure Goes (batch : CopyBatch) (tools : CopyTools) (pool : CopyPool) (moves : List PoolMove) :
    Prop where
  /-- No failure strikes. -/
  faults : ∀ k turn, .worker k turn ∈ moves → turn.fault = none
  /-- It is not cancelled. -/
  goes : ∀ past, past <+: moves → (pool.run batch tools past).shop.board.isCancelled = false

theorem Goes.tail {move : PoolMove} {moves : List PoolMove}
    (h : pool.Goes batch tools (move :: moves)) :
    (pool.after batch tools move).Goes batch tools moves where
  faults k turn hmem := h.faults k turn (List.mem_cons_of_mem _ hmem)
  goes past hpast := h.goes (move :: past) (List.cons_prefix_cons.mpr ⟨rfl, hpast⟩)

/-- A run in which nothing but steps of the workers happens goes its ordinary way. -/
theorem goes_of_workers (batch : CopyBatch) (tools : CopyTools) (moves : List PoolMove) :
    ∀ pool : CopyPool, pool.shop.board.isCancelled = false →
      (∀ move ∈ moves, ∃ k turn, move = .worker k turn ∧ turn.fault = none) →
      pool.Goes batch tools moves := by
  induction moves with
  | nil =>
    intro pool hgoes _
    refine ⟨fun k turn hmem => absurd hmem List.not_mem_nil, fun past hpast => ?_⟩
    rw [List.prefix_nil.mp hpast]
    exact hgoes
  | cons move moves ih =>
    intro pool hgoes hmoves
    obtain ⟨k, turn, rfl, hfault⟩ := hmoves move List.mem_cons_self
    -- a worker asks for no end
    have hnext : (pool.step batch tools turn k).shop.board.isCancelled = false := by
      rw [(sameFlags_step batch tools turn pool k).isCancelled, hgoes]
    have hrest := ih (pool.step batch tools turn k) hnext
      fun move' hmove' => hmoves move' (List.mem_cons_of_mem _ hmove')
    constructor
    · intro k' turn' hmem
      rcases List.mem_cons.mp hmem with heq | hmem
      · cases heq
        exact hfault
      · exact hrest.faults k' turn' hmem
    · intro past hpast
      cases past with
      | nil => exact hgoes
      | cons move' past =>
        obtain ⟨rfl, hlater⟩ := List.cons_prefix_cons.mp hpast
        exact hrest.goes past hlater

theorem inOrder_after (h : pool.InOrder batch d₀) (hclear : batch.Clear d₀) {move : PoolMove}
    {moves : List PoolMove} (hgoes : pool.Goes batch tools (move :: moves)) :
    (pool.after batch tools move).InOrder batch d₀ := by
  cases move with
  | worker k turn =>
    have hfault := hgoes.faults k turn List.mem_cons_self
    exact inOrder_step h hclear tools hfault (hgoes.goes [] List.nil_prefix) k
  | others change =>
    exact ⟨counted_after h.counted tools (.others change),
      located_after h.located tools (.others change),
      fun i plan hplan => ⟨(h.follows i plan hplan).workers, (h.follows i plan hplan).before⟩,
      h.free, h.turned, h.unwritten⟩

/-- **All jobs stay on course**, in every order of the steps of the workers. -/
theorem inOrder_run (hclear : batch.Clear d₀) (tools : CopyTools) (moves : List PoolMove) :
    ∀ pool : CopyPool, pool.InOrder batch d₀ → pool.Goes batch tools moves →
      (pool.run batch tools moves).InOrder batch d₀ := by
  induction moves with
  | nil => intro pool h _; exact h
  | cons move moves ih =>
    intro pool h hgoes
    exact ih _ (inOrder_after h hclear hgoes) hgoes.tail

end CopyPool
end TransferBoard
