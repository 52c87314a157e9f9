import TransferBoard.Proofs.Board.Waiting
import TransferBoard.Proofs.Copy.Order
import TransferBoard.Proofs.Copy.Refused
import TransferBoard.Proofs.Copy.Reports
import TransferBoard.Proofs.Copy.Returns
import TransferBoard.Proofs.Copy.WholeCopy

/-!
# The end that was asked for

Once the end has been asked for, nobody takes it back.  A copy looks at the flags before each
piece, so it moves the piece that it is at and no other one, and the steps that it has left are
counted by the stage that it is at.

## Main definitions

* `CopyStage.isReading`, `isWriting`, `isGoing` — the steps to be counted.
* `CopyStage.readsLeft`, `writesLeft`, `stepsLeft` — the steps that are left once the end has
  been asked for.
* `CopyStage.Bounds` — steps of one kind are bounded by those that are left.
* `CopyPool.stepsAt`, `CopyPlan.stepsAt` — the steps of one kind that a worker takes in a run,
  and a copy in its course.

## Main results

* `bounds_reads`, `bounds_writes`, `bounds_steps` — what a step leaves.
* `CopyPool.stepsAt_le`, `CopyPlan.stepsAt_le` — the steps in a run are bounded by those that
  are left before it.
* `end_is_permanent` — **over whole runs, with any calls of others**: the end that was asked
  for.
-/

namespace TransferBoard

variable {batch : CopyBatch} {tools : CopyTools} {turn : Turn} {pool : CopyPool} {k : Nat}

namespace CopyStage

/-- The next step reads a piece. -/
def isReading : CopyStage → Bool
  | reading _ => true
  | _ => false

/-- The next step writes a piece. -/
def isWriting : CopyStage → Bool
  | writing _ _ => true
  | _ => false

/-- There is a next step. -/
def isGoing (stage : CopyStage) : Bool := stage.result?.isNone

/-- The pieces that a copy still reads when it is to end. -/
def readsLeft : CopyStage → Nat
  | reading _ => 1
  | _ => 0

/-- The pieces that a copy still writes when it is to end. -/
def writesLeft : CopyStage → Nat
  | reading _ | writing _ _ => 1
  | _ => 0

/-- The steps that a copy still takes when it is to end. -/
def stepsLeft : CopyStage → Nat
  | reading _ => 10
  | opening | syncing _ => 9
  | measuring _ | .renaming _ => 8
  | creating _ _ | writing _ _ | finishing _ => 7
  | announcing _ _ _ | reporting _ _ | showingFinish _ => 6
  | showing _ _ _ | drawing _ | choosingDigest _ => 5
  | checking _ | hashing _ _ _ => 4
  | discarding _ _ | settling _ _ => 3
  | stopping _ _ | showingDigest => 2
  | showingStop _ | registering => 1
  | ended _ => 0

theorem readsLeft_le (stage : CopyStage) : stage.readsLeft ≤ 1 := by
  cases stage <;> simp [readsLeft]

theorem writesLeft_le (stage : CopyStage) : stage.writesLeft ≤ 1 := by
  cases stage <;> simp [writesLeft]

theorem stepsLeft_le (stage : CopyStage) : stage.stepsLeft ≤ 10 := by
  cases stage <;> simp [stepsLeft]

/-- The stage that comes next leaves one step less of those that are counted. -/
def lowers (counted : CopyStage → Bool) (left : CopyStage → Nat) (stage next : CopyStage) : Bool :=
  decide ((if counted stage then 1 else 0) + left next ≤ left stage)

/-- It does so for the pieces that are read, for those that are written and for all steps. -/
def leadsTo (stage next : CopyStage) : Bool :=
  lowers isReading readsLeft stage next && lowers isWriting writesLeft stage next &&
    lowers isGoing stepsLeft stage next

/-- **When the end has been asked for, every step leaves less to do**, if the copy need not
wait. -/
theorem leadsTo_step {w : Workshop} {stage : CopyStage} (hcancelled : w.board.isCancelled = true)
    (hblocked : stage.isBlocked w = false) (plan : CopyPlan) (tools : CopyTools) (turn : Turn) :
    stage.leadsTo (plan.step tools turn w stage).1 = true := by
  have hnext := plan.next_step tools turn w stage
  generalize (plan.step tools turn w stage).1 = next at hnext ⊢
  cases hnext with
  | waits blocked => exact nomatch hblocked.symm.trans blocked
  | goes flow =>
    -- the copy looks at the flags, and gives up
    exact nomatch (Dashboard.flow?_eq_cancelled_iff.mpr hcancelled).symm.trans flow
  | _ => rfl

/-- The steps that are counted are bounded by those that are left. -/
def Bounds (counted : CopyStage → Bool) (left : CopyStage → Nat) : Prop :=
  ∀ stage next, leadsTo stage next = true → lowers counted left stage next = true

theorem bounds_reads : Bounds isReading readsLeft := by
  intro stage next h
  simp only [leadsTo, Bool.and_eq_true] at h
  exact h.1.1

theorem bounds_writes : Bounds isWriting writesLeft := by
  intro stage next h
  simp only [leadsTo, Bool.and_eq_true] at h
  exact h.1.2

theorem bounds_steps : Bounds isGoing stepsLeft := by
  intro stage next h
  simp only [leadsTo, Bool.and_eq_true] at h
  exact h.2

/-- One, if the copy takes a step of the kind that is counted. -/
def count (counted : CopyStage → Bool) (w : Workshop) (stage : CopyStage) : Nat :=
  if stage.isBlocked w then 0 else if counted stage then 1 else 0

theorem Bounds.step {counted : CopyStage → Bool} {left : CopyStage → Nat} (h : Bounds counted left)
    {w : Workshop} (hcancelled : w.board.isCancelled = true) (plan : CopyPlan) (tools : CopyTools)
    (turn : Turn) (stage : CopyStage) :
    stage.count counted w + left (plan.step tools turn w stage).1 ≤ left stage := by
  unfold count
  cases hblocked : stage.isBlocked w with
  | true =>
    rw [CopyPlan.step_of_isBlocked hblocked, if_pos rfl]
    exact Nat.le_of_eq (Nat.zero_add _)
  | false =>
    have hless := h stage _ (leadsTo_step hcancelled hblocked plan tools turn)
    simpa [lowers] using hless

/-- A copy that has ended takes no step. -/
theorem Bounds.count_ended {counted : CopyStage → Bool} {left : CopyStage → Nat}
    (h : Bounds counted left) (w : Workshop) (result : CopyResult) :
    (ended result).count counted w = 0 := by
  have hless := h (ended result) (ended result) rfl
  simp only [lowers, decide_eq_true_eq] at hless
  have hblocked : (ended result).isBlocked w = false := rfl
  rw [count, hblocked]
  simp only [Bool.false_eq_true, if_false]
  omega

end CopyStage

variable {counted : CopyStage → Bool} {left : CopyStage → Nat}

/-! ### A copy by itself -/

namespace CopyPlan

/-- The steps of one kind that a copy takes in its course. -/
def stepsAt (plan : CopyPlan) (tools : CopyTools) (counted : CopyStage → Bool) :
    CopyStage × Workshop → List CopyMove → Nat
  | _, [] => 0
  | c, .own turn :: moves =>
    c.1.count counted c.2 + stepsAt plan tools counted (plan.step tools turn c.2 c.1) moves
  | c, .others change :: moves =>
    stepsAt plan tools counted (plan.after tools c (.others change)) moves

/-- **What a copy still does in its course.** -/
theorem stepsAt_le (hbounds : CopyStage.Bounds counted left) (plan : CopyPlan) (tools : CopyTools)
    {allowed : BoardSection → Bool} {moves : List CopyMove}
    (hmoves : ∀ change, .others change ∈ moves → Dashboard.MadeOf allowed change)
    {c : CopyStage × Workshop} (hcancelled : c.2.board.isCancelled = true) :
    plan.stepsAt tools counted c moves ≤ left c.1 := by
  induction moves generalizing c with
  | nil => exact Nat.zero_le _
  | cons move moves ih =>
    have hrest := fun change hmem => hmoves change (List.mem_cons_of_mem _ hmem)
    cases move with
    | own turn =>
      have hnext : (plan.step tools turn c.2 c.1).2.board.isCancelled = true :=
        (plan.sameFlags_step tools turn c.2 c.1).isCancelled.trans hcancelled
      have hless := hbounds.step hcancelled plan tools turn c.1
      have hlater := ih hrest hnext
      rw [stepsAt]
      omega
    | others change =>
      obtain ⟨sections, -, hchange⟩ := hmoves change List.mem_cons_self c.2.board
      refine ih hrest (c := plan.after tools c (.others change)) ?_
      show (change c.2.board).isCancelled = true
      rw [hchange]
      exact Dashboard.isCancelled_run hcancelled sections

end CopyPlan

/-! ### The workers of a run -/

/-- One, if the worker takes a step of the kind that is counted. -/
def Worker.count (counted : CopyStage → Bool) (w : Workshop) (worker : Worker) : Nat :=
  match worker.task with
  | .copying _ _ stage => stage.count counted w
  | _ => 0

/-- The steps that the worker has left. -/
def Worker.stepsLeft (left : CopyStage → Nat) (worker : Worker) : Nat :=
  match worker.task with
  | .copying _ _ stage => left stage
  | _ => 0

namespace CopyPool

/-- The steps of one kind that a worker takes in a run. -/
def stepsAt (batch : CopyBatch) (tools : CopyTools) (counted : CopyStage → Bool) (k : Nat) :
    CopyPool → List PoolMove → Nat
  | _, [] => 0
  | pool, .worker k' turn :: moves =>
    (if k' = k then (pool.workers[k]?).elim 0 (Worker.count counted pool.shop) else 0) +
      stepsAt batch tools counted k (pool.step batch tools turn k') moves
  | pool, .others change :: moves =>
    stepsAt batch tools counted k (pool.after batch tools (.others change)) moves

theorem getElem?_step_ne (batch : CopyBatch) (tools : CopyTools) (turn : Turn) (pool : CopyPool)
    {k k' : Nat} (hne : k' ≠ k) :
    (pool.step batch tools turn k').workers[k]? = pool.workers[k]? := by
  rcases step_cases batch tools turn pool k' with hsame | ⟨_, _, _, _, -, -, hstep⟩
  · rw [hsame]
  · rw [hstep]
    exact List.getElem?_set_ne hne

theorem getElem?_step_self {worker : Worker} (hk : pool.workers[k]? = some worker)
    (batch : CopyBatch) (tools : CopyTools) (turn : Turn) :
    ∃ worker', (pool.step batch tools turn k).workers[k]? = some worker' := by
  have hlt := (List.getElem?_eq_some_iff.mp hk).1
  rcases step_cases batch tools turn pool k with hsame | ⟨_, worker', _, _, -, -, hstep⟩
  · rw [hsame]
    exact ⟨worker, hk⟩
  · rw [hstep]
    exact ⟨worker', List.getElem?_set_self hlt⟩

/-- When the end has been asked for, a worker copies no job that it has not begun. -/
theorem beginJob_of_isCancelled {shop : Workshop} (h : shop.board.isCancelled = true)
    (batch : CopyBatch) (worker : Worker) (index : Nat) :
    ∃ result, beginJob batch shop worker index = worker.note index result := by
  cases hrefusal : batch.refusal? index with
  | some dest => exact ⟨_, beginJob_of_refusal hrefusal shop worker⟩
  | none => exact ⟨_, beginJob_of_cancelled hrefusal h worker⟩

/-- A step of a worker leaves it less to do. -/
theorem left_step (hbounds : CopyStage.Bounds counted left)
    (hcancelled : pool.shop.board.isCancelled = true) (batch : CopyBatch) (tools : CopyTools)
    (turn : Turn) {worker worker' : Worker} (hk : pool.workers[k]? = some worker)
    (hk' : (pool.step batch tools turn k).workers[k]? = some worker') :
    worker.count counted pool.shop + worker'.stepsLeft left ≤ worker.stepsLeft left := by
  have hlt := (List.getElem?_eq_some_iff.mp hk).1
  -- the worker that makes the step; the others stay what they were
  have hself : ∀ worker'', (pool.workers.set k worker'')[k]? = some worker' →
      worker'' = worker' := fun worker'' heq => by
    rw [List.getElem?_set_self hlt] at heq
    exact Option.some.inj heq
  cases htask : worker.task with
  | gone =>
    rw [step_of_gone hk htask] at hk'
    obtain rfl := Option.some.inj (hk.symm.trans hk')
    simp [Worker.count, Worker.stepsLeft, htask]
  | idle =>
    rw [step_of_idle hk htask] at hk'
    obtain rfl := hself _ hk'
    split <;> simp [Worker.count, Worker.stepsLeft, htask]
  | taken index =>
    rw [step_of_taken hk htask] at hk'
    -- a job that is taken now is not begun, so it makes none of the steps
    obtain ⟨result, hbegin⟩ := beginJob_of_isCancelled hcancelled batch worker index
    obtain rfl := hself _ hk'
    simp [hbegin, Worker.count, Worker.stepsLeft, Worker.note, htask]
  | copying index plan stage =>
    cases hresult : stage.result? with
    | none =>
      rw [step_of_copying hk htask hresult] at hk'
      obtain rfl := hself _ hk'
      simp only [Worker.count, Worker.stepsLeft, htask]
      exact hbounds.step hcancelled plan tools turn stage
    | some result =>
      obtain rfl := CopyStage.eq_ended_of_result? hresult
      rw [step_of_ended hk htask] at hk'
      obtain rfl := hself _ hk'
      simp only [Worker.count, Worker.stepsLeft, htask, Worker.note, hbounds.count_ended]
      omega

/-- **What a worker still does in a run**: it comes to the end of the copy that it has under
way, and begins no other one. -/
theorem stepsAt_le (hbounds : CopyStage.Bounds counted left) (batch : CopyBatch)
    (tools : CopyTools) {allowed : BoardSection → Bool} {moves : List PoolMove}
    (hmoves : ∀ move ∈ moves, move.MadeOf allowed)
    (hcancelled : pool.shop.board.isCancelled = true) (k : Nat) :
    pool.stepsAt batch tools counted k moves ≤ (pool.workers[k]?).elim 0 (Worker.stepsLeft left) := by
  induction moves generalizing pool with
  | nil => exact Nat.zero_le _
  | cons move moves ih =>
    have hrest := fun move' hmem => hmoves move' (List.mem_cons_of_mem _ hmem)
    have hmove := hmoves move List.mem_cons_self
    cases move with
    | others change =>
      obtain ⟨sections, -, hchange⟩ := hmove pool.shop.board
      -- others cannot take the request back
      have hnext : (pool.after batch tools (.others change)).shop.board.isCancelled = true := by
        show (change pool.shop.board).isCancelled = true
        rw [hchange]
        exact Dashboard.isCancelled_run hcancelled sections
      exact ih hrest hnext
    | worker k' turn =>
      have hnext : (pool.step batch tools turn k').shop.board.isCancelled = true :=
        (sameFlags_step batch tools turn pool k').isCancelled.trans hcancelled
      have hlater := ih hrest hnext
      rw [stepsAt]
      -- the steps of the worker itself, and those of another one
      by_cases hne : k' = k
      · subst hne
        rw [if_pos rfl]
        cases hk : pool.workers[k']? with
        | none =>
          rw [step, hk] at hlater
          rw [step, hk]
          simpa [hk] using hlater
        | some worker =>
          obtain ⟨worker', hk'⟩ := getElem?_step_self hk batch tools turn
          have hless := left_step hbounds hcancelled batch tools turn hk hk'
          rw [hk', Option.elim_some] at hlater
          simp only [Option.elim_some]
          omega
      · rw [getElem?_step_ne batch tools turn pool hne] at hlater
        rw [if_neg hne]
        omega

end CopyPool

/-! ### The end -/

/-- **The end that was asked for stays, and comes before everything else.**  Workers copy some
jobs with a dashboard that has any past, others call what they like in between, and somebody
asks for the end.  Whatever happens after that:

* the end is asked for at every later moment, and a thread that waits is told so by its next
  step and does not sleep, also when the pause has been set again;
* every worker reads one more piece and writes one more piece at most, and comes to the end of
  what it copies within ten steps, unless nothing arrives on the stream that it reads;
* so does a copy that is made beside those of the workers, at whatever stage it is;
* and a job that has not been begun, and that is not refused, is reported as cancelled without a
  change of the disk or the dashboard. -/
theorem end_is_permanent (surface : Surface) (interval : Nat) (sections : List BoardSection)
    (disk : Disk) (jobs : List CopyJob) (maxConcurrent : Nat) (tools : CopyTools)
    {past rest : List PoolMove} {request : BoardSection}
    (hpast : ∀ move ∈ past, move.MadeOf fun _ => true)
    (hrest : ∀ move ∈ rest, move.MadeOf fun _ => true) (hrequest : request.asksForEnd = true) :
    let w : Workshop := ⟨(Dashboard.fresh surface interval).run sections, disk⟩
    let before := copyAllDuring jobs maxConcurrent tools past w
    let asked := before.onBoard request
    let pool := asked.run (.of jobs) tools rest
    (pool.shop.board.isCancelled = true ∧ pool.shop.board.flow? = some .cancelled ∧
      ∀ (threads : List ThreadStage) (k : Nat) (now : Moment), threads[k]? = some .looking →
        (SharedBoard.mk pool.shop.board threads).step k now =
          ⟨pool.shop.board, threads.set k (.told .cancelled)⟩) ∧
    (∀ k, asked.stepsAt (.of jobs) tools CopyStage.isReading k rest ≤ 1 ∧
      asked.stepsAt (.of jobs) tools CopyStage.isWriting k rest ≤ 1 ∧
      asked.stepsAt (.of jobs) tools CopyStage.isGoing k rest ≤ 10) ∧
    (∀ (plan : CopyPlan) (stage : CopyStage) (moves : List CopyMove),
      (∀ change, .others change ∈ moves → Dashboard.MadeOf (fun _ => true) change) →
      plan.stepsAt tools CopyStage.isReading (stage, asked.shop) moves ≤ 1 ∧
      plan.stepsAt tools CopyStage.isWriting (stage, asked.shop) moves ≤ 1 ∧
      plan.stepsAt tools CopyStage.isGoing (stage, asked.shop) moves ≤ 10) ∧
    ∀ i < jobs.length, (∀ dest, ¬ IsTaken jobs i dest) → ¬ before.Begun i →
      asked.Spares (.of jobs) tools i rest ∧
        ∀ results, pool.results? = some results → results[i]? = some (.ok .cancelled) := by
  intro w before asked pool
  -- the request is of the user or of the teardown, and only a live board can be torn down
  have hends : before.shop.board.EndsWithSession := by
    obtain ⟨sections', hboard⟩ := CopyPool.board_copyAllDuring hpast jobs maxConcurrent tools
    rw [hboard]
    exact Dashboard.endsWithSession_run surface interval sections'
  have hasked : asked.shop.board.isCancelled = true :=
    Dashboard.isCancelled_of_asksForEnd hends hrequest
  have hpool : pool.shop.board.isCancelled = true := CopyPool.isCancelled_run hrest hasked
  have hflow := Dashboard.flow?_eq_cancelled_iff.mpr hpool
  refine ⟨⟨hpool, hflow, ?_⟩, ?_, ?_, ?_⟩
  · intro threads k now hk
    simp only [SharedBoard.step, hk, hflow]
  · intro k
    -- one bound for all that is counted at a worker, whatever its stage
    have hworker : ∀ {counted left} {bound : Nat}, CopyStage.Bounds counted left →
        (∀ stage, left stage ≤ bound) →
        asked.stepsAt (.of jobs) tools counted k rest ≤ bound := by
      intro counted left bound hbounds hleft
      refine Nat.le_trans (CopyPool.stepsAt_le hbounds (.of jobs) tools hrest hasked k) ?_
      cases asked.workers[k]? with
      | none => exact Nat.zero_le _
      | some worker =>
        rw [Option.elim_some, Worker.stepsLeft]
        split
        · exact hleft _
        · exact Nat.zero_le _
    exact ⟨hworker CopyStage.bounds_reads CopyStage.readsLeft_le,
      hworker CopyStage.bounds_writes CopyStage.writesLeft_le,
      hworker CopyStage.bounds_steps CopyStage.stepsLeft_le⟩
  · intro plan stage moves hmoves
    exact ⟨Nat.le_trans (plan.stepsAt_le CopyStage.bounds_reads tools hmoves hasked)
        stage.readsLeft_le,
      Nat.le_trans (plan.stepsAt_le CopyStage.bounds_writes tools hmoves hasked)
        stage.writesLeft_le,
      Nat.le_trans (plan.stepsAt_le CopyStage.bounds_steps tools hmoves hasked)
        stage.stepsLeft_le⟩
  · intro i hi hfree hnot
    have hcounted : asked.Counted (.of jobs) := by
      have hbefore := CopyPool.counted_run
        (CopyPool.counted_start jobs maxConcurrent w) tools past
      exact ⟨hbefore.claimed, hbefore.left, hbefore.staffed⟩
    have hbegun : ¬ asked.Begun i := hnot
    obtain ⟨haway, hspares⟩ := CopyPool.cancelled_run (refusal?_eq_none_iff.mpr hfree) hasked
      hbegun hrest tools
    refine ⟨hspares, fun results hr => ?_⟩
    exact haway.result_eq (CopyPool.counted_run hcounted tools rest) hr hi

/-- One worker and two jobs, with an end that is asked for when the first piece is about to be
read, and a pause that is set after it: the piece is copied, and no other one. -/
theorem cancelled_copy_moves_one_more_piece :
    let disk : Disk := ⟨[(["in"], .dir), (["in", "a"], .file #[1, 2, 3]), (["in", "b"], .file #[4]),
      (["out"], .dir)]⟩
    let jobs := [jobOut ⟨"in/a"⟩, jobOut ⟨"in/b"⟩]
    let tools : CopyTools := { bufferBytes := 1 }
    let board := (Dashboard.fresh (Surface.new 80 24) 0).run [.redraw true 0]
    let before := copyAllDuring jobs 1 tools (steps 8) ⟨board, disk⟩
    let asked := before.onBoard (.applyKey (.char 'c'))
    let rest := .others (fun d => d.after (.applyKey (.char 'p'))) :: steps 20
    let pool := asked.run (.of jobs) tools rest
    pool.shop.board.state.controls.paused = true ∧ pool.shop.board.flow? = some .cancelled ∧
    asked.stepsAt (.of jobs) tools CopyStage.isWriting 0 rest = 1 ∧
    asked.stepsAt (.of jobs) tools CopyStage.isReading 0 rest ≤ 1 ∧
    ∃ results, pool.results? = some results ∧ results[1]? = some (.ok .cancelled) := by
  intro disk jobs tools board before asked rest pool
  have hsteps := madeOf_of_mem_steps fun _ => true
  have hrest : ∀ move ∈ rest, move.MadeOf fun _ => true := by
    intro move hmove
    rcases List.mem_cons.mp hmove with rfl | hmove
    · exact Dashboard.madeOf_after rfl
    · exact hsteps 20 move hmove
  have hrequest : BoardSection.asksForEnd (.applyKey (.char 'c')) = true := rfl
  obtain ⟨-, hworkers, -, hjobs⟩ := end_is_permanent (Surface.new 80 24) 0 [.redraw true 0] disk
    jobs 1 tools (hsteps 8) hrest hrequest
  have hr := pool.results?_of_sorted [(0, .ok .cancelled), (1, .ok .cancelled)]
    (by decide +kernel) (by decide +kernel) (by decide)
  have hfree : (CopyBatch.of jobs).refusal? 1 = none := by decide +kernel
  have hnot : ¬ before.Begun 1 := by decide +kernel
  have hlast := (hjobs 1 (by decide) (refusal?_eq_none_iff.mp hfree) hnot).2 _ hr
  exact ⟨by decide +kernel, by decide +kernel, by decide +kernel, (hworkers 0).1, _, hr, hlast⟩

end TransferBoard
