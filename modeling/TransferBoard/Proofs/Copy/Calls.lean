import TransferBoard.Proofs.Board.Flags
import TransferBoard.Proofs.Copy.Workers

/-!
# What copies do to the dashboard

A step of a copy holds the lock of the dashboard once at most.  So it is one section or none,
and a run of workers, with whatever others call in between, takes the dashboard through a
list of sections.

## Main definitions

* `CopyPlan.boardSection?` — what a step of a copy does under the lock.
* `Dashboard.MadeOf`, `PoolMove.MadeOf` — a change that others make is made of sections of
  some kind.

## Main results

* `board_step` — the dashboard after a step of a copy.
* `sameFlags_step` — a copy leaves the flags.
* `run_of_sections` — an induction over the steps of the workers and the sections of others.
* `board_run` — the dashboard in a run goes through sections.
* `run_to_teardown` — an induction for what a teardown resets.
-/

namespace TransferBoard

variable {batch : CopyBatch} {tools : CopyTools} {turn : Turn} {pool : CopyPool} {k : Nat}

namespace CopyPlan

/-- What the next step of a copy does under the lock. -/
def boardSection? (plan : CopyPlan) (turn : Turn) : CopyStage → Option BoardSection
  | .announcing _ _ total => some (.track (plan.request total) turn.now)
  | .reporting run count =>
    some (.advance run.handle count.toUInt64 (secondsBetween run.started turn.now))
  | .drawing _ => some (.redraw false turn.now)
  | .stopping run failure => some (.markStopped run.handle (stopReason failure))
  | .finishing run => some (.markFinished run.handle)
  | .settling run result => some (.settleDigest run.handle result)
  | .registering => some (.register plan.name plan.target plan.job.expected)
  | .showing _ _ _ | .showingStop _ | .showingFinish _ | .showingDigest =>
    some (.redraw true turn.now)
  | _ => none

/-- **A step of a copy is one section at most.** -/
theorem board_step (plan : CopyPlan) (tools : CopyTools) (turn : Turn) (w : Workshop)
    (stage : CopyStage) :
    (plan.step tools turn w stage).2.board =
      (plan.boardSection? turn stage).elim w.board w.board.after := by
  -- what would go to an entry that is not there goes nowhere
  have hmisses : ∀ {h : Handle} (f : Entry → Entry), ¬ (w.board.entry? h).isSome = true →
      w.board = w.board.modify h f := by
    intro h f hnone
    rw [Dashboard.modify, BoardState.modify_of_finds_none]
    exact Option.not_isSome_iff_eq_none.mp hnone
  cases stage with
  | opening => rw [step]; split <;> rfl
  | measuring source => rw [step]; split <;> rfl
  | creating source total => rw [step]; split <;> rfl
  | checking run => rw [step]; split <;> rfl
  | reading run =>
    rw [step]
    split
    · rfl
    split <;> rfl
  | writing run piece => rw [step]; split <;> rfl
  | syncing run => rw [step]; split <;> rfl
  | «renaming» run => rw [step]; split <;> rfl
  | discarding run failure => rw [step]; split <;> rfl
  | choosingDigest run => rw [step]; split <;> rfl
  | stopping run failure =>
    rw [step]
    split
    · rfl
    · next hnone => exact hmisses _ hnone
  | settling run result =>
    rw [step]
    split
    · rfl
    · next hnone => exact hmisses _ hnone
  | _ => rfl

/-- The section of a copy is neither a key nor the teardown. -/
theorem setsFlags_boardSection? {plan : CopyPlan} {stage : CopyStage} {sec : BoardSection}
    (h : plan.boardSection? turn stage = some sec) : sec.setsFlags = false := by
  cases stage <;> cases h <;> rfl

/-- A copy does not touch the flags of the dashboard. -/
theorem sameFlags_step (plan : CopyPlan) (tools : CopyTools) (turn : Turn) (w : Workshop)
    (stage : CopyStage) : w.board.SameFlags (plan.step tools turn w stage).2.board := by
  rw [board_step]
  cases hsec : plan.boardSection? turn stage with
  | none => exact ⟨rfl, rfl⟩
  | some sec => exact Dashboard.sameFlags_after w.board (setsFlags_boardSection? hsec)

end CopyPlan

/-! ### What others call -/

/-- The section is one of those that only the user and the session make: no producer has a part
in it. -/
def BoardSection.isOfUser : BoardSection → Bool
  | applyKey _ | redraw _ _ | teardown => true
  | _ => false

/-- The change is made of sections of the given kind, whatever it finds. -/
def Dashboard.MadeOf (allowed : BoardSection → Bool) (change : Dashboard → Dashboard) : Prop :=
  ∀ d, ∃ sections, (∀ sec ∈ sections, allowed sec = true) ∧ change d = d.run sections

/-- What others do to the dashboard is made of sections of the given kind. -/
def PoolMove.MadeOf (allowed : BoardSection → Bool) : PoolMove → Prop
  | worker _ _ => True
  | others change => Dashboard.MadeOf allowed change

theorem Dashboard.madeOf_after {allowed : BoardSection → Bool} {sec : BoardSection}
    (h : allowed sec = true) : MadeOf allowed fun d => d.after sec := by
  intro d
  refine ⟨[sec], ?_, rfl⟩
  intro sec' hsec
  rw [List.mem_singleton.mp hsec]
  exact h

/-- What each section keeps, a change that is made of them keeps. -/
theorem Dashboard.MadeOf.keeps {P : Dashboard → Prop} {allowed : BoardSection → Bool}
    {change : Dashboard → Dashboard} (hchange : MadeOf allowed change)
    (hsec : ∀ d sec, allowed sec = true → P d → P (d.after sec)) {d : Dashboard} (h : P d) :
    P (change d) := by
  obtain ⟨sections, hallowed, heq⟩ := hchange d
  rw [heq]
  clear heq
  induction sections generalizing d with
  | nil => exact h
  | cons sec rest ih =>
    exact ih (hsec d sec (hallowed sec List.mem_cons_self) h)
      fun sec' hsec' => hallowed sec' (List.mem_cons_of_mem _ hsec')

namespace CopyPool

/-- A run in which others have held the lock of the dashboard once. -/
def onBoard (pool : CopyPool) (sec : BoardSection) : CopyPool :=
  { pool with shop := { pool.shop with board := pool.shop.board.after sec } }

/-- **What the steps of the workers keep, and the sections of others, a run keeps.** -/
theorem run_of_sections {P : CopyPool → Prop} {allowed : BoardSection → Bool}
    (hstep : ∀ pool turn k, P pool → P (pool.step batch tools turn k))
    (hothers : ∀ pool sec, allowed sec = true → P pool → P (pool.onBoard sec))
    {moves : List PoolMove} (hmoves : ∀ move ∈ moves, move.MadeOf allowed) (h : P pool) :
    P (pool.run batch tools moves) := by
  induction moves generalizing pool with
  | nil => exact h
  | cons move moves ih =>
    refine ih (fun m hm => hmoves m (List.mem_cons_of_mem _ hm)) ?_
    have hmove := hmoves move List.mem_cons_self
    cases move with
    | worker k turn => exact hstep pool turn k h
    | others change =>
      exact Dashboard.MadeOf.keeps
        (P := fun d => P { pool with shop := { pool.shop with board := d } }) hmove
        (fun d sec hsec => hothers { pool with shop := { pool.shop with board := d } } sec hsec) h

/-- A step of a worker is one section at most. -/
theorem board_step_cases (batch : CopyBatch) (tools : CopyTools) (turn : Turn) (pool : CopyPool)
    (k : Nat) :
    (pool.step batch tools turn k).shop.board = pool.shop.board ∨ ∃ sec, sec.setsFlags = false ∧
      (pool.step batch tools turn k).shop.board = pool.shop.board.after sec := by
  rcases step_cases batch tools turn pool k with
    hsame | ⟨worker, worker', next, shop, hk, hchange, hstep⟩
  · exact .inl (by rw [hsame])
  rw [hstep]
  cases hchange with
  | @copy index plan stage htask =>
    show (plan.step tools turn pool.shop stage).2.board = _ ∨ _
    simp only [plan.board_step]
    cases hsec : plan.boardSection? turn stage with
    | none => exact .inl rfl
    | some sec => exact .inr ⟨sec, CopyPlan.setsFlags_boardSection? hsec, rfl⟩
  | _ => exact .inl rfl

/-- The workers do not touch the flags of the dashboard. -/
theorem sameFlags_step (batch : CopyBatch) (tools : CopyTools) (turn : Turn) (pool : CopyPool)
    (k : Nat) : pool.shop.board.SameFlags (pool.step batch tools turn k).shop.board := by
  rcases board_step_cases batch tools turn pool k with hsame | ⟨sec, hflags, hafter⟩
  · rw [hsame]
    exact ⟨rfl, rfl⟩
  · rw [hafter]
    exact Dashboard.sameFlags_after _ hflags

/-- The workers do not tear the dashboard down. -/
theorem live_step (batch : CopyBatch) (tools : CopyTools) (turn : Turn) (pool : CopyPool)
    (k : Nat) : (pool.step batch tools turn k).shop.board.live = pool.shop.board.live := by
  rcases board_step_cases batch tools turn pool k with hsame | ⟨sec, hflags, hafter⟩
  · rw [hsame]
  · rw [hafter]
    refine Dashboard.live_after ?_
    rintro rfl
    exact nomatch hflags

/-- **The dashboard in a run goes through sections.** -/
theorem board_run {allowed : BoardSection → Bool} {moves : List PoolMove}
    (hmoves : ∀ move ∈ moves, move.MadeOf allowed) (batch : CopyBatch) (tools : CopyTools)
    (pool : CopyPool) :
    ∃ sections, (pool.run batch tools moves).shop.board = pool.shop.board.run sections := by
  refine run_of_sections (P := fun pool' => ∃ sections, pool'.shop.board =
    pool.shop.board.run sections) ?_ ?_ hmoves ⟨[], rfl⟩
  · rintro pool' turn k ⟨sections, hboard⟩
    rcases board_step_cases batch tools turn pool' k with hsame | ⟨sec, -, hafter⟩
    · exact ⟨sections, hsame.trans hboard⟩
    · exact ⟨sections ++ [sec], by rw [hafter, hboard, Dashboard.run_snoc]⟩
  · rintro pool' sec - ⟨sections, hboard⟩
    exact ⟨sections ++ [sec], by rw [onBoard, hboard, Dashboard.run_snoc]⟩

/-- So a dashboard with a past has one at the end of a run. -/
theorem board_copyAllDuring {surface : Surface} {interval : Nat} {sections : List BoardSection}
    {disk : Disk} {allowed : BoardSection → Bool} {moves : List PoolMove}
    (hmoves : ∀ move ∈ moves, move.MadeOf allowed) (jobs : List CopyJob) (maxConcurrent : Nat)
    (tools : CopyTools) :
    ∃ sections', (copyAllDuring jobs maxConcurrent tools moves
      ⟨(Dashboard.fresh surface interval).run sections, disk⟩).shop.board =
        (Dashboard.fresh surface interval).run sections' := by
  obtain ⟨sections', hboard⟩ := board_run hmoves (.of jobs) tools
    (start jobs maxConcurrent ⟨(Dashboard.fresh surface interval).run sections, disk⟩)
  refine ⟨sections ++ sections', ?_⟩
  rw [Dashboard.run_append]
  exact hboard

/-- The steps of the workers keep it, and so does what the user calls, up to the teardown. -/
structure IsKept (batch : CopyBatch) (tools : CopyTools) (P : CopyPool → Prop) : Prop where
  /-- A step of a worker keeps it. -/
  step : ∀ pool turn k, P pool → P (pool.step batch tools turn k)
  /-- A section of the user keeps it. -/
  others : ∀ pool sec, sec.isOfUser = true → sec ≠ .teardown → P pool → P (pool.onBoard sec)

/-- **What is kept holds at the end of a run**, if nothing was torn down, and otherwise what it
has become then. -/
theorem run_to_teardown {P Q : CopyPool → Prop} (hP : IsKept batch tools P)
    (hQ : IsKept batch tools Q)
    (htear : ∀ pool, pool.shop.board.live = true → P pool → Q (pool.onBoard .teardown))
    {moves : List PoolMove} (hmoves : ∀ move ∈ moves, move.MadeOf BoardSection.isOfUser)
    (h : P pool) :
    let pool' := pool.run batch tools moves
    (pool'.shop.board.live = pool.shop.board.live → P pool') ∧
      (pool'.shop.board.live ≠ pool.shop.board.live → Q pool') := by
  intro pool'
  suffices hrun : pool'.shop.board.live = pool.shop.board.live ∧ P pool' ∨
      pool.shop.board.live = true ∧ pool'.shop.board.live = false ∧ Q pool' by
    rcases hrun with ⟨hsame, hwhole⟩ | ⟨hopen, hclosed, htorn⟩
    · exact ⟨fun _ => hwhole, fun hne => absurd hsame hne⟩
    · have hne : pool'.shop.board.live ≠ pool.shop.board.live := by simp [hopen, hclosed]
      exact ⟨fun hsame => absurd hsame hne, fun _ => htorn⟩
  refine run_of_sections (P := fun pool' => pool'.shop.board.live = pool.shop.board.live ∧
    P pool' ∨ pool.shop.board.live = true ∧ pool'.shop.board.live = false ∧ Q pool') ?_ ?_ hmoves
    (.inl ⟨rfl, h⟩)
  · intro pool' turn k hrun
    rw [live_step]
    rcases hrun with ⟨hsame, hwhole⟩ | ⟨hopen, hclosed, htorn⟩
    · exact .inl ⟨hsame, hP.step pool' turn k hwhole⟩
    · exact .inr ⟨hopen, hclosed, hQ.step pool' turn k htorn⟩
  · intro pool' sec hsec hrun
    by_cases htear' : sec = .teardown
    · subst htear'
      cases hlive : pool'.shop.board.live with
      | false =>
        -- once is enough
        have hidle : pool'.onBoard .teardown = pool' := by
          rw [onBoard, Dashboard.after, Dashboard.teardown, hlive]
          rfl
        rw [hidle]
        exact hrun
      | true =>
        have hclosed : (pool'.onBoard .teardown).shop.board.live = false := by
          show pool'.shop.board.teardown.live = false
          rw [Dashboard.teardown, if_pos hlive]
        rcases hrun with ⟨hsame, hwhole⟩ | ⟨-, hclosed', -⟩
        · exact .inr ⟨hsame.symm.trans hlive, hclosed, htear pool' hlive hwhole⟩
        · exact absurd (hlive.symm.trans hclosed') (by simp)
    · have hlive : (pool'.onBoard sec).shop.board.live = pool'.shop.board.live :=
        Dashboard.live_after htear'
      rw [hlive]
      rcases hrun with ⟨hsame, hwhole⟩ | ⟨hopen, hclosed, htorn⟩
      · exact .inl ⟨hsame, hP.others pool' sec hsec htear' hwhole⟩
      · exact .inr ⟨hopen, hclosed, hQ.others pool' sec hsec htear' htorn⟩

theorem isCancelled_run {allowed : BoardSection → Bool} {moves : List PoolMove}
    (hmoves : ∀ move ∈ moves, move.MadeOf allowed) (h : pool.shop.board.isCancelled = true) :
    (pool.run batch tools moves).shop.board.isCancelled = true := by
  obtain ⟨sections, hboard⟩ := board_run hmoves batch tools pool
  rw [hboard]
  exact Dashboard.isCancelled_run h sections

end CopyPool
end TransferBoard
