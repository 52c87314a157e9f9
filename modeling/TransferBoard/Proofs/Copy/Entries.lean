import TransferBoard.Proofs.Board.Busy
import TransferBoard.Proofs.Copy.Calls
import TransferBoard.Proofs.Copy.Order

/-!
# The entries of copies

A copy announces its transfer once it has made its temporary file, and on every way out it ends
the entry that it has announced: with its last byte, or when it gives up.  So the active entries
are those of before and one for each copy that is between the two, if its entry is there.

## Main definitions

* `CopyStage.tracked?` — the entry that a copy has announced and not yet ended.
* `CopyPlan.EntryStep` — what a step of a copy does to its entry.
* `Worker.held` — one, if the worker has such an entry and it is there.
* `CopyPool.Balanced` — the invariant: the active entries are counted by the workers.

## Main results

* `Next.entryStep` — a step announces an entry, ends it, or leaves it.
* `balanced_step`, `balanced_run` — every step keeps the balance, and so does every run.
* `Balanced.activeCount_eq` — when all workers have gone, there are as many active entries as
  before.
-/

namespace TransferBoard

namespace CopyStage

/-- The entry that the copy has announced and not yet ended. -/
def tracked? : CopyStage → Option Handle
  | showing _ _ h => some h
  | checking run | reading run | writing run _ | reporting run _ | drawing run | syncing run
  | .renaming run | discarding run _ | stopping run _ | finishing run => some run.handle
  | _ => none

end CopyStage

namespace CopyPlan

/-- What a step of a copy does to its entry. -/
inductive EntryStep (plan : CopyPlan) (turn : Turn) (w : Workshop) (stage next : CopyStage) :
    Prop where
  /-- It announces the entry. -/
  | announces {total : Nat}
    (makes : plan.boardSection? turn stage = some (.track (plan.request total) turn.now))
    (before : stage.tracked? = none)
    (after : next.tracked? = some (w.board.track (plan.request total) turn.now).1)
  /-- It ends the entry. -/
  | ends {h : Handle} {sec : BoardSection} (makes : plan.boardSection? turn stage = some sec)
    (ended : sec.ends? = some h) (before : stage.tracked? = some h) (after : next.tracked? = none)
  /-- It leaves the entry. -/
  | leaves (makes : ∀ sec, plan.boardSection? turn stage = some sec → sec.isQuiet = true)
    (same : next.tracked? = stage.tracked?)

/-- **A step announces the entry of its copy, ends it or leaves it.** -/
theorem Next.entryStep {plan : CopyPlan} {turn : Turn} {w : Workshop} {stage next : CopyStage}
    (h : plan.Next turn w stage next) : plan.EntryStep turn w stage next := by
  cases h with
  | announced => exact .announces rfl rfl rfl
  | finished => exact .ends rfl rfl rfl rfl
  | stopped => exact .ends rfl rfl rfl rfl
  | unstopped => exact .ends rfl rfl rfl rfl
  | waits blocked =>
    have hnone : plan.boardSection? turn stage = none := by
      cases stage <;> first | rfl | exact absurd blocked (by simp [CopyStage.isBlocked])
    exact .leaves (fun sec hsec => absurd (hnone.symm.trans hsec) (by simp)) rfl
  | _ => exact .leaves (fun sec hsec => by cases hsec <;> rfl) rfl

end CopyPlan

/-- The entry that the worker has announced and not yet ended. -/
def Worker.tracked? (worker : Worker) : Option Handle :=
  match worker.task with
  | .copying _ _ stage => stage.tracked?
  | _ => none

/-- One, if the worker has announced an entry that is there. -/
def Worker.held (d : Dashboard) (worker : Worker) : Nat :=
  if (worker.tracked?.bind d.entry?).isSome then 1 else 0

/-- A worker holds as much on a dashboard that keeps its entry. -/
theorem Worker.held_of_keeps {d d' : Dashboard} {worker : Worker}
    (hkeeps : ∀ h, worker.tracked? = some h → d.Keeps d' h)
    (hactive : ∀ h, worker.tracked? = some h → ∀ e, d.entry? h = some e → e.active = true) :
    worker.held d' = worker.held d := by
  have hsome : (worker.tracked?.bind d'.entry?).isSome = (worker.tracked?.bind d.entry?).isSome := by
    cases htracked : worker.tracked? with
    | none => rfl
    | some h =>
      rw [Option.bind_some, Option.bind_some]
      -- an active entry that is kept is found afterwards, and none is found that was not there
      have hkeep := hkeeps h htracked
      cases hfinds : d.entry? h with
      | some e => rw [hkeep.finds e hfinds (hactive h htracked e hfinds), Option.isSome_some]
      | none =>
        cases hfinds' : d'.entry? h with
        | none => rfl
        | some e =>
          obtain ⟨e₀, hfinds₀, -⟩ := hkeep.found e hfinds'
          exact nomatch hfinds.symm.trans hfinds₀
  rw [held, held, hsome]

/-- A worker holds what its handle finds. -/
theorem Worker.held_of_tracked? {d : Dashboard} {worker : Worker} {h : Handle}
    (htracked : worker.tracked? = some h) :
    worker.held d = if (d.entry? h).isSome then 1 else 0 := by
  rw [held, htracked, Option.bind_some]

theorem Worker.held_of_none {d : Dashboard} {worker : Worker} (htracked : worker.tracked? = none) :
    worker.held d = 0 := by
  rw [held, htracked]
  rfl

namespace CopyPool

variable {batch : CopyBatch} {pool : CopyPool} {base k next : Nat} {worker worker' : Worker}
  {d : Dashboard} {disk : Disk} {sec : BoardSection}

/-- The active entries are those of before and one for each worker that holds one. -/
structure Balanced (base : Nat) (pool : CopyPool) : Prop where
  /-- The detached handle finds nothing. -/
  detached : pool.shop.board.entry? Handle.detached = none
  /-- What a worker has announced was given out, and is active if it is there. -/
  given : ∀ worker ∈ pool.workers, ∀ h, worker.tracked? = some h →
    h.generation ≤ pool.shop.board.state.allocations ∧
      ∀ e, pool.shop.board.entry? h = some e → e.active = true
  /-- No two workers have announced the same entry. -/
  apart : ∀ (j j' : Nat) other other' h, j ≠ j' → pool.workers[j]? = some other →
    pool.workers[j']? = some other' → other.tracked? = some h → other'.tracked? = some h →
    pool.shop.board.entry? h = none
  /-- The number of active entries. -/
  count : pool.shop.board.state.activeCount =
    base + (pool.workers.map (Worker.held pool.shop.board)).sum

theorem sum_held_eq_zero {workers : List Worker} (h : ∀ worker ∈ workers, worker.held d = 0) :
    (workers.map (Worker.held d)).sum = 0 := by
  rw [List.map_eq_replicate_iff.mpr h, List.sum_replicate_nat, Nat.mul_zero]

theorem balanced_start (jobs : List CopyJob) (maxConcurrent : Nat) {shop : Workshop}
    (hdetached : shop.board.entry? Handle.detached = none) :
    (start jobs maxConcurrent shop).Balanced shop.board.state.activeCount := by
  have hidle : ∀ worker ∈ (start jobs maxConcurrent shop).workers, worker.tracked? = none := by
    intro worker hworker
    rw [List.eq_of_mem_replicate hworker]
    rfl
  refine ⟨hdetached, ?_, ?_, ?_⟩
  · intro worker hworker h htracked
    exact nomatch (hidle worker hworker).symm.trans htracked
  · intro j j' other other' h _ hj _ htracked
    exact nomatch (hidle other (List.mem_of_getElem? hj)).symm.trans htracked
  · have hheld := sum_held_eq_zero (d := shop.board)
      fun worker hworker => Worker.held_of_none (hidle worker hworker)
    exact (congrArg (_ + ·) hheld).symm

/-- Another dashboard that keeps the entries of the workers keeps the balance. -/
theorem Balanced.keep (h : pool.Balanced base)
    (hdetached : d.entry? Handle.detached = none)
    (hmore : pool.shop.board.state.allocations ≤ d.state.allocations)
    (hkeeps : ∀ worker ∈ pool.workers, ∀ h', worker.tracked? = some h' →
      pool.shop.board.Keeps d h')
    (hcount : d.state.activeCount = pool.shop.board.state.activeCount) :
    Balanced base ⟨pool.workers, pool.next, ⟨d, disk⟩⟩ where
  detached := hdetached
  given worker hworker h' htracked := by
    obtain ⟨hgiven, hactive⟩ := h.given worker hworker h' htracked
    refine ⟨Nat.le_trans hgiven hmore, fun e he => ?_⟩
    obtain ⟨e₀, he₀, hsame⟩ := (hkeeps worker hworker h' htracked).found e he
    exact hsame.trans (hactive e₀ he₀)
  apart j j' other other' h' hne hj hj' htracked htracked' := by
    have hnone := h.apart j j' other other' h' hne hj hj' htracked htracked'
    refine Option.eq_none_iff_forall_ne_some.mpr fun e he => ?_
    obtain ⟨e₀, he₀, -⟩ := (hkeeps other (List.mem_of_getElem? hj) h' htracked).found e he
    exact nomatch hnone.symm.trans he₀
  count := by
    -- each worker holds as many entries as before, so the sum is the same
    have hheld : pool.workers.map (Worker.held d) =
        pool.workers.map (Worker.held pool.shop.board) := by
      refine List.map_congr_left fun worker hworker => ?_
      exact Worker.held_of_keeps (hkeeps worker hworker)
        fun h' htracked => (h.given worker hworker h' htracked).2
    show d.state.activeCount = base + (pool.workers.map (Worker.held d)).sum
    rw [hcount, hheld, h.count]

/-- A worker goes on, and the dashboard keeps the entries of the others. -/
theorem Balanced.set (h : pool.Balanced base) (hk : pool.workers[k]? = some worker)
    (hdetached : d.entry? Handle.detached = none)
    (hmore : pool.shop.board.state.allocations ≤ d.state.allocations)
    (hkeeps : ∀ (j : Nat) other h', j ≠ k → pool.workers[j]? = some other →
      other.tracked? = some h' → pool.shop.board.Keeps d h')
    (hown : ∀ h', worker'.tracked? = some h' → h'.generation ≤ d.state.allocations ∧
      ∀ e, d.entry? h' = some e → e.active = true)
    (hapart : ∀ (j : Nat) other h', j ≠ k → pool.workers[j]? = some other →
      other.tracked? = some h' → worker'.tracked? = some h' → d.entry? h' = none)
    (hcount : d.state.activeCount + worker.held pool.shop.board =
      pool.shop.board.state.activeCount + worker'.held d) :
    Balanced base ⟨pool.workers.set k worker', next, ⟨d, disk⟩⟩ := by
  refine ⟨hdetached, ?_, ?_, ?_⟩
  · intro other hother h' htracked
    obtain ⟨j, hj⟩ := List.mem_iff_getElem?.mp hother
    rcases set_cases hj with ⟨-, rfl⟩ | ⟨hne, hj⟩
    · exact hown h' htracked
    · obtain ⟨hgiven, hactive⟩ := h.given other (List.mem_of_getElem? hj) h' htracked
      refine ⟨Nat.le_trans hgiven hmore, fun e he => ?_⟩
      obtain ⟨e₀, he₀, hsame⟩ := (hkeeps j other h' hne hj htracked).found e he
      exact hsame.trans (hactive e₀ he₀)
  · intro j j' other other' h' hne hset hset' htracked htracked'
    -- two workers that may be the changed one: not both, one of the two, or neither
    rcases set_cases hset with ⟨heq, rfl⟩ | ⟨hjk, hj⟩ <;>
      rcases set_cases hset' with ⟨heq', rfl⟩ | ⟨hjk', hj'⟩
    · exact absurd (heq.trans heq'.symm) hne
    · exact hapart j' other' h' hjk' hj' htracked' htracked
    · exact hapart j other h' hjk hj htracked htracked'
    · have hnone := h.apart j j' other other' h' hne hj hj' htracked htracked'
      refine Option.eq_none_iff_forall_ne_some.mpr fun e he => ?_
      obtain ⟨e₀, he₀, -⟩ := (hkeeps j other h' hjk hj htracked).found e he
      exact nomatch hnone.symm.trans he₀
  · -- the sum changes by what the changed worker holds
    have hothers : ∀ (j : Nat) other, j ≠ k → pool.workers[j]? = some other →
        other.held d = other.held pool.shop.board := fun j other hne hj =>
      Worker.held_of_keeps (fun h' => hkeeps j other h' hne hj)
        fun h' htracked => (h.given other (List.mem_of_getElem? hj) h' htracked).2
    have hsum : ((pool.workers.set k worker').map (Worker.held d)).sum +
        worker.held pool.shop.board =
          (pool.workers.map (Worker.held pool.shop.board)).sum + worker'.held d :=
      sum_map_set_congr worker' hk hothers
    have hbefore := h.count
    show d.state.activeCount = base + ((pool.workers.set k worker').map (Worker.held d)).sum
    omega

/-- A worker goes on with the same entry. -/
theorem Balanced.retask (h : pool.Balanced base) (hk : pool.workers[k]? = some worker)
    (hsame : worker'.tracked? = worker.tracked?) :
    Balanced base ⟨pool.workers.set k worker', next, pool.shop⟩ := by
  have hheld : worker'.held pool.shop.board = worker.held pool.shop.board := by
    rw [Worker.held, Worker.held, hsame]
  refine h.set hk h.detached (Nat.le_refl _) (fun _ _ h' _ _ _ => .refl _ h') ?_ ?_
    (by rw [hheld])
  · rw [hsame]
    exact h.given worker (List.mem_of_getElem? hk)
  · rw [hsame]
    intro j other h' hne hj htracked htracked'
    exact h.apart j k other worker h' hne hj hk htracked htracked'

/-- Others do something to the dashboard that is quiet. -/
theorem Balanced.quiet (h : pool.Balanced base) (hquiet : sec.isQuiet = true) :
    Balanced base ⟨pool.workers, pool.next, ⟨pool.shop.board.after sec, disk⟩⟩ := by
  refine h.keep (Dashboard.detached_finds_none_after h.detached sec)
    (Dashboard.allocations_le_after _ sec) ?_ (Dashboard.activeCount_quiet _ hquiet)
  intro worker hworker h' htracked
  refine Dashboard.keeps_after h.detached (h.given worker hworker h' htracked).1
    (BoardSection.ne_teardown_of_isQuiet hquiet) ?_
  rw [BoardSection.ends?_of_isQuiet hquiet]
  exact nofun

/-- A copy announces its entry. -/
theorem Balanced.announce (h : pool.Balanced base) (hk : pool.workers[k]? = some worker)
    (r : EntryRequest) (now : Moment) (hbefore : worker.tracked? = none)
    (hafter : worker'.tracked? = some (pool.shop.board.track r now).1) :
    Balanced base ⟨pool.workers.set k worker', next, ⟨(pool.shop.board.track r now).2, disk⟩⟩ := by
  obtain ⟨hgiven, -⟩ := Dashboard.entry?_track h.detached r now
  obtain ⟨hcount, hactive⟩ := Dashboard.activeCount_track h.detached r now
  have hkeeps : ∀ (j : Nat) other h', pool.workers[j]? = some other → other.tracked? = some h' →
      pool.shop.board.Keeps (pool.shop.board.track r now).2 h' := by
    intro j other h' hj htracked
    have hsec : BoardSection.track r now ≠ .teardown := nofun
    exact Dashboard.keeps_after h.detached
      (h.given other (List.mem_of_getElem? hj) h' htracked).1 hsec nofun
  refine h.set hk (Dashboard.detached_finds_none_after h.detached (.track r now))
    (Dashboard.allocations_le_after _ (.track r now))
    (fun j other h' _ hj htracked => hkeeps j other h' hj htracked) ?_ ?_ ?_
  · intro h' htracked
    obtain rfl := Option.some.inj (hafter.symm.trans htracked)
    exact ⟨hgiven, hactive⟩
  · -- the new entry has a number that no other worker was given
    intro j other h' hne hj htracked htracked'
    obtain rfl := Option.some.inj (hafter.symm.trans htracked')
    rcases pool.shop.board.handle_track r now with heq | hnew
    · rw [heq]
      exact Dashboard.detached_finds_none_after h.detached (.track r now)
    · have hold := (h.given other (List.mem_of_getElem? hj) _ htracked).1
      omega
  · rw [hcount, Worker.held_of_none hbefore, Worker.held_of_tracked? hafter, Nat.add_zero]

/-- A copy ends its entry. -/
theorem Balanced.finish (h : pool.Balanced base) (hk : pool.workers[k]? = some worker)
    {own : Handle} (hends : sec.ends? = some own) (hbefore : worker.tracked? = some own)
    (hafter : worker'.tracked? = none) :
    Balanced base ⟨pool.workers.set k worker', next, ⟨pool.shop.board.after sec, disk⟩⟩ := by
  have hactive := (h.given worker (List.mem_of_getElem? hk) own hbefore).2
  refine h.set hk (Dashboard.detached_finds_none_after h.detached sec)
    (Dashboard.allocations_le_after _ sec) ?_ ?_ ?_ ?_
  · intro j other h' hne hj htracked
    by_cases hsame : h' = own
    · -- an entry that two workers have announced is not there
      subst hsame
      exact Dashboard.keeps_of_finds_none h.detached
        (h.given other (List.mem_of_getElem? hj) h' htracked).1
        (h.apart j k other worker h' hne hj hk htracked hbefore) sec
    · refine Dashboard.keeps_after h.detached
        (h.given other (List.mem_of_getElem? hj) h' htracked).1 ?_ ?_
      · rintro rfl
        exact nomatch hends
      · rw [hends]
        exact fun heq => hsame (Option.some.inj heq).symm
  · intro h' htracked
    exact nomatch hafter.symm.trans htracked
  · intro j other h' _ _ _ htracked
    exact nomatch hafter.symm.trans htracked
  · rw [Worker.held_of_none hafter, Worker.held_of_tracked? hbefore, Nat.add_zero]
    exact Dashboard.activeCount_ends hends hactive

/-! ### Steps and runs -/

/-- **A step of a worker keeps the balance.** -/
theorem balanced_step (h : pool.Balanced base) (batch : CopyBatch) (tools : CopyTools) (turn : Turn)
    (k : Nat) : (pool.step batch tools turn k).Balanced base := by
  rcases step_cases batch tools turn pool k with
    hsame | ⟨worker, worker', next, shop, hk, hchange, hstep⟩
  · rw [hsame]; exact h
  rw [hstep]
  cases hchange with
  | take htask _ => exact h.retask hk (by rw [Worker.tracked?, Worker.tracked?, htask])
  | leave htask _ => exact h.retask hk (by rw [Worker.tracked?, Worker.tracked?, htask])
  | refuse htask _ => exact h.retask hk (by rw [Worker.tracked?, Worker.tracked?, htask]; rfl)
  | start htask _ => exact h.retask hk (by rw [Worker.tracked?, Worker.tracked?, htask]; rfl)
  | note htask => exact h.retask hk (by rw [Worker.tracked?, Worker.tracked?, htask]; rfl)
  | @copy index plan stage htask =>
    have htracked : worker.tracked? = stage.tracked? := by rw [Worker.tracked?, htask]
    have hboard := plan.board_step tools turn pool.shop stage
    have hnext := (plan.next_step tools turn pool.shop stage).entryStep
    generalize plan.step tools turn pool.shop stage = after at hboard hnext
    -- a copy makes its entry, ends it, or leaves the entries in balance
    obtain ⟨stage', board, disk⟩ := after
    cases hnext with
    | announces makes before after =>
      rw [makes] at hboard
      obtain rfl : board = _ := hboard
      exact h.announce hk _ _ (htracked.trans before) after
    | ends makes ended before after =>
      rw [makes] at hboard
      obtain rfl : board = _ := hboard
      exact h.finish hk ended (htracked.trans before) after
    | leaves makes same =>
      have hquiet : Balanced base ⟨pool.workers, pool.next, ⟨board, disk⟩⟩ := by
        cases hsec : plan.boardSection? turn stage with
        | none =>
          rw [hsec] at hboard
          obtain rfl : board = _ := hboard
          exact ⟨h.detached, h.given, h.apart, h.count⟩
        | some sec =>
          rw [hsec] at hboard
          obtain rfl : board = _ := hboard
          exact h.quiet (makes sec hsec)
      exact hquiet.retask hk (same.trans htracked.symm)

/-- A teardown leaves no entry, so nobody holds one. -/
theorem Balanced.teardown (h : pool.Balanced base) (hlive : pool.shop.board.live = true) :
    (pool.onBoard .teardown).Balanced 0 := by
  obtain ⟨hcount, hnone⟩ := Dashboard.activeCount_teardown hlive
  have hallocations : pool.shop.board.teardown.state.allocations =
      pool.shop.board.state.allocations := by
    simp only [Dashboard.teardown, hlive, if_true]
    rfl
  refine ⟨hnone _, ?_, fun _ _ _ _ h' _ _ _ _ _ => hnone h', ?_⟩
  · intro worker hworker h' htracked
    refine ⟨?_, fun e he => absurd ((hnone h').symm.trans he) (by simp)⟩
    exact Nat.le_trans (h.given worker hworker h' htracked).1 (Nat.le_of_eq hallocations.symm)
  · -- no handle finds an entry any more, so nobody holds one
    have hheld : ((pool.onBoard .teardown).workers.map
        (Worker.held pool.shop.board.teardown)).sum = 0 := by
      refine sum_held_eq_zero fun worker _ => ?_
      cases htracked : worker.tracked? with
      | none => exact Worker.held_of_none htracked
      | some h' => rw [Worker.held_of_tracked? htracked, hnone]; rfl
    show pool.shop.board.teardown.state.activeCount = 0 + _
    rw [hcount]
    exact ((Nat.zero_add _).trans hheld).symm

/-- The workers and the user keep the balance. -/
theorem isKept_balanced (batch : CopyBatch) (tools : CopyTools) (base : Nat) :
    IsKept batch tools (Balanced base) where
  step pool turn k h := balanced_step h batch tools turn k
  others pool sec hsec htear h := by
    have hquiet : sec.isQuiet = true := by
      cases sec with
      | applyKey key => rfl
      | redraw forced now => rfl
      | teardown => exact absurd rfl htear
      | _ => exact nomatch hsec
    exact h.quiet hquiet

/-- **A run keeps the balance**, and a teardown starts a new one from nothing. -/
theorem balanced_run (h : pool.Balanced base) (batch : CopyBatch) (tools : CopyTools)
    {moves : List PoolMove} (hmoves : ∀ move ∈ moves, move.MadeOf BoardSection.isOfUser) :
    let pool' := pool.run batch tools moves
    (pool'.shop.board.live = pool.shop.board.live → pool'.Balanced base) ∧
      (pool'.shop.board.live ≠ pool.shop.board.live → pool'.Balanced 0) :=
  run_to_teardown (isKept_balanced batch tools base) (isKept_balanced batch tools 0)
    (fun _ hlive hwhole => hwhole.teardown hlive) hmoves h

/-- **When all workers have gone, there are as many active entries as before.** -/
theorem Balanced.activeCount_eq (h : pool.Balanced base)
    (hgone : ∀ worker ∈ pool.workers, worker.task = .gone) :
    pool.shop.board.state.activeCount = base := by
  rw [h.count, sum_held_eq_zero fun worker hworker => ?_, Nat.add_zero]
  exact Worker.held_of_none (by rw [Worker.tracked?, hgone worker hworker])

end CopyPool
end TransferBoard
