import TransferBoard.Proofs.Board.Flags
import TransferBoard.Proofs.Lists

/-!
# Waiting while transfers are paused

A producer that finds transfers paused gives the lock back and goes to sleep.  Whoever
changes the flags gives the lock back as well, and only then wakes all those that sleep.  In
between other threads take the lock, so a sleeper may be asleep although nothing keeps it;
but then there is still somebody who is going to wake it.

Everything between two moments at which a thread takes or gives back the lock is one step
here, going to sleep is one step with giving back the lock, and waking wakes everyone.  A
sleeper may also wake for no reason.

## Main definitions

* `ThreadStage` — what a thread does, as far as waiting is concerned.
* `SharedBoard`, `SharedBoard.step` — the dashboard with its threads, and a step of one of
  them.
* `ThreadMove`, `SharedBoard.run` — what happens next, and all that happens.
* `SharedBoard.Attended` — the invariant: whoever sleeps is kept asleep by the flags or is
  going to be woken.

## Main results

* `board_press`, `board_close` — a call that is made of these steps is the call of the
  dashboard.
* `attended_after`, `attended_run` — every step keeps the invariant.
* `no_wakeup_is_lost` — who sleeps, and what those that wait are told.
-/

namespace TransferBoard

/-- What a thread does, as far as waiting is concerned. -/
inductive ThreadStage where
  /-- It is between two calls. -/
  | free
  /-- It waits while transfers are paused, and looks at the flags next. -/
  | looking
  /-- It has given back the lock and sleeps. -/
  | asleep
  /-- Its wait is over, and it has been told what to do. -/
  | told (flow : Flow)
  /-- It has a key, which takes its effect next. -/
  | pressing (key : Key)
  /-- It tears the dashboard down next. -/
  | closing
  /-- It has given back the lock and wakes the others next; after that it may have to show
  the state. -/
  | waking (shows : Bool)
  /-- It shows the state next. -/
  | showing
  deriving DecidableEq, Repr

namespace ThreadStage

/-- The thread may make a call. -/
def isFree : ThreadStage → Bool
  | free | told _ => true
  | _ => false

/-- The thread waits. -/
def isWaiting : ThreadStage → Bool
  | looking | asleep => true
  | _ => false

/-- The thread has a key or tears down, and is not done with it. -/
def isActing : ThreadStage → Bool
  | pressing _ | closing | waking _ | showing => true
  | _ => false

/-- What becomes of the thread when all are woken. -/
def woken : ThreadStage → ThreadStage
  | asleep => looking
  | stage => stage

end ThreadStage

/-- A call of the dashboard that may make a thread sleep, or end its sleep.  The pause and
the cancel are keys. -/
inductive ThreadCall where
  /-- To wait while transfers are paused. -/
  | wait
  /-- To have a key take its effect. -/
  | press (key : Key)
  /-- To tear the dashboard down. -/
  | close

/-- How a call starts. -/
def ThreadCall.start : ThreadCall → ThreadStage
  | wait => .looking
  | press key => .pressing key
  | close => .closing

/-- The dashboard with the threads that use it. -/
structure SharedBoard where
  /-- The dashboard. -/
  board : Dashboard
  /-- The threads. -/
  threads : List ThreadStage

/-- What happens next. -/
inductive ThreadMove where
  /-- A thread makes a call. -/
  | call (k : Nat) (c : ThreadCall)
  /-- A thread takes a step. -/
  | step (k : Nat) (now : Moment)
  /-- A thread that sleeps wakes for no reason. -/
  | rouse (k : Nat)
  /-- A producer does something else to the dashboard. -/
  | produce (sec : BoardSection)

namespace SharedBoard

/-- A step of a thread.  One that is free or asleep takes none. -/
def step (s : SharedBoard) (k : Nat) (now : Moment) : SharedBoard :=
  match s.threads[k]? with
  | some .looking =>
    match s.board.flow? with
    | none => { s with threads := s.threads.set k .asleep }
    | some flow => { s with threads := s.threads.set k (.told flow) }
  | some (.pressing key) =>
    { board := (s.board.applyKey key).2
      threads := s.threads.set k (if (s.board.applyKey key).1 then .waking true else .free) }
  | some .closing =>
    { board := s.board.teardown, threads := s.threads.set k (.waking false) }
  | some (.waking shows) =>
    { s with
      threads := (s.threads.map ThreadStage.woken).set k (if shows then .showing else .free) }
  | some .showing =>
    { board := s.board.redraw true now, threads := s.threads.set k .free }
  | _ => s

/-- What happens next.  A producer does not set flags. -/
def after (s : SharedBoard) : ThreadMove → SharedBoard
  | .call k c =>
    match s.threads[k]? with
    | some stage => if stage.isFree then { s with threads := s.threads.set k c.start } else s
    | none => s
  | .step k now => s.step k now
  | .rouse k =>
    if s.threads[k]? = some .asleep then { s with threads := s.threads.set k .looking } else s
  | .produce sec => if sec.setsFlags then s else { s with board := s.board.after sec }

/-- All that happens. -/
def run (s : SharedBoard) (moves : List ThreadMove) : SharedBoard := moves.foldl after s

/-- A dashboard with a number of threads that have not made a call. -/
def start (board : Dashboard) (threads : Nat) : SharedBoard :=
  ⟨board, List.replicate threads .free⟩

variable {s : SharedBoard} {k : Nat}

/-! ### Calls -/

theorem after_call (hk : s.threads[k]? = some .free) (c : ThreadCall) :
    s.after (.call k c) = ⟨s.board, s.threads.set k c.start⟩ := by
  simp only [after, hk, ThreadStage.isFree, if_true]

theorem step_of_pressing {key : Key} (hk : s.threads[k]? = some (.pressing key)) (now : Moment) :
    s.step k now = ⟨(s.board.applyKey key).2,
      s.threads.set k (if (s.board.applyKey key).1 then .waking true else .free)⟩ := by
  rw [step, hk]

theorem step_of_closing (hk : s.threads[k]? = some .closing) (now : Moment) :
    s.step k now = ⟨s.board.teardown, s.threads.set k (.waking false)⟩ := by
  rw [step, hk]

theorem step_of_waking {shows : Bool} (hk : s.threads[k]? = some (.waking shows)) (now : Moment) :
    s.step k now = ⟨s.board,
      (s.threads.map ThreadStage.woken).set k (if shows then .showing else .free)⟩ := by
  rw [step, hk]

theorem step_of_showing (hk : s.threads[k]? = some .showing) (now : Moment) :
    s.step k now = ⟨s.board.redraw true now, s.threads.set k .free⟩ := by
  rw [step, hk]

theorem step_of_free (hk : s.threads[k]? = some .free) (now : Moment) : s.step k now = s := by
  rw [step, hk]

/-- A key that is pressed by one thread alone has the effect that it has on the dashboard. -/
theorem board_press (hk : s.threads[k]? = some .free) (key : Key) (now : Moment) :
    (s.run [.call k (.press key), .step k now, .step k now, .step k now]).board =
      (s.board.pressKey key now).2 := by
  obtain ⟨hlt, -⟩ := List.getElem?_eq_some_iff.mp hk
  have hpressed := step_of_pressing (s := ⟨s.board, s.threads.set k (.pressing key)⟩)
    (List.getElem?_set_self hlt) now
  show (((s.after (.call k (.press key))).step k now).step k now |>.step k now).board = _
  rw [after_call hk, ThreadCall.start, hpressed, Dashboard.pressKey]
  -- a key that changes something wakes the others and draws a frame
  cases hchanged : (s.board.applyKey key).1 with
  | false =>
    have hdone := step_of_free (s := ⟨(s.board.applyKey key).2,
      (s.threads.set k (.pressing key)).set k .free⟩)
      (List.getElem?_set_self (by simpa using hlt)) now
    simp only [hchanged, Bool.false_eq_true, if_false]
    rw [hdone, hdone]
  | true =>
    have hwoken := step_of_waking (s := ⟨(s.board.applyKey key).2,
      (s.threads.set k (.pressing key)).set k (.waking true)⟩)
      (List.getElem?_set_self (by simpa using hlt)) now
    simp only [hchanged, if_true]
    rw [hwoken, step_of_showing]
    exact List.getElem?_set_self (by simpa using hlt)

/-- A dashboard that is torn down by one thread alone is as it is after the teardown. -/
theorem board_close (hk : s.threads[k]? = some .free) (now : Moment) :
    (s.run [.call k .close, .step k now, .step k now]).board = s.board.teardown := by
  obtain ⟨hlt, -⟩ := List.getElem?_eq_some_iff.mp hk
  have hclosed := step_of_closing (s := ⟨s.board, s.threads.set k .closing⟩)
    (List.getElem?_set_self hlt) now
  show ((s.after (.call k .close)).step k now |>.step k now).board = _
  rw [after_call hk, ThreadCall.start, hclosed, step_of_waking]
  exact List.getElem?_set_self (by simpa using hlt)

/-! ### Sleepers -/

/-- Somebody is going to wake those that sleep. -/
def IsWaking (s : SharedBoard) : Prop := ∃ (k : Nat) (shows : Bool), s.threads[k]? = some (.waking shows)

/-- Whoever sleeps is kept asleep by the flags, or is going to be woken. -/
def Attended (s : SharedBoard) : Prop :=
  .asleep ∈ s.threads → s.board.flow? = none ∨ s.IsWaking

theorem attended_start (board : Dashboard) (threads : Nat) : (start board threads).Attended := by
  intro hasleep
  exact absurd (List.eq_of_mem_replicate hasleep) (by simp)

/-- A thread that goes on with something else than waking leaves those that wake. -/
theorem IsWaking.set (h : s.IsWaking) {stage : ThreadStage} (hk : s.threads[k]? = some stage)
    (hstage : ∀ shows, stage ≠ .waking shows) (board : Dashboard) (stage' : ThreadStage) :
    IsWaking ⟨board, s.threads.set k stage'⟩ := by
  obtain ⟨k', shows, hk'⟩ := h
  refine ⟨k', shows, ?_⟩
  rw [List.getElem?_set_ne, hk']
  rintro rfl
  exact hstage shows (Option.some.inj (hk.symm.trans hk'))

/-- A thread that goes on, but neither to sleep nor from waking, leaves the sleepers
attended, if what they are told stays the same. -/
theorem Attended.set (h : s.Attended) {stage stage' : ThreadStage}
    (hk : s.threads[k]? = some stage) (hstage : ∀ shows, stage ≠ .waking shows)
    (hstage' : stage' ≠ .asleep) {board : Dashboard} (hflow : board.flow? = s.board.flow?) :
    Attended ⟨board, s.threads.set k stage'⟩ := by
  intro hasleep
  rcases List.mem_or_eq_of_mem_set hasleep with hmem | heq
  · exact (h hmem).imp (fun hnone => hflow.trans hnone) fun hw => hw.set hk hstage board stage'
  · exact absurd heq.symm hstage'

/-- A thread that is about to wake the others attends to them. -/
theorem isWaking_set (hk : k < s.threads.length) (board : Dashboard) (shows : Bool) :
    IsWaking ⟨board, s.threads.set k (.waking shows)⟩ :=
  ⟨k, shows, List.getElem?_set_self hk⟩

/-- When all are woken nobody sleeps. -/
theorem notMem_woken (threads : List ThreadStage) : .asleep ∉ threads.map ThreadStage.woken := by
  intro hmem
  obtain ⟨stage, -, hstage⟩ := List.mem_map.mp hmem
  cases stage <;> exact absurd hstage (by simp [ThreadStage.woken])

/-- **A step of a thread leaves the sleepers attended.** -/
theorem attended_step (h : s.Attended) (k : Nat) (now : Moment) : (s.step k now).Attended := by
  unfold step
  split
  · next hk =>
    split
    · next hnone => exact fun _ => .inl hnone
    · exact h.set hk (fun _ => ThreadStage.noConfusion) ThreadStage.noConfusion rfl
  · next key hk =>
    obtain ⟨hlt, -⟩ := List.getElem?_eq_some_iff.mp hk
    split
    · exact fun _ => .inr (isWaking_set hlt _ true)
    · next hchanged =>
      -- a key that changes nothing wakes nobody, and need not
      exact h.set hk (fun _ => ThreadStage.noConfusion) ThreadStage.noConfusion
        (Dashboard.sameFlags_applyKey (Bool.eq_false_iff.mpr hchanged)).flow?
  · next hk =>
    obtain ⟨hlt, -⟩ := List.getElem?_eq_some_iff.mp hk
    exact fun _ => .inr (isWaking_set hlt _ false)
  · next shows hk =>
    intro hasleep
    rcases List.mem_or_eq_of_mem_set hasleep with hmem | heq
    · exact absurd hmem (notMem_woken _)
    · cases shows <;> exact absurd heq (by simp)
  · next hk =>
    exact h.set hk (fun _ => ThreadStage.noConfusion) ThreadStage.noConfusion
      (Dashboard.sameFlags_redraw _ true now).flow?
  · exact h

theorem attended_after (h : s.Attended) (move : ThreadMove) : (s.after move).Attended := by
  cases move with
  | step k now => exact attended_step h k now
  | call k c =>
    -- a new call neither sleeps nor wakes anybody
    rw [after]
    split
    · next stage hk =>
      split
      · next hfree =>
        refine h.set hk ?_ ?_ rfl
        · rintro shows rfl
          exact absurd hfree (by simp [ThreadStage.isFree])
        · cases c <;> exact ThreadStage.noConfusion
      · exact h
    · exact h
  | rouse k =>
    rw [after]
    split
    · next hk => exact h.set hk (fun _ => ThreadStage.noConfusion) ThreadStage.noConfusion rfl
    · exact h
  | produce sec =>
    rw [after]
    split
    · exact h
    · next hflags =>
      -- other sections keep the two flags, so a sleeper has the same reason to sleep
      have hsame := Dashboard.sameFlags_after s.board (Bool.eq_false_iff.mpr hflags)
      exact fun hasleep => (h hasleep).imp (fun hnone => hsame.flow?.trans hnone) id

/-- **Whatever happens, the sleepers stay attended.** -/
theorem attended_run (h : s.Attended) (moves : List ThreadMove) : (s.run moves).Attended := by
  induction moves generalizing s with
  | nil => exact h
  | cons move moves ih => exact ih (attended_after h move)

/-! ### What those that wait are told -/

/-- A thread comes to be told something only in a step in which it looks at the flags. -/
theorem told_of_after {move : ThreadMove} {flow : Flow} (hnot : s.threads[k]? ≠ some (.told flow))
    (htold : (s.after move).threads[k]? = some (.told flow)) : s.board.flow? = some flow := by
  -- a change of one thread to another stage tells this one nothing
  have hset : ∀ {threads : List ThreadStage} {k' : Nat} {stage : ThreadStage},
      (threads.set k' stage)[k]? = some (.told flow) → stage ≠ .told flow →
        threads[k]? = some (.told flow) := by
    intro threads k' stage hget hne
    rcases set_cases hget with ⟨-, heq⟩ | ⟨-, hget⟩
    · exact absurd heq.symm hne
    · exact hget
  cases move with
  | step k' now =>
    rw [after, step] at htold
    split at htold
    · next hk =>
      split at htold
      · exact absurd (hset htold ThreadStage.noConfusion) hnot
      · next flow' hflow =>
        by_cases heq : flow' = flow
        · rw [hflow, heq]
        · exact absurd (hset htold fun h => heq (ThreadStage.told.inj h)) hnot
    · refine absurd (hset htold ?_) hnot
      split <;> exact ThreadStage.noConfusion
    · exact absurd (hset htold ThreadStage.noConfusion) hnot
    · next shows hk =>
      have hmap := hset htold (by split <;> exact ThreadStage.noConfusion)
      rw [List.getElem?_map, Option.map_eq_some_iff] at hmap
      obtain ⟨stage, hstage, hwoken⟩ := hmap
      cases stage with
      | told flow' => exact absurd (hwoken ▸ hstage) hnot
      | _ => exact absurd hwoken (by simp [ThreadStage.woken])
    · exact absurd (hset htold ThreadStage.noConfusion) hnot
    · exact absurd htold hnot
  | call k' c =>
    rw [after] at htold
    split at htold
    · split at htold
      · exact absurd (hset htold (by cases c <;> exact ThreadStage.noConfusion)) hnot
      · exact absurd htold hnot
    · exact absurd htold hnot
  | rouse k' =>
    rw [after] at htold
    split at htold
    · exact absurd (hset htold ThreadStage.noConfusion) hnot
    · exact absurd htold hnot
  | produce sec =>
    rw [after] at htold
    split at htold <;> exact absurd htold hnot

/-- **No wake-up is lost.**  Any number of threads wait, press keys and tear the dashboard
down, in any order of their steps, while producers do what else they do to it.  At every
moment:

* if somebody sleeps although transfers are not paused, or are to end, then some key or
  teardown has given back the lock and is yet to wake the sleepers;
* so when all keys and teardowns are done, whoever sleeps does so because transfers are paused
  and not to end, and if they are not, every thread that waits is told what to do by its next
  step;
* and a thread is told to go on only when transfers are neither paused nor to end, and to end
  only when they are to end. -/
theorem no_wakeup_is_lost (board : Dashboard) (threads : Nat) (moves : List ThreadMove) :
    let s := (start board threads).run moves
    (.asleep ∈ s.threads →
      ¬ (s.board.state.controls.paused = true ∧ s.board.state.controls.cancelled = false) →
      ∃ (k : Nat) (shows : Bool), s.threads[k]? = some (.waking shows)) ∧
    ((∀ stage ∈ s.threads, stage.isActing = false) →
      (.asleep ∈ s.threads →
        s.board.state.controls.paused = true ∧ s.board.state.controls.cancelled = false) ∧
      ∀ flow, s.board.flow? = some flow → ∀ (k : Nat) (stage : ThreadStage),
        s.threads[k]? = some stage → stage.isWaiting = true →
        ∀ now, (s.step k now).threads[k]? = some (.told flow)) ∧
    (∀ (move : ThreadMove) (k : Nat) (flow : Flow), s.threads[k]? ≠ some (.told flow) →
      (s.after move).threads[k]? = some (.told flow) →
      (flow = .go → s.board.state.controls.paused = false ∧
        s.board.state.controls.cancelled = false) ∧
      (flow = .cancelled → s.board.state.controls.cancelled = true)) := by
  intro s
  have hs : s.Attended := attended_run (attended_start board threads) moves
  refine ⟨?_, ?_, ?_⟩
  · intro hasleep hflags
    rcases hs hasleep with hnone | hwaking
    · exact absurd (Dashboard.flow?_eq_none_iff.mp hnone) hflags
    · exact hwaking
  · intro hdone
    -- nobody is about to wake the others, so a sleeper must still be told to wait
    have hkept : .asleep ∈ s.threads → s.board.flow? = none := by
      intro hasleep
      rcases hs hasleep with hnone | ⟨k, shows, hk⟩
      · exact hnone
      · exact absurd (hdone _ (List.mem_of_getElem? hk)) (by simp [ThreadStage.isActing])
    refine ⟨fun hasleep => Dashboard.flow?_eq_none_iff.mp (hkept hasleep), ?_⟩
    intro flow hflow k stage hk hwaits now
    obtain ⟨hlt, -⟩ := List.getElem?_eq_some_iff.mp hk
    -- a waiting thread that is not asleep looks at the flags
    have hlooking : s.threads[k]? = some .looking := by
      cases stage with
      | looking => exact hk
      | asleep => exact absurd (hflow.symm.trans (hkept (List.mem_of_getElem? hk))) (by simp)
      | _ => exact absurd hwaits (by simp [ThreadStage.isWaiting])
    simp only [step, hlooking, hflow]
    exact List.getElem?_set_self hlt
  · intro move k flow hnot htold
    have hflow := told_of_after hnot htold
    constructor
    · rintro rfl
      exact Dashboard.flow?_eq_go_iff.mp hflow
    · rintro rfl
      exact Dashboard.flow?_eq_cancelled_iff.mp hflow

/-- One thread has set the pause, the other one has gone to sleep, roused once for no reason, and
the pause is lifted: first the sleeper has yet to be woken, then it is told to go on. -/
theorem lifted_pause_wakes_the_sleeper :
    let board := Dashboard.fresh (Surface.new 80 24) 0
    let press : List ThreadMove := [.call 0 (.press (.char 'p')), .step 0 0]
    let waits : List ThreadMove :=
      [.step 0 0, .step 0 0, .call 1 .wait, .step 1 0, .rouse 1, .step 1 0]
    let lifted := (start board 2).run (press ++ waits ++ press)
    let woken := (start board 2).run (press ++ waits ++ press ++ [.step 0 0, .step 0 0])
    (lifted.threads = [.waking true, .asleep] ∧
      ∃ (k : Nat) (shows : Bool), lifted.threads[k]? = some (.waking shows)) ∧
    woken.threads = [.free, .looking] ∧
      ∀ now, (woken.step 1 now).threads[1]? = some (.told .go) := by
  intro board press waits lifted woken
  have hlifted := (no_wakeup_is_lost board 2 (press ++ waits ++ press)).1
  have hwoken := (no_wakeup_is_lost board 2
    (press ++ waits ++ press ++ [.step 0 0, .step 0 0])).2.1
  refine ⟨⟨by decide +kernel, hlifted (by decide +kernel) (by decide +kernel)⟩,
    by decide +kernel, ?_⟩
  exact (hwoken (by decide +kernel)).2 .go (by decide +kernel) 1 .looking (by decide +kernel) rfl

end SharedBoard
end TransferBoard
