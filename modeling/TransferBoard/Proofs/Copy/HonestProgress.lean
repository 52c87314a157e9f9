import TransferBoard.Proofs.Copy.Entries
import TransferBoard.Proofs.Copy.Rounds
import TransferBoard.Proofs.Copy.Verdict

/-!
# Honest progress

What the dashboard shows of a copy is what the copy has done.  Whenever it looks whether to go
on, its temporary file holds as many bytes of the source as it has told, and so many are counted
by its entry, as long as its handle finds one and nobody else counts bytes there.

## Main definitions

* `BoardSection.leavesProgress h` — a section that does not count bytes in the entry of a handle.
* `CopyPlan.Shown h n d stage` — what the entry of a copy shows at a stage.
* `CopyPlan.Honest` — the invariant: that, and the handle of the entry has been given out.

## Main results

* `shown_step`, `honest_step` — every step of the copy keeps it.
* `copy_progress_is_honest` — **what was told, what is shown and what is in the temporary file.**
-/

namespace TransferBoard

/-! ### What others leave -/

/-- The section does not count bytes in the entry with a handle. -/
def BoardSection.leavesProgress (h : Handle) : BoardSection → Bool
  | .advance h' _ _ | .markFinished h' => h' ≠ h
  | _ => true

/-- The entry counts the same bytes, and has stopped if it had before. -/
structure Entry.SameProgress (e e' : Entry) : Prop where
  current : e'.current = e.current
  inactive : e.active = false → e'.active = false
  stopped : e.stopped.isSome = true → e'.stopped.isSome = true

theorem Entry.SameProgress.refl (e : Entry) : e.SameProgress e := ⟨rfl, id, id⟩

/-- Such a section leaves the progress of the entry of the handle. -/
theorem BoardSection.sameProgress_editThrough {h : Handle} {sec : BoardSection}
    (hsec : sec.leavesProgress h = true) (e : Entry) : e.SameProgress (sec.editThrough h e) := by
  cases sec with
  | advance h' delta hint =>
    -- only its own copy counts and finishes an entry, so this is another one
    have hne : h' ≠ h := of_decide_eq_true hsec
    simp only [editThrough, edit?, if_neg hne]
    exact .refl e
  | markFinished h' =>
    have hne : h' ≠ h := of_decide_eq_true hsec
    simp only [editThrough, edit?, if_neg hne]
    exact .refl e
  | setPath h' path =>
    simp only [editThrough, edit?]
    split
    · exact ⟨rfl, id, id⟩
    · exact .refl e
  | markStopped h' reason =>
    simp only [editThrough, edit?]
    split
    · exact ⟨rfl, fun _ => rfl, fun _ => rfl⟩
    · exact .refl e
  | settleDigest h' result =>
    simp only [editThrough, edit?]
    split
    · cases result <;> exact ⟨rfl, id, id⟩
    · exact .refl e
  | _ => exact .refl e

/-- A copy that moves pieces, or has moved all of them, is neither given up nor has its name. -/
theorem CopyStage.goes_of_isMoving {stage : CopyStage}
    (hmoves : stage.isChecking = true ∨ stage.isWhole = true) :
    stage.isGivenUp = false ∧ stage.isNamed = false := by
  cases stage with
  | checking run => exact ⟨rfl, rfl⟩
  | syncing run => exact ⟨rfl, rfl⟩
  | «renaming» run => exact ⟨rfl, rfl⟩
  | _ => rcases hmoves with h | h <;> cases h

/-- A copy that has been given up has no active entry any more, and has not got its name. -/
theorem CopyStage.ended_of_isGivenUp {stage : CopyStage} (hup : stage.isGivenUp = true) :
    stage.tracked? = none ∧ stage.isNamed = false := by
  cases stage with
  | showingStop failure => exact ⟨rfl, rfl⟩
  | ended result =>
    rcases result with e | (p | _)
    · exact ⟨rfl, rfl⟩
    · cases hup
    · exact ⟨rfl, rfl⟩
  | _ => cases hup

namespace CopyPlan

variable {plan : CopyPlan} {tools : CopyTools} {turn : Turn} {w : Workshop} {d₀ : Disk}
  {bytes : Bytes} {stage : CopyStage} {n : Nat} {steps : List (CopyStage × Workshop)}
  {c : CopyStage × Workshop} {h : Handle} {d : Dashboard}

/-! ### What the entry shows -/

/-- What the entry of a copy shows at a stage, if it is there. -/
inductive Shown (h : Handle) (n : Nat) (d : Dashboard) : CopyStage → Prop where
  /-- It counts the bytes that have been told. -/
  | tracked {stage : CopyStage} (mine : stage.tracked? = some h)
    (entry : ∀ e, d.entry? h = some e → e.current.toNat = n) : Shown h n d stage
  /-- It has stopped, and counts them still. -/
  | stopped {stage : CopyStage} (up : stage.isGivenUp = true)
    (entry : ∀ e, d.entry? h = some e →
      e.active = false ∧ e.stopped.isSome = true ∧ e.current.toNat = n) : Shown h n d stage
  /-- The copy has its name. -/
  | named {stage : CopyStage} (done : stage.isNamed = true) : Shown h n d stage

/-- A section that leaves the progress of the entry leaves what it shows. -/
theorem Shown.after (hshown : Shown h n d stage) (hdetached : d.entry? Handle.detached = none)
    (hgiven : h.generation ≤ d.state.allocations) {sec : BoardSection}
    (hsec : sec.leavesProgress h = true) : Shown h n (d.after sec) stage := by
  cases hshown with
  | named done => exact .named done
  | tracked mine entry =>
    refine .tracked mine fun e hfinds => ?_
    obtain ⟨e₀, hfinds₀, rfl⟩ := Dashboard.entry?_after hdetached hgiven hfinds
    rw [(BoardSection.sameProgress_editThrough hsec e₀).current]
    exact entry e₀ hfinds₀
  | stopped up entry =>
    refine .stopped up fun e hfinds => ?_
    obtain ⟨e₀, hfinds₀, rfl⟩ := Dashboard.entry?_after hdetached hgiven hfinds
    obtain ⟨hinactive, hstopped, hcount⟩ := entry e₀ hfinds₀
    have hsame := BoardSection.sameProgress_editThrough hsec e₀
    exact ⟨hsame.inactive hinactive, hsame.stopped hstopped, hsame.current ▸ hcount⟩

/-- A copy counts bytes in its entry only when it tells a piece, or ends the entry. -/
theorem leavesProgress_boardSection? (htelling : ∀ run count, stage ≠ .reporting run count)
    (hfinishing : ∀ run, stage ≠ .finishing run) {sec : BoardSection}
    (hsec : plan.boardSection? turn stage = some sec) (h : Handle) :
    sec.leavesProgress h = true := by
  cases stage with
  | reporting run count => exact absurd rfl (htelling run count)
  | finishing run => exact absurd rfl (hfinishing run)
  | _ => cases hsec <;> rfl

/-- The stage after a step, on the dashboard before it. -/
theorem Shown.next (hshown : Shown h n w.board stage)
    (hfinishing : ∀ run, stage ≠ .finishing run)
    (hstopping : ∀ run failure, stage ≠ .stopping run failure) (tools : CopyTools) (turn : Turn) :
    Shown h n w.board (plan.step tools turn w stage).1 := by
  cases hshown with
  | named done => exact .named (isNamed_step done)
  | stopped up entry => exact .stopped (isGivenUp_step up) entry
  | tracked mine entry =>
    refine .tracked ?_ entry
    cases (plan.next_step tools turn w stage).entryStep with
    | leaves makes same => exact same.trans mine
    | announces makes before => exact nomatch before.symm.trans mine
    | ends makes ended =>
      cases stage <;> cases makes <;> cases ended
      · exact absurd rfl (hstopping _ _)
      · exact absurd rfl (hfinishing _)

/-- The entry counts what is told in it. -/
theorem shown_reporting {run : CopyRun} {count : Nat}
    (hdetached : w.board.entry? Handle.detached = none)
    (hgiven : h.generation ≤ w.board.state.allocations)
    (hlimit : n + bytesOf [count.toUInt64] < 2 ^ 64)
    (hshown : Shown h n w.board (.reporting run count)) (tools : CopyTools) (turn : Turn) :
    Shown h (n + bytesOf [count.toUInt64]) (plan.step tools turn w (.reporting run count)).2.board
      (plan.step tools turn w (.reporting run count)).1 := by
  cases hshown with
  | named done => cases done
  | stopped up => cases up
  | tracked mine entry =>
    refine .tracked mine fun e hfinds => ?_
    obtain rfl : run.handle = h := Option.some.inj mine
    have hafter : Dashboard.entry? (w.board.after (.advance run.handle count.toUInt64
        (secondsBetween run.started turn.now))) run.handle = some e := hfinds
    obtain ⟨e₀, hfinds₀, rfl⟩ := Dashboard.entry?_after hdetached hgiven hafter
    rw [BoardSection.editThrough_self rfl]
    have hcounts := (e₀.counts_advance count.toUInt64 (secondsBetween run.started turn.now)).1
    -- the sum is below the limit of the counter, so nothing is cut off
    rw [entry e₀ hfinds₀, Nat.min_eq_right (by omega)] at hcounts
    exact hcounts

/-- An entry that is stopped keeps its count. -/
theorem shown_stopping {run : CopyRun} {failure : Option CopyError}
    (hdetached : w.board.entry? Handle.detached = none)
    (hgiven : h.generation ≤ w.board.state.allocations)
    (hshown : Shown h n w.board (.stopping run failure)) (tools : CopyTools) (turn : Turn) :
    Shown h n (plan.step tools turn w (.stopping run failure)).2.board
      (plan.step tools turn w (.stopping run failure)).1 := by
  cases hshown with
  | named done => cases done
  | stopped up => cases up
  | tracked mine entry =>
    obtain rfl : run.handle = h := Option.some.inj mine
    -- a copy that stops is given up, whatever the reason
    have hup : (plan.step tools turn w (.stopping run failure)).1.isGivenUp = true := by
      rw [step]
      split
      · rfl
      · exact CopyStage.isGivenUp_ended failure
    refine .stopped hup fun e hfinds => ?_
    rw [board_step] at hfinds
    have hafter : Dashboard.entry? (w.board.after (.markStopped run.handle (stopReason failure)))
        run.handle = some e := hfinds
    obtain ⟨e₀, hfinds₀, rfl⟩ := Dashboard.entry?_after hdetached hgiven hafter
    rw [BoardSection.editThrough_self rfl]
    exact ⟨rfl, rfl, entry e₀ hfinds₀⟩

/-- **A step keeps what the entry shows**, with what is told in the step. -/
theorem shown_step (hdetached : w.board.entry? Handle.detached = none)
    (hgiven : h.generation ≤ w.board.state.allocations)
    (hlimit : n + bytesOf stage.told?.toList < 2 ^ 64) (hshown : Shown h n w.board stage)
    (tools : CopyTools) (turn : Turn) :
    Shown h (n + bytesOf stage.told?.toList) (plan.step tools turn w stage).2.board
      (plan.step tools turn w stage).1 := by
  by_cases htelling : ∃ run count, stage = .reporting run count
  · obtain ⟨run, count, rfl⟩ := htelling
    exact shown_reporting hdetached hgiven hlimit hshown tools turn
  have htold : stage.told? = none := by
    cases stage <;> first | rfl | exact absurd ⟨_, _, rfl⟩ htelling
  rw [htold]
  by_cases hfinishing : ∃ run, stage = .finishing run
  · obtain ⟨run, rfl⟩ := hfinishing
    exact .named rfl
  by_cases hstopping : ∃ run failure, stage = .stopping run failure
  · obtain ⟨run, failure, rfl⟩ := hstopping
    exact shown_stopping hdetached hgiven hshown tools turn
  -- in the other steps the copy itself leaves the progress, as the others do
  have hnext : Shown h n w.board (plan.step tools turn w stage).1 :=
    hshown.next (fun run heq => hfinishing ⟨run, heq⟩)
      (fun run failure heq => hstopping ⟨run, failure, heq⟩) tools turn
  rw [board_step]
  cases hsec : plan.boardSection? turn stage with
  | none => exact hnext
  | some sec =>
    exact hnext.after hdetached hgiven
      (leavesProgress_boardSection? (fun run count heq => htelling ⟨run, count, heq⟩)
        (fun run heq => hfinishing ⟨run, heq⟩) hsec h)

/-! ### The course of a copy -/

/-- The entry of a copy shows at its stage what was told in the steps so far, and its handle is one
that has been given out. -/
structure Honest (h : Handle) (steps : List (CopyStage × Workshop)) (c : CopyStage × Workshop) :
    Prop where
  /-- The detached handle finds nothing. -/
  detached : Dashboard.entry? c.2.board Handle.detached = none
  /-- The handle has been given out. -/
  given : h.generation ≤ c.2.board.state.allocations
  /-- What the entry shows. -/
  shown : Shown h (bytesOf (toldIn steps)) c.2.board c.1

/-- What others do leaves it. -/
theorem Honest.onBoard (hc : Honest h steps c) {sec : BoardSection}
    (hsec : sec.leavesProgress h = true) : Honest h steps (onBoard c sec) where
  detached := Dashboard.detached_finds_none_after hc.detached sec
  given := Nat.le_trans hc.given (Dashboard.allocations_le_after c.2.board sec)
  shown := hc.shown.after hc.detached hc.given hsec

/-- **A step of the copy keeps it.** -/
theorem honest_step (hc : Honest h steps c) (hlimit : bytesOf (toldIn (steps ++ [c])) < 2 ^ 64)
    (tools : CopyTools) (turn : Turn) :
    Honest h (steps ++ [c]) (plan.step tools turn c.2 c.1) := by
  rw [toldIn_concat, bytesOf_append] at hlimit
  refine ⟨?_, ?_, ?_⟩
  · rw [board_step]
    cases plan.boardSection? turn c.1 with
    | none => exact hc.detached
    | some sec => exact Dashboard.detached_finds_none_after hc.detached sec
  · rw [board_step]
    cases plan.boardSection? turn c.1 with
    | none => exact hc.given
    | some sec => exact Nat.le_trans hc.given (Dashboard.allocations_le_after _ sec)
  · rw [toldIn_concat, bytesOf_append]
    exact shown_step hc.detached hc.given hlimit hc.shown tools turn

/-- As long as the copy goes on, its entry counts what has been told. -/
theorem Honest.counts (hc : Honest h steps c)
    (hgoing : c.1.isGivenUp = false ∧ c.1.isNamed = false) :
    ∀ e, Dashboard.entry? c.2.board h = some e → e.current.toNat = bytesOf (toldIn steps) := by
  cases hc.shown with
  | tracked mine entry => exact entry
  | stopped up => exact nomatch hgoing.1.symm.trans up
  | named done => exact nomatch hgoing.2.symm.trans done

/-- When it has been given up, its entry has stopped, and counts what has been told. -/
theorem Honest.stopped (hc : Honest h steps c) (hup : c.1.isGivenUp = true) :
    ∀ e, Dashboard.entry? c.2.board h = some e →
      e.active = false ∧ e.stopped.isSome = true ∧ e.current.toNat = bytesOf (toldIn steps) := by
  obtain ⟨htracked, hopen⟩ := CopyStage.ended_of_isGivenUp hup
  cases hc.shown with
  | stopped _ entry => exact entry
  | tracked mine => exact nomatch htracked.symm.trans mine
  | named done => exact nomatch hopen.symm.trans done

/-- A copy that has just been announced has told nothing, and its entry counts nothing. -/
theorem honest_announced (hdetached : w.board.entry? Handle.detached = none)
    (hnone : bytesOf (toldIn steps) = 0) (plan : CopyPlan) (tools : CopyTools) (turn : Turn)
    (source temp : Place) (total : Nat) :
    Honest (w.board.track (plan.request total) turn.now).1 steps
      (plan.step tools turn w (.announcing source temp total)) where
  detached := Dashboard.detached_finds_none_after hdetached (.track (plan.request total) turn.now)
  given := w.board.generation_track_le (plan.request total) turn.now
  shown := by
    refine .tracked rfl fun e hfinds => ?_
    rw [((Dashboard.entry?_track hdetached _ _).2 e hfinds).1, hnone]
    rfl

/-- A course of a copy keeps both. -/
theorem honest_run (hp : plan.Proper) (hbytes : d₀.bytesAt? plan.job.source = some bytes)
    (hsize : bytes.size < 2 ^ 64) {moves : List CopyMove}
    (hmoves : ∀ move ∈ moves, move.MadeOf (BoardSection.leavesProgress h))
    (htallied : plan.Tallied d₀ bytes steps c) (hc : Honest h steps c) (tools : CopyTools) :
    plan.Tallied d₀ bytes (steps ++ plan.trace tools c moves) (plan.run tools c moves) ∧
      Honest h (steps ++ plan.trace tools c moves) (plan.run tools c moves) := by
  refine run_of_trace (P := fun steps c => plan.Tallied d₀ bytes steps c ∧ Honest h steps c)
    ?_ ?_ hmoves ⟨htallied, hc⟩
  · rintro steps c turn ⟨htallied, hc⟩
    -- no more is told than there is in the source, so the counter of the entry holds it
    have hnext := tallied_step hp hbytes hsize htallied tools turn
    have hlimit := Nat.lt_of_le_of_lt (Nat.le_trans (Nat.le_add_right _ _) hnext.moving.fits) hsize
    exact ⟨hnext, honest_step hc hlimit tools turn⟩
  · rintro steps c sec hsec ⟨htallied, hc⟩
    exact ⟨⟨htallied.holds, htallied.moving, htallied.portions, htallied.rounds, htallied.work⟩,
      hc.onBoard hsec⟩

end CopyPlan

variable {job : CopyJob} {plan : CopyPlan} {tools : CopyTools} {moves : List CopyMove}
  {w : Workshop} {h : Handle} {bytes : Bytes}

/-- A copy that has been announced keeps both in its course. -/
theorem CopyJob.Given.honest
    (hpast : ∃ surface interval earlier, w.board = (Dashboard.fresh surface interval).run earlier)
    (hplan : job.plan? = some plan) (hbytes : w.disk.bytesAt? job.source = some bytes)
    (hsize : bytes.size < 2 ^ 64) (hgiven : job.Given tools moves w h)
    (hmoves : ∀ move ∈ moves, move.MadeOf (BoardSection.leavesProgress h)) :
    plan.Tallied w.disk bytes (plan.trace tools (.opening, w) moves)
        (plan.run tools (.opening, w) moves) ∧
      CopyPlan.Honest h (plan.trace tools (.opening, w) moves)
        (plan.run tools (.opening, w) moves) := by
  obtain ⟨plan', past, turn, rest, source, temp, total, hplan', rfl, hstage, rfl⟩ := hgiven
  obtain rfl := Option.some.inj (hplan.symm.trans hplan')
  obtain ⟨hp, rfl, -⟩ := CopyPlan.proper_of_plan? hplan
  have hearlier := fun move hmove => hmoves move (List.mem_append_left _ hmove)
  have hlater := fun move hmove =>
    hmoves move (List.mem_append_right _ (List.mem_cons_of_mem _ hmove))
  -- up to the announcement the copy has no entry
  have hdetached :
      Dashboard.entry? (plan.run tools (.opening, w) past).2.board Handle.detached = none := by
    obtain ⟨surface, interval, sections, hboard⟩ := hpast
    obtain ⟨sections', hboard'⟩ := CopyPlan.board_run hearlier plan tools (.opening, w)
    rw [hboard', hboard, ← Dashboard.run_append]
    exact Dashboard.detached_finds_none_run surface interval _
  have hbefore := CopyPlan.tallied_run hp hbytes hsize hearlier tools
  rw [CopyPlan.run_append, CopyPlan.trace_append]
  generalize plan.run tools (.opening, w) past = c at hstage hdetached hlater hbefore ⊢
  generalize plan.trace tools (.opening, w) past = steps at hbefore ⊢
  obtain ⟨stage, shop⟩ := c
  obtain rfl : stage = .announcing source temp total := hstage
  -- nothing has been told yet when the entry is made
  have hnone : bytesOf (toldIn (steps ++ [(.announcing source temp total, shop)])) = 0 := by
    rw [toldIn_concat, bytesOf_append]
    exact (hbefore.moving.copied 0 rfl).symm
  rw [CopyPlan.trace, List.append_cons]
  exact CopyPlan.honest_run hp hbytes hsize hlater
    (CopyPlan.tallied_step hp hbytes hsize hbefore tools turn)
    (CopyPlan.honest_announced hdetached hnone plan tools turn source temp total) tools

/-- **The progress of a copy is honest.**  A copy of a source with any bytes is announced on a
dashboard with any past, and gets a handle.  It moves its bytes in pieces of any sizes, and others
use the dashboard in between; a failure may strike, and the end may be asked for, at any time.  As
long as nobody else counts bytes in its entry, and with `k` for the sum of the portions that it has
told:

* at the start of each round, when it looks whether to go on, its temporary file holds the first
  `k` bytes of the source, and `k` is what its entry counts, if it is there;
* it begins no more rounds than one for each byte of the source and one, and takes a bounded number
  of steps in which it need not wait, after which it has ended;
* when the loop has come to its end, `k` is the size of the source;
* when the copy has been given up, as it is when the end was asked for, its entry has stopped and
  still counts `k`. -/
theorem copy_progress_is_honest
    (hpast : ∃ surface interval earlier, w.board = (Dashboard.fresh surface interval).run earlier)
    (hplan : job.plan? = some plan) (hbytes : w.disk.bytesAt? job.source = some bytes)
    (hsize : bytes.size < 2 ^ 64) (hgiven : job.Given tools moves w h)
    (hmoves : ∀ move ∈ moves, move.MadeOf (BoardSection.leavesProgress h)) :
    let c := plan.run tools (.opening, w) moves
    let steps := plan.trace tools (.opening, w) moves
    let k := bytesOf (toldIn steps)
    (c.1.isChecking = true →
      k ≤ bytes.size ∧ c.2.disk.at? plan.temp = some (.file (bytes.extract 0 k)) ∧
        ∀ e, Dashboard.entry? c.2.board h = some e → e.current.toNat = k) ∧
    (roundsIn steps ≤ bytes.size + 1 ∧ workIn steps ≤ 5 * bytes.size + 16 ∧
      (workIn steps = 5 * bytes.size + 16 → c.1.result?.isSome = true)) ∧
    (c.1.isWhole = true →
      k = bytes.size ∧ ∀ e, Dashboard.entry? c.2.board h = some e → e.current.toNat = k) ∧
    (c.1.isGivenUp = true → ∀ e, Dashboard.entry? c.2.board h = some e →
      e.active = false ∧ e.stopped.isSome = true ∧ e.current.toNat = k) := by
  intro c steps k
  obtain ⟨htallied, hhonest⟩ := hgiven.honest hpast hplan hbytes hsize hmoves
  obtain ⟨-, rfl, -⟩ := CopyPlan.proper_of_plan? hplan
  refine ⟨fun hchecking => ⟨htallied.told_le, htallied.temp_checking hbytes hchecking, ?_⟩,
    ⟨htallied.roundsIn_le, htallied.workIn_le, htallied.isSome_result?⟩,
    fun hwhole => ⟨htallied.moving.whole hwhole, ?_⟩, hhonest.stopped⟩
  · exact hhonest.counts (CopyStage.goes_of_isMoving (.inl hchecking))
  · exact hhonest.counts (CopyStage.goes_of_isMoving (.inr hwhole))

/-- Five bytes, of which one is read, and after a pause two more; then the end is asked for.  The
temporary file holds the three that have been told, and three are counted still when the copy has
been given up. -/
theorem three_of_five_bytes_are_told :
    let job : CopyJob := { source := ⟨"in/a"⟩, destDir := ⟨"out"⟩ }
    let plan : CopyPlan := ⟨job, "a", ⟨"out/a"⟩, ⟨"out/a.part"⟩⟩
    let tools : CopyTools := { bufferBytes := 2 }
    let shop : Workshop := ⟨Dashboard.fresh (.new 60 12) 0,
      ⟨[(["in"], .dir), (["in", "a"], .file #[1, 2, 3, 4, 5]), (["out"], .dir)]⟩⟩
    let own (n : Nat) : List CopyMove := List.replicate n (.own { now := 0 })
    let press (key : Key) : CopyMove := .others fun d => d.after (.applyKey key)
    let moving := own 6 ++ .own { now := 0, readLimit := some 1 } :: own 3 ++
      press (.char 'p') :: own 2 ++ press (.char 'p') :: own 5
    let c := plan.run tools (.opening, shop) moving
    let steps := plan.trace tools (.opening, shop) moving
    let c' := plan.run tools (.opening, shop) (moving ++ press .esc :: own 4)
    c.1.isChecking = true ∧ bytesOf (toldIn steps) = 3 ∧
      c.2.disk.at? plan.temp = some (.file #[1, 2, 3]) ∧ roundsIn steps = 3 ∧
      c'.1.result? = some (.ok .cancelled) ∧
      ∃ e, Dashboard.entry? c'.2.board ⟨0, 1⟩ = some e ∧ e.active = false ∧ e.current = 3 := by
  intro job plan tools shop own press moving c steps c'
  have hpast : ∃ surface interval earlier,
      shop.board = (Dashboard.fresh surface interval).run earlier := ⟨.new 60 12, 0, [], rfl⟩
  have hplan : job.plan? = some plan := by decide +kernel
  have hbytes : shop.disk.bytesAt? job.source = some #[1, 2, 3, 4, 5] := by decide +kernel
  have hannounced : (plan.run tools (.opening, shop) (own 3)).1 =
      .announcing ["in", "a"] ["out", "a.part"] 5 := by
    simp only [plan, job, tools, shop, own]
    rfl
  have hgiven : ∀ rest, job.Given tools (own 3 ++ .own { now := 0 } :: rest) shop ⟨0, 1⟩ :=
    fun rest => ⟨plan, own 3, _, rest, _, _, _, hplan, rfl, hannounced, by decide +kernel⟩
  have hown : ∀ n, ∀ move ∈ own n, move.MadeOf (BoardSection.leavesProgress ⟨0, 1⟩) := by
    intro n move hmove
    rw [List.eq_of_mem_replicate hmove]
    trivial
  have hpress : ∀ key, (press key).MadeOf (BoardSection.leavesProgress ⟨0, 1⟩) := fun key =>
    Dashboard.madeOf_after rfl
  -- all that others do in the two runs is to press keys
  have hmoving : ∀ move ∈ moving, move.MadeOf (BoardSection.leavesProgress ⟨0, 1⟩) := by
    simp only [moving, List.forall_mem_append, List.forall_mem_cons]
    exact ⟨⟨⟨hown 6, trivial, hown 3⟩, hpress _, hown 2⟩, hpress _, hown 5⟩
  have hall : ∀ move ∈ moving ++ press .esc :: own 4,
      move.MadeOf (BoardSection.leavesProgress ⟨0, 1⟩) := by
    simp only [List.forall_mem_append, List.forall_mem_cons]
    exact ⟨hmoving, hpress _, hown 4⟩
  have hchecking : c.1.isChecking = true := by decide +kernel
  have hcancelled : c'.1.result? = some (.ok .cancelled) := by decide +kernel
  have htold : bytesOf (toldIn steps) = 3 := by decide +kernel
  have hfirst : job.Given tools moving shop ⟨0, 1⟩ := hgiven _
  have hsecond : job.Given tools (moving ++ press .esc :: own 4) shop ⟨0, 1⟩ := hgiven _
  -- the first run is looked at in the middle, the second one at its end
  obtain ⟨hlooking, -⟩ :=
    copy_progress_is_honest hpast hplan hbytes (by decide) hfirst hmoving
  obtain ⟨-, htemp, -⟩ := hlooking hchecking
  obtain ⟨-, -, -, hgivenUp⟩ :=
    copy_progress_is_honest hpast hplan hbytes (by decide) hsecond hall
  obtain ⟨e, hfinds⟩ : ∃ e, Dashboard.entry? c'.2.board ⟨0, 1⟩ = some e :=
    Option.isSome_iff_exists.mp (by decide +kernel)
  have hup : c'.1.isGivenUp = true :=
    congrArg CopyStage.isGivenUp (CopyStage.eq_ended_of_result? hcancelled)
  obtain ⟨hinactive, -, hcount⟩ := hgivenUp hup e hfinds
  have hkept : e.current.toNat = 3 := hcount.trans (by decide +kernel)
  rw [show bytesOf (toldIn (plan.trace tools (.opening, shop) moving)) = 3 from htold] at htemp
  exact ⟨hchecking, htold, htemp, by decide +kernel, hcancelled, e, hfinds, hinactive,
    UInt64.toNat_inj.mp hkept⟩

end TransferBoard
