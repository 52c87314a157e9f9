import Mathlib.Control.Monad.Basic
import TransferBoard.Proofs.Copy.Step

/-!
# A copy is made whole or not at all

Between two steps of a copy keys are pressed and other transfers report, and in any
step a failure may strike.  However that goes, a copy that is reported as complete is
there with every byte of its source, and one that is not leaves its destination as it
was.

## Main definitions

* `CopyMove`, `CopyPlan.run` — what happens around a copy, and a copy in its course.
* `CopyJob.copyDuring` — how a copy of a job ends, and what is then on the disk.
* `CopyJob.Announces` — the copy comes to have an entry on the dashboard.

## Main results

* `copyFile_eq_copyDuring` — a copy that is left alone is such a course of events.
* `holds_run` — what holds at the stages of a copy over its whole course.
* `copy_is_all_or_nothing` — the copy is whole or its destination as it was, and nothing
  else has changed.
-/

namespace TransferBoard

open Disk (AgreeOff)

/-- What happens next while a copy is under way. -/
inductive CopyMove where
  /-- The copy takes a step. -/
  | own (turn : Turn)
  /-- The dashboard changes: a key is pressed, or another transfer reports. -/
  | others (change : Dashboard → Dashboard)

namespace CopyPlan

/-- A copy after what happens next. -/
def after (plan : CopyPlan) (tools : CopyTools) (c : CopyStage × Workshop) :
    CopyMove → CopyStage × Workshop
  | .own turn => plan.step tools turn c.2 c.1
  | .others change => (c.1, { c.2 with board := change c.2.board })

/-- A copy after all that happens. -/
def run (plan : CopyPlan) (tools : CopyTools) (c : CopyStage × Workshop) (moves : List CopyMove) :
    CopyStage × Workshop :=
  moves.foldl (plan.after tools) c

theorem run_append (plan : CopyPlan) (tools : CopyTools) (c : CopyStage × Workshop)
    (moves moves' : List CopyMove) :
    plan.run tools c (moves ++ moves') = plan.run tools (plan.run tools c moves) moves' :=
  List.foldl_append

/-- A copy that is left alone takes its own steps. -/
theorem settle_eq_run (plan : CopyPlan) (tools : CopyTools) (turn : Turn) :
    ∀ (n : Nat) (stage : CopyStage) (w : Workshop), ∃ k, plan.settle tools turn n stage w =
      plan.run tools (stage, w) (List.replicate k (.own turn)) := by
  intro n
  induction n with
  | zero => intro stage w; exact ⟨0, rfl⟩
  | succ n ih =>
    intro stage w
    rw [settle]
    split
    · exact ⟨0, rfl⟩
    · obtain ⟨k, hk⟩ := ih (plan.step tools turn w stage).1 (plan.step tools turn w stage).2
      exact ⟨k + 1, hk⟩

/-! ### The course of a copy -/

variable {plan : CopyPlan} {d₀ : Disk}

theorem holds_after (hp : plan.Proper) (tools : CopyTools) {c : CopyStage × Workshop}
    (h : plan.Holds d₀ c.2.disk c.1) (move : CopyMove) :
    plan.Holds d₀ (plan.after tools c move).2.disk (plan.after tools c move).1 ∧
      AgreeOff (plan.WritesAt d₀) c.2.disk (plan.after tools c move).2.disk := by
  cases move with
  | own turn =>
    exact ⟨holds_step hp tools turn h,
      (placed_step hp tools turn h.placed).2.mono fun _ hq => hq.writesAt⟩
  | others change => exact ⟨h, AgreeOff.refl _ _⟩

/-- **What holds at the stages of a copy holds in every course of it**, and nothing is
written elsewhere. -/
theorem holds_run (hp : plan.Proper) (tools : CopyTools) (moves : List CopyMove) :
    ∀ c : CopyStage × Workshop, plan.Holds d₀ c.2.disk c.1 →
      plan.Holds d₀ (plan.run tools c moves).2.disk (plan.run tools c moves).1 ∧
        AgreeOff (plan.WritesAt d₀) c.2.disk (plan.run tools c moves).2.disk := by
  induction moves with
  | nil => intro c h; exact ⟨h, AgreeOff.refl _ _⟩
  | cons move moves ih =>
    intro c h
    obtain ⟨hnext, hd⟩ := holds_after hp tools h move
    obtain ⟨hend, hd'⟩ := ih _ hnext
    exact ⟨hend, hd.trans hd'⟩

theorem isEarly_run (plan : CopyPlan) (tools : CopyTools) (moves : List CopyMove) :
    ∀ c : CopyStage × Workshop, c.1.isEarly = false →
      (plan.run tools c moves).1.isEarly = false := by
  induction moves with
  | nil => intro c h; exact h
  | cons move moves ih =>
    intro c h
    cases move with
    | own turn => exact ih _ (isEarly_step plan tools turn c.2 h)
    | others change => exact ih _ h

end CopyPlan

namespace CopyJob

/-- How a copy of the job has ended after all that happens, if it has, and what the
copies share then. -/
def copyDuring (job : CopyJob) (tools : CopyTools) (moves : List CopyMove) (w : Workshop) :
    Option CopyResult × Workshop :=
  match job.plan? with
  | none => (some (.error (.noFileName job.source)), w)
  | some plan =>
    let c := plan.run tools (.opening, w) moves
    (c.1.result?, c.2)

/-- In the course of the copy an entry was made on the dashboard for it. -/
def Announces (job : CopyJob) (tools : CopyTools) (moves : List CopyMove) (w : Workshop) : Prop :=
  ∃ plan past rest, job.plan? = some plan ∧ moves = past ++ rest ∧
    (plan.run tools (.opening, w) past).1.isShowing = true

end CopyJob

/-- A copy that is left alone is one course of events, of its own steps. -/
theorem copyFile_eq_copyDuring (job : CopyJob) (tools : CopyTools) (now : Moment) (w : Workshop) :
    ∃ k, copyFile job tools now w =
      job.copyDuring tools (List.replicate k (.own { now := now })) w := by
  unfold copyFile CopyJob.copyDuring
  cases job.plan? with
  | none => exact ⟨0, rfl⟩
  | some plan =>
    obtain ⟨k, hk⟩ := plan.settle_eq_run tools { now := now } (copySteps w.disk job) .opening w
    exact ⟨k, by simp only [hk]⟩

/-! ### The end of a copy -/

namespace CopyPlan

variable {plan : CopyPlan} {d₀ d : Disk}

/-- The source is as it was, also where the copy has been made over it. -/
theorem source_stays (hp : plan.Proper) {result : CopyResult}
    (hd : AgreeOff (plan.WritesAt d₀) d₀ d) (h : plan.Holds d₀ d (.ended result))
    (hstream : ∀ arrived, d₀.at? plan.job.source ≠ some (.stream arrived)) :
    d.at? plan.job.source = d₀.at? plan.job.source := by
  cases result with
  | error e => exact h.content.1.1
  | ok outcome =>
    cases outcome with
    | cancelled => exact h.content.1.1
    | completed p =>
      obtain ⟨-, ⟨bytes, hbytes, htarget⟩, -⟩ := h.content
      by_cases hsame : ∃ q, d₀.resolve plan.job.source = .ok q ∧ d₀.resolve plan.target = .ok q
      · -- a file copied onto itself: the copy has its bytes
        obtain ⟨q, hq, hq'⟩ := hsame
        obtain ⟨node, hnode, hread⟩ := Option.bind_eq_some_iff.mp hbytes
        have hfile : node = .file bytes := by
          cases node with
          | dir => exact absurd hread (by simp [Node.bytes?])
          | file contents => exact congrArg _ (Option.some.inj hread)
          | stream arrived => exact absurd hnode (hstream arrived)
        obtain ⟨_, -, -, hslash⟩ := Disk.at?_eq_some_iff.mp hnode
        obtain ⟨r, hr, hthere, -⟩ := Disk.at?_eq_some_iff.mp htarget
        rw [← Disk.resolve_congr h.placed.dirs, hq'] at hr
        obtain rfl := Except.ok.inj hr
        rw [hnode, hfile, Disk.at?_eq_some_iff]
        exact ⟨q, (Disk.resolve_congr h.placed.dirs).mp hq, hthere, hfile ▸ hslash⟩
      · refine hd.at? ?_
        intro q hq hw
        rcases hw with hw | hw
        · exact hp.source_ne_temp hw hq
        · exact hsame ⟨q, hq, hw⟩

end CopyPlan

variable {job : CopyJob} {tools : CopyTools} {moves : List CopyMove} {w : Workshop}

/-- **A copy is made whole or not at all.**  Whatever fails in its steps, whatever is
read at a time, and whenever it is cancelled: a copy that ends as complete is at its
destination with the bytes of its source, and its temporary file is gone; one that ends
otherwise leaves its destination as it was, and no temporary file once it has been
announced.  What is at other paths has not changed, and the source has not either. -/
theorem copy_is_all_or_nothing {result : CopyResult}
    (h : (job.copyDuring tools moves w).1 = some result) :
    let d := (job.copyDuring tools moves w).2.disk
    (∀ p, result = .ok (.completed p) →
      job.destination? = some p ∧
      (∃ bytes, w.disk.bytesAt? job.source = some bytes ∧ d.at? p = some (.file bytes)) ∧
      d.at? (tempPath p) = none) ∧
    ((∀ p, result ≠ .ok (.completed p)) → ∀ p, job.destination? = some p →
      d.at? p = w.disk.at? p ∧ (job.Announces tools moves w → d.at? (tempPath p) = none)) ∧
    (∀ path,
      (∀ p place, job.destination? = some p → w.disk.resolve path = .ok place →
        w.disk.resolve p ≠ .ok place ∧ w.disk.resolve (tempPath p) ≠ .ok place) →
      d.at? path = w.disk.at? path) ∧
    ((∀ arrived, w.disk.at? job.source ≠ some (.stream arrived)) →
      d.at? job.source = w.disk.at? job.source) := by
  unfold CopyJob.copyDuring at h ⊢
  cases hplan : job.plan? with
  | none =>
    -- a source without a name: nothing happens
    have hdest : job.destination? = none := by
      rw [CopyJob.plan?, Option.map_eq_none_iff] at hplan
      rw [CopyJob.destination?, hplan]
      rfl
    rw [hplan] at h
    obtain rfl := Option.some.inj h
    simp [hdest]
  | some plan =>
    obtain ⟨hp, rfl, hdest⟩ := CopyPlan.proper_of_plan? hplan
    rw [hplan] at h
    simp only [hdest, Option.some.injEq] at h ⊢
    obtain ⟨hend, hd⟩ :=
      CopyPlan.holds_run hp tools moves (.opening, w) (plan.holds_opening w.disk)
    have hstage : (plan.run tools (.opening, w) moves).1 = .ended result := by
      cases hs : (plan.run tools (.opening, w) moves).1 with
      | ended r => rw [hs] at h; exact congrArg _ (Option.some.inj h)
      | _ => rw [hs] at h; exact absurd h (by simp [CopyStage.result?])
    rw [hstage] at hend
    refine ⟨?_, ?_, ?_, CopyPlan.source_stays hp hd hend⟩
    · rintro p rfl
      obtain ⟨rfl, hdone, hgone⟩ := hend.content
      exact ⟨rfl, hdone, hp.temp ▸ hgone⟩
    · rintro hne p rfl
      have hearly : plan.job.Announces tools moves w →
          (CopyStage.ended result).isEarly = false := by
        rintro ⟨plan', past, rest, hplan', rfl, hshowing⟩
        obtain rfl := Option.some.inj (hplan.symm.trans hplan')
        rw [← hstage, CopyPlan.run_append]
        exact plan.isEarly_run tools rest _ (CopyStage.isEarly_of_isShowing hshowing)
      cases result with
      | error e =>
        refine ⟨hend.content.1.2, fun hann => ?_⟩
        have hgone := hend.content.2
        rw [CopyPlan.GivenUp, if_neg (by simpa [CopyStage.isEarly] using hearly hann)] at hgone
        exact hp.temp ▸ hgone
      | ok outcome =>
        cases outcome with
        | completed p => exact absurd rfl (hne p)
        | cancelled => exact ⟨hend.content.1.2, fun _ => hp.temp ▸ hend.content.2⟩
    · intro path hpath
      refine hd.at? ?_
      intro q hq hw
      have hne := hpath plan.target q rfl hq
      rcases hw with hw | hw
      · exact hne.2 (hp.temp ▸ hw)
      · exact hne.1 hw

/-- A copy that is cancelled when one piece has been moved: the old file is still there,
and the temporary file is not. -/
theorem cancelled_copy_leaves_old_file :
    let job : CopyJob := { source := ⟨"in/a"⟩, destDir := ⟨"out"⟩ }
    let shop : Workshop :=
      { board := { surface := Surface.new 80 24 }
        disk := ⟨[(["in"], .dir), (["in", "a"], .file #[1, 2, 3]), (["out"], .dir),
          (["out", "a"], .file #[9])]⟩ }
    let steps : List CopyMove := List.replicate 10 (.own { now := 0 })
    let moves := steps ++ .others (fun board => board.cancel 0) :: steps
    let c := job.copyDuring { bufferBytes := 2 } moves shop
    c.1 = some (.ok .cancelled) ∧ c.2.disk.at? ⟨"out/a"⟩ = some (.file #[9]) ∧
      c.2.disk.at? ⟨"out/a.part"⟩ = none := by
  intro job shop steps moves c
  have hend : c.1 = some (.ok .cancelled) := by decide +kernel
  obtain ⟨-, hold, -⟩ := copy_is_all_or_nothing hend
  obtain ⟨hthere, hgone⟩ := hold (fun p hp => by cases hp) ⟨"out/a"⟩ (by decide +kernel)
  -- the temporary file was made, so that it is gone says something
  have htemp : tempPath ⟨"out/a"⟩ = ⟨"out/a.part"⟩ := by decide +kernel
  refine ⟨hend, hthere, htemp ▸ hgone ?_⟩
  exact ⟨⟨job, "a", ⟨"out/a"⟩, ⟨"out/a.part"⟩⟩, List.replicate 4 (.own { now := 0 }), _,
    by decide +kernel, rfl, by decide +kernel⟩

end TransferBoard
