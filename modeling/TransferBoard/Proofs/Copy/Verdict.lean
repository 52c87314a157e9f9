import TransferBoard.Proofs.Board.EntryVerdict
import TransferBoard.Proofs.Copy.Around
import TransferBoard.Proofs.Digest.OfBytes

/-!
# The verdict of a copy

A copy with a digest announces its file with the kind of the digest and the digest that is
expected, and has the digest of what it has made calculated when it is complete.  Others may use
the dashboard between any two steps of it.  As long as they do not tell another file for its
entry, nor store a digest in it, the entry has the verdict in the end, and that is the one of
the bytes that the copy has read.

## Main definitions

* `CopyPlan.Told` — what the entry of a copy says at a stage.
* `CopyPlan.Reports` — the invariant: that, and the handle of the entry has been given out.

## Main results

* `told_next`, `told_settling` — what the entry says after a step.
* `reports_step`, `reports_run` — every step of a copy keeps it, and so does every course.
* `copy_has_verdict` — **what the entry of a complete copy says of its digest.**
-/

namespace TransferBoard

namespace CopyStage

/-- The handle that a copy has while its digest is not asked for. -/
def handle? : CopyStage → Option Handle
  | showing _ _ h => some h
  | checking run | reading run | writing run _ | reporting run _ | drawing run | syncing run
  | .renaming run | discarding run _ | stopping run _ | finishing run | showingFinish run
  | choosingDigest run => some run.handle
  | _ => none

/-- The copy has nothing more to do with its digest. -/
def isSettled : CopyStage → Bool
  | showingDigest | registering | ended (.ok (.completed _)) => true
  | _ => false

end CopyStage

namespace CopyPlan

variable {plan : CopyPlan} {tools : CopyTools} {turn : Turn} {w : Workshop} {kind : DigestKind}
  {h : Handle} {answer : Except DigestError String} {d d' : Dashboard} {stage next : CopyStage}

/-! ### What the entry says -/

/-- The entry of a handle awaits the digest of the copy, if it is there. -/
def EntryAwaits (plan : CopyPlan) (kind : DigestKind) (h : Handle) (d : Dashboard) : Prop :=
  ∀ e, d.entry? h = some e → e.Awaits kind plan.target (plan.job.expected.bind nonBlank?)

/-- What the entry of a copy says at a stage, if it is there. -/
inductive Told (plan : CopyPlan) (kind : DigestKind) (h : Handle)
    (answer : Except DigestError String) (d : Dashboard) : CopyStage → Prop where
  /-- It awaits its digest, which has not been asked for. -/
  | waiting {stage : CopyStage} (mine : stage.handle? = some h)
    (entry : plan.EntryAwaits kind h d) : Told plan kind h answer d stage
  /-- Its digest is asked for. -/
  | asking {run : CopyRun} (mine : run.handle = h) (entry : plan.EntryAwaits kind h d) :
    Told plan kind h answer d (.hashing run kind plan.target)
  /-- The answer is there. -/
  | answered {run : CopyRun} (mine : run.handle = h) (entry : plan.EntryAwaits kind h d) :
    Told plan kind h answer d (.settling run answer)
  /-- It has its verdict. -/
  | settled {stage : CopyStage} (done : stage.isSettled = true)
    (entry : ∀ e, d.entry? h = some e → e.HasVerdict (plan.job.expected.bind nonBlank?) answer) :
    Told plan kind h answer d stage
  /-- The copy has been given up. -/
  | gone {stage : CopyStage} (up : stage.isGivenUp = true) : Told plan kind h answer d stage

/-- A copy has to do with the verdict of an entry only when it stores its digest. -/
theorem leavesVerdict_boardSection? (hopen : ∀ run result, stage ≠ .settling run result)
    {sec : BoardSection} (hsec : plan.boardSection? turn stage = some sec) (h : Handle) :
    sec.leavesVerdict h = true := by
  cases stage with
  | settling run result => exact absurd rfl (hopen run result)
  | _ => cases hsec <;> rfl

theorem isSettled_step (hdone : stage.isSettled = true) :
    (plan.step tools turn w stage).1.isSettled = true := by
  cases stage with
  | showingDigest => rfl
  | registering => rfl
  | ended result => exact hdone
  | _ => exact absurd hdone (by simp [CopyStage.isSettled])

/-- A copy keeps its handle until its digest is asked for, or is given up. -/
theorem Next.handle?_eq (hnext : plan.Next turn w stage next) (hmine : stage.handle? = some h)
    (hfinish : ∀ run, stage ≠ .showingFinish run) (hchoose : ∀ run, stage ≠ .choosingDigest run) :
    next.handle? = some h ∨ next.isGivenUp = true := by
  cases hnext with
  | asked => exact absurd rfl (hfinish _)
  | unasked => exact absurd rfl (hfinish _)
  | chosen => exact absurd rfl (hchoose _)
  | unchosen => exact absurd rfl (hchoose _)
  | stopped => exact .inr rfl
  | @unstopped run failure => exact .inr (CopyStage.isGivenUp_ended failure)
  | _ => first | exact .inl hmine | cases hmine

/-- What the entry says is said still when the sections since then leave its verdict. -/
theorem Told.congr (hstage : plan.Told kind h answer d stage)
    (hkeeps : ∀ e, d'.entry? h = some e → ∃ e₀, d.entry? h = some e₀ ∧ e₀.SameVerdict e) :
    plan.Told kind h answer d' stage := by
  have hawaits : plan.EntryAwaits kind h d → plan.EntryAwaits kind h d' := by
    intro hentry e hfinds
    obtain ⟨e₀, hfinds₀, hsame⟩ := hkeeps e hfinds
    exact (hentry e₀ hfinds₀).congr hsame
  cases hstage with
  | waiting mine entry => exact .waiting mine (hawaits entry)
  | asking mine entry => exact .asking mine (hawaits entry)
  | answered mine entry => exact .answered mine (hawaits entry)
  | settled done entry =>
    refine .settled done fun e hfinds => ?_
    obtain ⟨e₀, hfinds₀, hsame⟩ := hkeeps e hfinds
    exact (entry e₀ hfinds₀).congr hsame
  | gone up => exact .gone up

/-- The stage after a step, on the dashboard before it. -/
theorem told_next (hkind : plan.job.kind = some kind)
    (hdigest : ∀ run, stage = .hashing run kind plan.target →
      tools.digester w.disk kind plan.target = answer)
    (hstage : plan.Told kind h answer w.board stage)
    (hopen : ∀ run result, stage ≠ .settling run result) (turn : Turn) :
    plan.Told kind h answer w.board (plan.step tools turn w stage).1 := by
  cases hstage with
  | asking mine entry =>
    rw [step, hdigest _ rfl]
    exact .answered mine entry
  | answered mine entry => exact absurd rfl (hopen _ _)
  | settled done entry => exact .settled (isSettled_step done) entry
  | gone up => exact .gone (isGivenUp_step up)
  | waiting mine entry =>
    -- two of the waiting stages decide what is asked for; the others hand the entry on
    by_cases hfinish : ∃ run, stage = .showingFinish run
    · obtain ⟨run, rfl⟩ := hfinish
      rw [step, hkind]
      exact .waiting mine entry
    by_cases hchoose : ∃ run, stage = .choosingDigest run
    · obtain ⟨run, rfl⟩ := hchoose
      have hmine : run.handle = h := Option.some.inj mine
      rw [step, Dashboard.digestJob?, hmine]
      cases hfinds : w.board.entry? h with
      | none => exact .settled rfl fun e hfinds' => absurd (hfinds.symm.trans hfinds') (by simp)
      | some e =>
        rw [Option.bind_some, (entry e hfinds).digestJob?_eq]
        exact .asking hmine entry
    rcases (plan.next_step tools turn w stage).handle?_eq mine (fun run heq => hfinish ⟨run, heq⟩)
      (fun run heq => hchoose ⟨run, heq⟩) with hnext | hup
    · exact .waiting hnext entry
    · exact .gone hup

/-- The entry of a copy says at its stage what it is to say, and the handle is one that has been
given out. -/
structure Reports (plan : CopyPlan) (kind : DigestKind) (h : Handle)
    (answer : Except DigestError String) (c : CopyStage × Workshop) : Prop where
  /-- The detached handle finds nothing. -/
  detached : Dashboard.entry? c.2.board Handle.detached = none
  /-- The handle has been given out. -/
  given : h.generation ≤ c.2.board.state.allocations
  /-- What the entry says. -/
  told : plan.Told kind h answer c.2.board c.1

variable {c : CopyStage × Workshop}

/-- What others do leaves it. -/
theorem Reports.onBoard (hc : plan.Reports kind h answer c) {sec : BoardSection}
    (hsec : sec.leavesVerdict h = true) : plan.Reports kind h answer (onBoard c sec) where
  detached := Dashboard.detached_finds_none_after hc.detached sec
  given := Nat.le_trans hc.given (Dashboard.allocations_le_after c.2.board sec)
  told := by
    refine hc.told.congr fun e hfinds => ?_
    obtain ⟨e₀, hfinds₀, rfl⟩ := Dashboard.entry?_after hc.detached hc.given hfinds
    exact ⟨e₀, hfinds₀, BoardSection.sameVerdict_editThrough hsec e₀⟩

/-- The digest is stored in the entry, if it is there. -/
theorem told_settling (hc : plan.Reports kind h answer c) {run : CopyRun}
    {result : Except DigestError String} (hstage : c.1 = .settling run result) :
    plan.Told kind h answer (plan.step tools turn c.2 c.1).2.board
      (plan.step tools turn c.2 c.1).1 := by
  obtain ⟨stage, w⟩ := c
  obtain rfl : stage = _ := hstage
  have htold := hc.told
  cases htold with
  | waiting mine => cases mine
  | settled done => cases done
  | gone up => cases up
  | answered mine entry =>
    rw [step, mine]
    -- the entry is there and takes the answer, or it is lost and takes nothing
    split
    · refine .settled rfl fun e hfinds => ?_
      have hafter : Dashboard.entry? (w.board.after (.settleDigest h answer)) h = some e := hfinds
      obtain ⟨e₀, hfinds₀, rfl⟩ := Dashboard.entry?_after hc.detached hc.given hafter
      rw [BoardSection.editThrough_self rfl]
      exact (entry e₀ hfinds₀).hasVerdict answer
    · next hlost =>
      refine .settled rfl fun e hfinds => absurd ?_ hlost
      rw [show w.board.entry? h = some e from hfinds]
      rfl

/-- **A step of the copy keeps it.** -/
theorem reports_step (hkind : plan.job.kind = some kind)
    (hdigest : ∀ run, c.1 = .hashing run kind plan.target →
      tools.digester c.2.disk kind plan.target = answer)
    (hc : plan.Reports kind h answer c) (turn : Turn) :
    plan.Reports kind h answer (plan.step tools turn c.2 c.1) := by
  have hboard := plan.board_step tools turn c.2 c.1
  have hkeeps : Dashboard.entry? (plan.step tools turn c.2 c.1).2.board Handle.detached = none ∧
      h.generation ≤ (plan.step tools turn c.2 c.1).2.board.state.allocations := by
    rw [hboard]
    cases plan.boardSection? turn c.1 with
    | none => exact ⟨hc.detached, hc.given⟩
    | some sec =>
      exact ⟨Dashboard.detached_finds_none_after hc.detached sec,
        Nat.le_trans hc.given (Dashboard.allocations_le_after _ sec)⟩
  refine ⟨hkeeps.1, hkeeps.2, ?_⟩
  -- storing the answer is the one section that may change the verdict
  by_cases hsettling : ∃ run result, c.1 = .settling run result
  · obtain ⟨run, result, hstage⟩ := hsettling
    exact told_settling hc hstage
  · have hopen : ∀ run result, c.1 ≠ .settling run result := fun run result heq =>
      hsettling ⟨run, result, heq⟩
    have htold := told_next hkind hdigest hc.told hopen turn
    rw [hboard]
    cases hsec : plan.boardSection? turn c.1 with
    | none => exact htold
    | some sec =>
      exact (Reports.onBoard (c := ((plan.step tools turn c.2 c.1).1, c.2))
        ⟨hc.detached, hc.given, htold⟩ (leavesVerdict_boardSection? hopen hsec h)).told

/-- When the copy has been announced its entry awaits its digest. -/
theorem reports_announcing (hkind : plan.job.kind = some kind)
    (hdetached : w.board.entry? Handle.detached = none) (tools : CopyTools) (turn : Turn)
    (source temp : Place) (total : Nat) (answer : Except DigestError String) :
    plan.Reports kind (w.board.track (plan.request total) turn.now).1 answer
      (plan.step tools turn w (.announcing source temp total)) where
  detached := Dashboard.detached_finds_none_after hdetached (.track (plan.request total) turn.now)
  given := w.board.generation_track_le (plan.request total) turn.now
  told := by
    refine .waiting rfl fun e hfinds => ?_
    obtain ⟨slot, generation, rfl⟩ :=
      Dashboard.entry?_announced hdetached (plan.request total) turn.now hfinds
    exact EntryRequest.awaits_entry (r := plan.request total) hkind rfl slot generation turn.now

/-- **A course of the copy keeps it**, if nobody else tells the file or stores the digest: what
is hashed has the bytes of the source. -/
theorem reports_run {d₀ : Disk} {bytes : Bytes} {moves : List CopyMove} (hp : plan.Proper)
    (hdigester : tools.digester = Disk.digest) (hkind : plan.job.kind = some kind)
    (hbytes : d₀.bytesAt? plan.job.source = some bytes)
    (hmoves : ∀ move ∈ moves, move.MadeOf (BoardSection.leavesVerdict h))
    (hholds : plan.Holds d₀ c.2.disk c.1)
    (hc : plan.Reports kind h (.ok (hexText (kind.ofBytes bytes))) c) :
    plan.Reports kind h (.ok (hexText (kind.ofBytes bytes))) (plan.run tools c moves) := by
  refine (run_of_sections (P := fun c => plan.Holds d₀ c.2.disk c.1 ∧
    plan.Reports kind h (.ok (hexText (kind.ofBytes bytes))) c) ?_ ?_ hmoves ⟨hholds, hc⟩).2
  · rintro c turn ⟨hholds, hc⟩
    refine ⟨holds_step hp tools turn hholds, reports_step hkind (fun run hstage => ?_) hc turn⟩
    rw [hstage] at hholds
    obtain ⟨⟨bytes', hbytes', hthere⟩, -⟩ := hholds.content
    obtain rfl := Option.some.inj (hbytes.symm.trans hbytes')
    rw [hdigester, Disk.digest_of_file hthere]
  · rintro c sec hsec ⟨hholds, hc⟩
    exact ⟨hholds, hc.onBoard hsec⟩

/-- **What the entry says when the copy is complete.** -/
theorem Reports.hasVerdict (hc : plan.Reports kind h answer c) (hlanded : c.1.isLanded = true)
    {e : Entry} (hfinds : Dashboard.entry? c.2.board h = some e) :
    e.HasVerdict (plan.job.expected.bind nonBlank?) answer := by
  obtain ⟨stage, w⟩ := c
  obtain ⟨result, rfl⟩ : ∃ result, stage = .ended result := by
    cases stage with
    | ended result => exact ⟨result, rfl⟩
    | _ => cases hlanded
  obtain ⟨p, rfl⟩ := CopyStage.isLanded_ended.mp hlanded
  cases hc.told with
  | waiting mine => cases mine
  | settled done entry => exact entry e hfinds
  | gone up => cases up

end CopyPlan

variable {job : CopyJob} {tools : CopyTools} {moves : List CopyMove} {w : Workshop}
  {kind : DigestKind} {h : Handle} {p : Path} {bytes : Bytes}

/-- **The entry of a complete copy has the verdict of the bytes of its source**, if it is held
still, and nobody else has told its file or stored its digest. -/
theorem copy_has_verdict (hdigester : tools.digester = Disk.digest)
    (hpast : ∃ surface interval earlier, w.board = (Dashboard.fresh surface interval).run earlier)
    (hkind : job.kind = some kind) (hbytes : w.disk.bytesAt? job.source = some bytes)
    (hend : (job.copyDuring tools moves w).1 = some (.ok (.completed p)))
    (hgiven : job.Given tools moves w h)
    (hmoves : ∀ move ∈ moves, move.MadeOf (BoardSection.leavesVerdict h)) {e : Entry}
    (hfinds : Dashboard.entry? (job.copyDuring tools moves w).2.board h = some e) :
    e.HasVerdict (job.expected.bind nonBlank?) (.ok (hexText (kind.ofBytes bytes))) := by
  obtain ⟨plan, hplan, rfl, hrun, -⟩ := CopyJob.run_of_completed hend
  obtain ⟨plan', past, turn, rest, source, temp, total, hplan', rfl, hstage, rfl⟩ := hgiven
  obtain rfl := Option.some.inj (hplan.symm.trans hplan')
  obtain ⟨hp, rfl, -⟩ := CopyPlan.proper_of_plan? hplan
  have hearlier := fun move hmove => hmoves move (List.mem_append_left _ hmove)
  have hlater := fun move hmove =>
    hmoves move (List.mem_append_right _ (List.mem_cons_of_mem _ hmove))
  have hholds := (CopyPlan.holds_run hp tools past (.opening, w) (plan.holds_opening w.disk)).1
  -- at the announcement the entry is new; the rest of the run starts from there
  have hdetached :
      Dashboard.entry? (plan.run tools (.opening, w) past).2.board Handle.detached = none := by
    obtain ⟨surface, interval, sections, hboard⟩ := hpast
    obtain ⟨sections', hboard'⟩ := CopyPlan.board_run hearlier plan tools (.opening, w)
    rw [hboard', hboard, ← Dashboard.run_append]
    exact Dashboard.detached_finds_none_run surface interval _
  rw [CopyPlan.run_append] at hrun
  generalize plan.run tools (.opening, w) past = c at hstage hholds hdetached hlater hrun hfinds
  obtain ⟨stage, shop⟩ := c
  obtain rfl : stage = .announcing source temp total := hstage
  -- the digest is taken of the whole file, once all of it has been copied
  have hreports := CopyPlan.reports_run hp hdigester hkind hbytes hlater
    (CopyPlan.holds_step hp tools turn hholds)
    (CopyPlan.reports_announcing hkind hdetached tools turn source temp total _)
  have hrest : plan.run tools (plan.step tools turn shop (.announcing source temp total)) rest =
      (.ended (.ok (.completed plan.target)), _) := hrun
  rw [hrest] at hreports
  exact hreports.hasVerdict rfl hfinds

end TransferBoard
