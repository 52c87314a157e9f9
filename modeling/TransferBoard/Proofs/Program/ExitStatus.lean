import TransferBoard.Proofs.Board.CompletionWait
import TransferBoard.Proofs.Program.Schedule
import TransferBoard.Proofs.Verify.ReportText

/-!
# How a run that copies files ends

A run has many ends: before the first copy, in the wait after the last one, in the questions, in
the report, and after all of that.  Scripts rely on the status.  A run in which a copy has failed
never ends well, whatever else becomes of it; and one that ends well has completed its copies, or
the user has cancelled.

The wait after the last transfer ends at a time that is calculated first.  When that time is
beyond the range of the clock the program breaks down, with a status of its own.

Whether there is a wait at all depends on what the program has seen of the flag.  A cancel that
comes after that look is too late: there are the wait and the questions, and the report is written.

## Main definitions

* `CopiesMade.OverflowsAt` — the wait would end beyond the range of the clock.
* `CopyLaunch.Concludes` — what holds after the last copy.
* `CopyRequest.EndsWell` — what holds of all of the ends.

## Main results

* `ask_eq_overflow_iff` — when the program breaks down.
* `concludes_conclude` — what holds after the last copy does.
* `copy_run_ends_as_its_copies` — **and so the status tells what has become of the copies.**
-/

namespace TransferBoard

/-! ### The questions -/

namespace Session

/-- The questions do not break down. -/
theorem verify_ne_overflow (s : Session) (digester : Digester) :
    (s.verify digester).1 ≠ .error .clockOverflow := by
  unfold verify
  dsimp only
  split
  · simp
  · split <;> simp

end Session

/-- The wait after the last copy would end beyond the range of the clock. -/
structure CopiesMade.OverflowsAt (made : CopiesMade) (now : Moment) : Prop where
  /-- The program has not seen that the end was asked for, so there is a wait. -/
  goes : made.cancelled = false
  /-- It is shown. -/
  shown : made.session.completionShown now = .ok ()
  /-- There are keys to wait for. -/
  keys : made.session.control ≠ .broken
  /-- Its end is beyond the range of the clock. -/
  beyond : clockEnd ≤ now + made.session.config.completionWait

namespace CopyLaunch

variable (launch : CopyLaunch) (made : CopiesMade) (home : Disk) (now : Moment)

/-- The questions, put after the wait. -/
def questions : Except SessionError WorkflowOutcome :=
  ((made.session.waitForCompletion now).2.verify made.disk.digest).1

/-- **When the program breaks down.** -/
theorem ask_eq_overflow_iff :
    launch.ask made now = .error .clockOverflow ↔ made.OverflowsAt now := by
  have hwait := made.session.waitForCompletion_eq_overflow_iff now
  cases hcancelled : made.cancelled with
  | true =>
    rw [ask, if_pos hcancelled]
    exact ⟨nofun, fun h => nomatch hcancelled.symm.trans h.goes⟩
  | false =>
    -- only the wait can run into the end of the clock; the questions never do
    have hoverflows : made.OverflowsAt now ↔
        (made.session.waitForCompletion now).1 = .error .clockOverflow := by
      rw [hwait]
      exact ⟨fun h => ⟨h.shown, h.keys, h.beyond⟩, fun ⟨h, h', h''⟩ => ⟨hcancelled, h, h', h''⟩⟩
    rw [hoverflows, ask, if_neg (by simp [hcancelled])]
    rcases made.session.waitForCompletion now with ⟨waited, session⟩
    cases waited with
    | error e => simp
    | ok pressed =>
      have hverify := session.verify_ne_overflow made.disk.digest
      dsimp only
      split
      · simp
      · cases hanswer : (session.verify made.disk.digest).1 with
        | error e => rw [hanswer] at hverify; simpa [Except.map] using hverify
        | ok w => simp [Except.map]

/-- **The questions are asked only if the program goes on**, and questions were wanted. -/
theorem ask_eq_some {w : WorkflowOutcome} (h : launch.ask made now = .ok (some w)) :
    made.cancelled = false ∧ launch.request.noVerify = false ∧
      questions made now = .ok w := by
  unfold ask at h
  split at h
  · exact nomatch h
  next hgoes =>
  unfold questions
  -- the wait was got through, or nothing would have been asked
  generalize made.session.waitForCompletion now = ends at h ⊢
  obtain ⟨waited, session⟩ := ends
  cases waited with
  | error e => exact nomatch h
  | ok pressed =>
    dsimp only at h ⊢
    split at h
    · exact nomatch h
    next hwanted =>
    refine ⟨by simpa using hgoes, by simpa using hwanted, ?_⟩
    cases hanswer : (session.verify made.disk.digest).1 with
    | error e => rw [hanswer] at h; exact nomatch h
    | ok w' =>
      rw [hanswer] at h
      obtain rfl := Option.some.inj (Except.ok.inj h)
      rfl

/-- **And they are asked then**, if the session can go on. -/
theorem ask_eq_none (h : launch.ask made now = .ok none) :
    made.cancelled = true ∨ launch.request.noVerify = true := by
  unfold ask at h
  split at h
  · next hcancelled => exact .inl hcancelled
  split at h
  · exact nomatch h
  split at h
  · next hunwanted => exact .inr hunwanted
  · next session _ _ =>
    cases hanswer : (session.verify made.disk.digest).1 with
    | error e => rw [hanswer] at h; exact nomatch h
    | ok w => rw [hanswer] at h; exact nomatch h

/-! ### After the questions -/

/-- The lines about the copies. -/
def copyLines : List String :=
  (launch.jobs.zip made.results).filterMap fun p => copyLine? p.1 p.2

/-- The outcome with the lines about the copies. -/
def told : RunOutcome :=
  ({ disk := made.disk, home := home } : RunOutcome).tell launch.jobs made.results

/-- The end of a run whose report has been written, or could not be. -/
def wrapUp : Except ProgramError Unit × RunOutcome → RunOutcome
  | (.error e, o) => o.failed e
  | (.ok (), o) =>
    if failureCount made.results = 0 then o
    else o.failed (.copiesFailed (failureCount made.results) launch.jobs.length)

variable {launch made home now}

theorem conclude_of_error {e : SessionError} (h : launch.ask made now = .error e) :
    launch.conclude made home now =
      ({ disk := made.disk, home := home } : RunOutcome).failed (.session e) := by
  rw [conclude, h]

theorem conclude_of_none (h : launch.ask made now = .ok none) :
    launch.conclude made home now = launch.wrapUp made (.ok (), launch.told made home) := by
  rw [conclude, h]
  rfl

theorem conclude_of_some {w : WorkflowOutcome} (h : launch.ask made now = .ok (some w)) :
    launch.conclude made home now =
      launch.wrapUp made (launch.writeReport (launch.told made home) w) := by
  rw [conclude, h, told]
  dsimp only
  generalize launch.writeReport _ w = reported
  obtain ⟨written, o⟩ := reported
  cases written <;> rfl

variable (launch made) in
theorem wrapUp_rest (written : Except ProgramError Unit) (o : RunOutcome) :
    (launch.wrapUp made (written, o)).disk = o.disk ∧
      (launch.wrapUp made (written, o)).home = o.home ∧
      (launch.wrapUp made (written, o)).out = o.out := by
  cases written with
  | error e => exact ⟨rfl, rfl, rfl⟩
  | ok u =>
    rw [wrapUp]
    split <;> exact ⟨rfl, rfl, rfl⟩

theorem failureCount_eq_zero_iff {results : List CopyResult} :
    failureCount results = 0 ↔ ∀ result ∈ results, isFailure result = false := by
  rw [failureCount, List.countP_eq_zero]
  simp

variable (launch made) in
/-- A run that has gone as far as its last step ends well if all was written and all was copied. -/
theorem status_wrapUp {o : RunOutcome} (ho : o.status = 0) {written : Except ProgramError Unit}
    (hwritten : ∀ e, written = .error e → e.exitStatus = 1) :
    (launch.wrapUp made (written, o)).status = 0 ∧ written = .ok () ∧
        (∀ result ∈ made.results, isFailure result = false) ∨
      (launch.wrapUp made (written, o)).status = 1 := by
  cases written with
  | error e => exact .inr (hwritten e rfl)
  | ok u =>
    rw [wrapUp]
    split
    · next hnone => exact .inl ⟨ho, rfl, failureCount_eq_zero_iff.mp hnone⟩
    · exact .inr rfl

/-- What is written about a verification: a report in its file, or a failure. -/
theorem writeReport_spec (o : RunOutcome) (w : WorkflowOutcome) :
    (launch.writeReport o w).2.status = o.status ∧ (launch.writeReport o w).2.home = o.home ∧
      (∀ e, (launch.writeReport o w).1 = .error e → e.exitStatus = 1) ∧
      (launch.request.report = none →
        (launch.writeReport o w).1 = .ok () ∧ (launch.writeReport o w).2.disk = o.disk) ∧
      ∀ path, launch.request.report = some path →
        (launch.writeReport o w).2.disk = (w.save o.disk path).2 ∧
          ((launch.writeReport o w).1 = .ok () ↔ (w.save o.disk path).1 = .ok ()) := by
  rw [writeReport]
  cases launch.request.report with
  | none => exact ⟨rfl, rfl, nofun, fun _ => ⟨rfl, rfl⟩, nofun⟩
  | some path =>
    -- the lines that are printed first do not touch the disk
    have hdisk : (o.print (verificationLines w)).disk = o.disk := rfl
    dsimp only
    rw [hdisk]
    cases hsaved : w.save o.disk path with
    | mk saved disk =>
      cases saved with
      | error e =>
        refine ⟨rfl, rfl, ?_, nofun, ?_⟩
        · intro e' he
          obtain rfl := Except.error.inj he
          rfl
        · intro path' hpath
          obtain rfl := Option.some.inj hpath
          rw [hsaved]
          exact ⟨rfl, by simp⟩
      | ok u =>
        refine ⟨rfl, rfl, nofun, nofun, ?_⟩
        intro path' hpath
        obtain rfl := Option.some.inj hpath
        rw [hsaved]
        exact ⟨rfl, by simp⟩

variable (launch made home now) in
/-- What holds after the last copy. -/
structure Concludes (o : RunOutcome) : Prop where
  /-- The settings are left alone. -/
  home : o.home = home
  /-- There are three statuses. -/
  statuses : o.status = 0 ∨ o.status = 1 ∨ o.status = 101
  /-- A run that ends well has no copy that has failed. -/
  successful : o.status = 0 → ∀ result ∈ made.results, isFailure result = false
  /-- The program breaks down when the end of the wait is beyond the range of the clock. -/
  breakdown : o.status = 101 ↔ made.OverflowsAt now
  /-- A session that could not go on is an error. -/
  unsettled : ∀ e, launch.ask made now = .error e → o.status ≠ 0
  /-- When there were no questions, nothing is said or written about them. -/
  unasked : (∀ w, launch.ask made now ≠ .ok (some w)) →
    o.disk = made.disk ∧ o.out ⊆ launch.copyLines made
  /-- Without a report nothing is written. -/
  unreported : launch.request.report = none → o.disk = made.disk
  /-- A report that is asked for is in its file, or the run ends with an error. -/
  reported : ∀ w path, launch.ask made now = .ok (some w) → launch.request.report = some path →
    (o.disk.HoldsReport path w ∧
      ∀ q, made.disk.nodeAt q ≠ none → o.disk.resolve path ≠ .ok q →
        o.disk.nodeAt q = made.disk.nodeAt q) ∨
    o.status = 1 ∧ made.disk.Grows o.disk

theorem overflowsAt_iff {e : SessionError} (h : launch.ask made now = .error e) :
    made.OverflowsAt now ↔ e = .clockOverflow := by
  rw [← launch.ask_eq_overflow_iff, h]
  exact ⟨Except.error.inj, congrArg _⟩

theorem not_overflowsAt {asked : Option WorkflowOutcome} (h : launch.ask made now = .ok asked) :
    ¬ made.OverflowsAt now := by
  rw [← launch.ask_eq_overflow_iff, h]
  exact nofun

/-- The session could not go on, so there are no questions and no report. -/
theorem concludes_of_error {e : SessionError} (h : launch.ask made now = .error e) :
    launch.Concludes made home now (launch.conclude made home now) := by
  rw [conclude_of_error h]
  have hbreakdown : (ProgramError.session e).exitStatus = 101 ↔ e = .clockOverflow := by
    cases e <;> simp [ProgramError.exitStatus, ProgramError.isBreakdown]
  have hstatus : (ProgramError.session e).exitStatus = 1 ∨
      (ProgramError.session e).exitStatus = 101 := by
    cases e <;> simp [ProgramError.exitStatus, ProgramError.isBreakdown]
  exact {
    home := rfl
    statuses := .inr hstatus
    successful := fun hzero => by
      change (ProgramError.session e).exitStatus = 0 at hzero
      omega
    breakdown := hbreakdown.trans (overflowsAt_iff h).symm
    unsettled := fun _ _ hzero => by
      change (ProgramError.session e).exitStatus = 0 at hzero
      omega
    unasked := fun _ => ⟨rfl, List.nil_subset _⟩
    unreported := fun _ => rfl
    reported := fun w path hasked => nomatch h.symm.trans hasked }

/-- There were no questions. -/
theorem concludes_of_none (h : launch.ask made now = .ok none) :
    launch.Concludes made home now (launch.conclude made home now) := by
  rw [conclude_of_none h]
  obtain ⟨hdisk, hhome, hout⟩ := launch.wrapUp_rest made (.ok ()) (launch.told made home)
  have hwritten : ∀ e : ProgramError, (.ok () : Except ProgramError Unit) = .error e →
      e.exitStatus = 1 := nofun
  have hstatus := launch.status_wrapUp made (o := launch.told made home) rfl hwritten
  have hends := hstatus.imp_left And.left
  exact {
    home := hhome
    statuses := by omega
    successful := fun hzero => by
      rcases hstatus with ⟨-, -, hall⟩ | hone
      · exact hall
      · omega
    breakdown := ⟨fun h101 => by omega, fun hover => absurd hover (not_overflowsAt h)⟩
    unsettled := fun e hask => nomatch h.symm.trans hask
    unasked := fun _ => ⟨hdisk, by rw [hout]; exact List.Subset.refl _⟩
    unreported := fun _ => hdisk
    reported := fun w path hasked => nomatch h.symm.trans hasked }

variable (home) in
/-- What comes of the questions is saved where the report is wanted. -/
theorem disk_conclude_of_some {w : WorkflowOutcome} {path : Path}
    (h : launch.ask made now = .ok (some w)) (hreport : launch.request.report = some path) :
    (launch.conclude made home now).disk = (w.save made.disk path).2 := by
  obtain ⟨-, -, -, -, hsome⟩ := launch.writeReport_spec (launch.told made home) w
  rw [conclude_of_some h]
  exact (launch.wrapUp_rest made _ _).1.trans (hsome path hreport).1

/-- There were questions, and what came of them is written. -/
theorem concludes_of_some {w : WorkflowOutcome} (h : launch.ask made now = .ok (some w)) :
    launch.Concludes made home now (launch.conclude made home now) := by
  have hsaves : ∀ path, launch.request.report = some path →
      (launch.conclude made home now).disk = (w.save made.disk path).2 :=
    fun _ => disk_conclude_of_some home h
  rw [conclude_of_some h] at hsaves ⊢
  obtain ⟨hzero, hhome, hwritten, hnone, hsome⟩ :=
    launch.writeReport_spec (launch.told made home) w
  generalize launch.writeReport (launch.told made home) w = reported at *
  obtain ⟨written, o⟩ := reported
  dsimp only at hzero hhome hwritten hnone hsome
  obtain ⟨hdisk', hhome', -⟩ := launch.wrapUp_rest made written o
  -- the status is zero and all is well, or it is one
  have hstatus := launch.status_wrapUp made hzero hwritten
  have hends := hstatus.imp_left And.left
  exact {
    home := hhome'.trans hhome
    statuses := by omega
    successful := fun hend => by
      rcases hstatus with ⟨-, -, hall⟩ | hone
      · exact hall
      · omega
    breakdown := ⟨fun h101 => by omega, fun hover => absurd hover (not_overflowsAt h)⟩
    unsettled := fun e hask => nomatch h.symm.trans hask
    unasked := fun hnot => absurd h (hnot w)
    unreported := fun hreport => hdisk'.trans (hnone hreport).2
    reported := fun w' path hasked hreport => by
      obtain rfl := Option.some.inj (Except.ok.inj (h.symm.trans hasked))
      obtain ⟨-, hsaved⟩ := hsome path hreport
      -- the report is there, or what there was before has only grown
      obtain ⟨hfailed, hthere⟩ := w.save_spec made.disk path
      rw [hsaves path hreport]
      cases hresult : (w.save made.disk path).1 with
      | ok u => exact .inl ⟨w.holdsReport_save hresult, (hthere hresult).2⟩
      | error e =>
        refine .inr ⟨?_, hfailed e hresult⟩
        rcases hstatus with ⟨-, hok, -⟩ | hone
        · exact nomatch (hsaved.mp hok).symm.trans hresult
        · exact hone }

variable (launch made home now) in
/-- **What holds after the last copy does**, in each way in which the questions may end. -/
theorem concludes_conclude : launch.Concludes made home now (launch.conclude made home now) := by
  cases hask : launch.ask made now with
  | error e => exact concludes_of_error hask
  | ok asked =>
    cases asked with
    | none => exact concludes_of_none hask
    | some w => exact concludes_of_some hask

/-- What the end of a run tells of its copies.  The program looks at the flag after `moves`, and the
control channel goes on in the `meantime`. -/
structure EndsAsItsCopies (launch : CopyLaunch) (r : CopyRequest)
    (moves meantime : List LaunchMove) (made : CopiesMade) (home : Disk) (later : Moment)
    (o : RunOutcome) : Prop where
  /-- The settings are left alone. -/
  home : o.home = home
  /-- A run in which a copy has failed ends with an error, whatever else becomes of it. -/
  failing : (∃ e, .error e ∈ made.results) → o.status = 1 ∨ o.status = 101
  /-- The status of a breakdown stands for one thing only. -/
  breakdown : o.status = 101 ↔ made.OverflowsAt later
  /-- In a run that ends well every job is complete, or the user has cancelled. -/
  successful : o.status = 0 → made.results.length = launch.jobs.length ∧
    ∀ result ∈ made.results, (∃ path, result = .ok (.completed path)) ∨
      result = .ok .cancelled ∧ launch.UserCancels moves
  /-- Who cancels has typed a key that asks for the end. -/
  typed : launch.UserCancels moves → ∃ key, controlAction? key = some .cancel ∧
    .press key ∈ launch.session.keys ++ moves.flatMap LaunchMove.keys
  /-- A cancel is seen when it comes before the look at the flag; a later one sets the flag, and is
  not seen. -/
  seen : (made.cancelled = true ↔ launch.UserCancels moves) ∧
    (made.session.board.isCancelled = true ↔
      launch.UserCancels moves ∨ launch.CancelsLate moves meantime)
  /-- After a cancel that is seen, or when no questions are wanted, nothing is said of a
  verification, and nothing is written. -/
  unasked : launch.UserCancels moves ∨ r.noVerify = true →
    o.disk = made.disk ∧ o.out ⊆ launch.copyLines made
  /-- Without a report nothing is written. -/
  unreported : r.report = none → o.disk = made.disk
  /-- Otherwise, also after a cancel that comes too late, the report holds what has come of the
  questions, and nothing else has changed but for directories that lead to it; or the run ends with
  an error, and has added directories. -/
  reported : ¬ launch.UserCancels moves → r.noVerify = false → ∀ path, r.report = some path →
    (∃ w, questions made later = .ok w ∧ o.disk.HoldsReport path w ∧
      ∀ q, made.disk.nodeAt q ≠ none → o.disk.resolve path ≠ .ok q →
        o.disk.nodeAt q = made.disk.nodeAt q) ∨
    o.status ≠ 0 ∧ made.disk.Grows o.disk

end CopyLaunch

namespace CopyRequest

/-- The run gets as far as its copies, and these are over at the end of the schedule. -/
def Makes (r : CopyRequest) (s : Surroundings) (config : Config)
    (moves meantime : List LaunchMove) (launch : CopyLaunch) (made : CopiesMade) : Prop :=
  ∃ edited, r.edit s = .ok (some edited) ∧ edited.launch s config = .ok launch ∧
    launch.copiesDuring moves meantime = some made

/-- A run that gets as far as its copies ends as it does after them. -/
theorem Makes.runDuring_eq {r : CopyRequest} {s : Surroundings} {config : Config}
    {moves meantime : List LaunchMove} {launch : CopyLaunch} {made : CopiesMade}
    (h : r.Makes s config moves meantime launch made) (home : Disk) (later : Moment) :
    r.runDuring s config home moves meantime later = some (launch.conclude made home later) := by
  obtain ⟨edited, hedit, hlaunch, hmade⟩ := h
  rw [runDuring, hedit]
  dsimp only
  rw [hlaunch]
  dsimp only
  rw [hmade]
  rfl

theorem endsAsItsCopies {r : CopyRequest} {s : Surroundings} {config : Config} {home : Disk}
    {moves meantime : List LaunchMove} {later : Moment} {launch : CopyLaunch} {made : CopiesMade}
    (h : r.Makes s config moves meantime launch made) :
    launch.EndsAsItsCopies r moves meantime made home later
      (launch.conclude made home later) := by
  obtain ⟨edited, hedit, hlaunch, hmade⟩ := h
  obtain ⟨hrequest, hstart, -⟩ := EditedRequest.launch_eq_ok hlaunch
  obtain ⟨hverify, hreport⟩ := edit_eq_ok hedit
  rw [← hrequest] at hverify hreport
  obtain ⟨hlength, hcancelled, huser, hflag⟩ := launch.results_copiesDuring hstart hmade
  have hends := launch.concludes_conclude made home later
  have hunasked : launch.UserCancels moves ∨ r.noVerify = true →
      ∀ w, launch.ask made later ≠ .ok (some w) := by
    intro hquiet w hasked
    obtain ⟨hgoes, hwanted, -⟩ := launch.ask_eq_some made later hasked
    rcases hquiet with hquits | hunwanted
    · exact Bool.false_ne_true (hgoes.symm.trans (huser.mpr hquits))
    · exact Bool.false_ne_true ((hwanted.symm.trans hverify).trans hunwanted)
  exact {
    home := hends.home
    failing := by
      rintro ⟨e, he⟩
      have hzero : (launch.conclude made home later).status ≠ 0 :=
        fun hzero => nomatch hends.successful hzero _ he
      have hstatuses := hends.statuses
      omega
    breakdown := hends.breakdown
    successful := fun hzero => by
      refine ⟨hlength, fun result hresult => ?_⟩
      have hfine := hends.successful hzero result hresult
      cases result with
      | error e => exact nomatch hfine
      | ok outcome =>
        cases outcome with
        | completed path => exact .inl ⟨path, rfl⟩
        | cancelled => exact .inr ⟨rfl, huser.mp (hcancelled hresult)⟩
    typed := launch.typed_of_userCancels
    seen := ⟨huser, hflag⟩
    unasked := fun hquiet => hends.unasked (hunasked hquiet)
    unreported := fun hnone => hends.unreported (hreport.trans hnone)
    reported := fun hgoes hwanted path hpath => by
      cases hask : launch.ask made later with
      | error e =>
        -- the session could not go on
        obtain ⟨hdisk, -⟩ := hends.unasked fun w hasked => nomatch hask.symm.trans hasked
        exact .inr ⟨hends.unsettled e hask, by rw [hdisk]; exact .refl _⟩
      | ok asked =>
        cases asked with
        | none =>
          rcases launch.ask_eq_none made later hask with hquits | hunwanted
          · exact absurd (huser.mp hquits) hgoes
          · exact absurd ((hverify.symm.trans hunwanted).symm.trans hwanted) (by simp)
        | some w =>
          obtain ⟨-, -, hquestions⟩ := launch.ask_eq_some made later hask
          rcases hends.reported w path hask (hreport.trans hpath) with
            ⟨hholds, hothers⟩ | ⟨hone, hgrows⟩
          · exact .inl ⟨w, hquestions, hholds, hothers⟩
          · exact .inr ⟨by omega, hgrows⟩ }

/-- What holds of all the ways in which a run may end. -/
structure EndsWell (r : CopyRequest) (s : Surroundings) (config : Config) (home : Disk)
    (moves meantime : List LaunchMove) (later : Moment) : Prop where
  /-- The user leaves the batch screen: nothing on the disk changes. -/
  quit : r.edit s = .ok none → ∃ o, r.runDuring s config home moves meantime later = some o ∧
    o.status = 0 ∧ o.disk = s.disk ∧ o.home = home
  /-- The request does not amount to jobs: nothing on the disk changes either. -/
  refused : ∀ edited cause, r.edit s = .ok (some edited) →
    edited.request.jobs config = .error cause →
      ∃ o, r.runDuring s config home moves meantime later = some o ∧
        o.status = 1 ∧ o.disk = s.disk ∧ o.home = home
  /-- Anything else that goes wrong before the first copy. -/
  unstarted : ((∃ e, r.edit s = .error e) ∨ ∃ edited failure, r.edit s = .ok (some edited) ∧
    edited.launch s config = .error failure) →
      ∃ o, r.runDuring s config home moves meantime later = some o ∧
        o.status = 1 ∧ s.disk.Grows o.disk ∧ o.home = home
  /-- The copies are made. -/
  copied : ∀ launch made, r.Makes s config moves meantime launch made →
    ∃ o, r.runDuring s config home moves meantime later = some o ∧
      launch.EndsAsItsCopies r moves meantime made home later o

/-- **The status tells what has become of the copies**, in every order in which the workers, the
keys and the streams may take their steps, also between the look at the flag and the wait; and the
program is one such order, with the keys that are typed. -/
theorem copy_run_ends_as_its_copies (r : CopyRequest) (s : Surroundings) (config : Config)
    (home : Disk) :
    (∀ moves meantime later, r.EndsWell s config home moves meantime later) ∧
      ∃ moves, moves.flatMap LaunchMove.keys = [] ∧
        r.run s config home =
          r.runDuring s config home moves (s.keys.after.map .typed) s.now := by
  refine ⟨fun moves meantime later => ?_, r.run_eq_runDuring s config home⟩
  -- one field for each way in which a run may end before or after its copies
  exact {
    quit := fun hedit => by
      rw [runDuring, hedit]
      exact ⟨_, rfl, rfl, rfl, rfl⟩
    refused := fun edited cause hedit hjobs => by
      have hlaunch := edited.launch_of_refused s hjobs
      rw [runDuring, hedit]
      dsimp only
      rw [hlaunch]
      exact ⟨_, rfl, rfl, rfl, rfl⟩
    unstarted := fun hwrong => by
      rcases hwrong with ⟨e, hedit⟩ | ⟨edited, ⟨cause, disk⟩, hedit, hlaunch⟩
      · rw [runDuring, hedit]
        exact ⟨_, rfl, edit_eq_error hedit, .refl _, rfl⟩
      · obtain ⟨hone, hgrows⟩ := EditedRequest.launch_eq_error hlaunch
        rw [runDuring, hedit]
        dsimp only
        rw [hlaunch]
        exact ⟨_, rfl, hone, hgrows, rfl⟩
    copied := fun launch made hmakes =>
      ⟨_, hmakes.runDuring_eq home later, endsAsItsCopies hmakes⟩ }

/-- One of two copies fails, and the user asks for the end when the program has looked already.  The
questions are asked all the same, and the report tells what has come of them; the run ends with an
error. -/
theorem one_of_two_copies_fails :
    let r : CopyRequest :=
      { sources := [⟨"a"⟩, ⟨"missing"⟩], dest := ⟨"out"⟩, concurrency := some 1
        report := some ⟨"report"⟩ }
    let s : Surroundings :=
      { disk := ⟨[(["a"], .file #[7])]⟩, configFile := ⟨"settings"⟩
        terminal := some (.new 0 0) }
    let moves := List.replicate 50 (LaunchMove.worker 0 { now := 0 })
    let meantime : List LaunchMove :=
      [.typed (.press (.char 'c')), .control 0, .typed (.press .enter),
        .typed (.press (.char 'y')), .typed (.press (.char '1')), .typed (.press .enter)]
    ∃ launch made w o, r.Makes s {} moves meantime launch made ∧
      made.results = [.ok (.completed ⟨"out/a"⟩), .error (.openSource ⟨"missing"⟩ .notFound)] ∧
      launch.CancelsLate moves meantime ∧ made.session.board.isCancelled = true ∧
      r.runDuring s {} {} moves meantime 0 = some o ∧ o.status = 1 ∧
      o.disk.bytesAt? ⟨"out/a"⟩ = some #[7] ∧ o.disk.HoldsReport ⟨"report"⟩ w ∧
      w.report = "\n".intercalate
        ["\x7b", "  \"status\": \"completed\",", "  \"summary\": \x7b", "    \"verified\": 0,",
          "    \"failed\": 0,", "    \"skipped\": 1", "  \x7d,", "  \"files\": [", "    \x7b",
          "      \"display_name\": \"a\",", "      \"path\": \"out/a\",", "      \"kind\": \"md5\",",
          "      \"digest\": \"89e74e640b8c46257a29de0616794d5d\",",
          "      \"expected_digest\": null,", "      \"computed\": true,",
          "      \"verified\": false,", "      \"state\": \x7b", "        \"state\": \"skipped\"",
          "      \x7d", "    \x7d", "  ]", "\x7d"] := by
  intro r s moves meantime
  let launch : CopyLaunch :=
    { request := r
      jobs :=
        [{ source := ⟨"a"⟩, destDir := ⟨"out"⟩ }, { source := ⟨"missing"⟩, destDir := ⟨"out"⟩ }]
      concurrency := 1
      bufferBytes := 65536
      disk := ⟨[(["out"], .dir), (["a"], .file #[7])]⟩
      session := Session.start {} (.new 0 0) [] s.now }
  let stopped := launch.goOn (launch.making moves) meantime
  let made : CopiesMade :=
    { results := [.ok (.completed ⟨"out/a"⟩), .error (.openSource ⟨"missing"⟩ .notFound)]
      cancelled := (launch.making moves).session.board.isCancelled
      session := stopped.session
      disk := stopped.disk }
  let w : WorkflowOutcome := .of .completed
    [{ name := "a", path := ⟨"out/a"⟩, kind := some .md5
       digest := some "89e74e640b8c46257a29de0616794d5d", computed := true, status := .skipped }]
  have hjobs : r.jobs {} = .ok launch.jobs := by decide +kernel
  have hdirs : s.disk.makeDirs r.dest = (.ok (), launch.disk) :=
    Prod.ext (by decide +kernel) (congrArg Disk.mk (by decide +kernel))
  have hlaunch : (EditedRequest.mk r none []).launch s {} = .ok launch :=
    EditedRequest.launch_of_accepted hjobs hdirs rfl
  have hmade : launch.copiesDuring moves meantime = some made := by
    have hr := (launch.making moves).pool.results?_of_sorted
      [(0, .ok (.completed ⟨"out/a"⟩)), (1, .error (.openSource ⟨"missing"⟩ .notFound))]
      (by decide +kernel) (by decide +kernel) (by decide)
    rw [CopyLaunch.copiesDuring, hr]
    rfl
  have hmakes : r.Makes s {} moves meantime launch made := ⟨_, rfl, hlaunch, hmade⟩
  obtain ⟨o, hrun, hends⟩ :=
    ((copy_run_ends_as_its_copies r s {} {}).1 moves meantime 0).copied launch made hmakes
  -- the flag is set, but the program has not seen it
  have hflag : made.session.board.isCancelled = true := by decide +kernel
  have hunseen : made.cancelled ≠ true := by decide +kernel
  have hlate : launch.CancelsLate moves meantime :=
    (hends.seen.2.mp hflag).resolve_left fun hcancels => hunseen (hends.seen.1.mpr hcancels)
  have hstatus : o.status = 1 := by
    rcases hends.failing ⟨_, List.mem_cons_of_mem _ List.mem_cons_self⟩ with hone | hbroken
    · exact hone
    · have hbeyond := (hends.breakdown.mp hbroken).beyond
      exact absurd hbeyond (by decide +kernel)
  obtain rfl : launch.conclude made {} 0 = o :=
    Option.some.inj ((hmakes.runDuring_eq {} 0).symm.trans hrun)
  -- so there are questions, and the report is saved
  have hasked : launch.ask made 0 = .ok (some w) := by
    have hanswer : (launch.ask made 0).toOption = some (some w) := by decide +kernel
    cases hask : launch.ask made 0 with
    | error e => rw [hask] at hanswer; exact nomatch hanswer
    | ok asked => rw [hask] at hanswer; exact congrArg Except.ok (Option.some.inj hanswer)
  have hdisk := CopyLaunch.disk_conclude_of_some {} hasked rfl
  refine ⟨launch, made, w, _, hmakes, rfl, hlate, hflag, hrun, hstatus, ?_, ?_, ?_⟩
  · rw [hdisk]
    decide +kernel
  · rw [hdisk]
    exact w.holdsReport_save (by decide +kernel)
  · decide +kernel

/-- The only copy fails, and then the wait would end beyond the range of the clock: the program
breaks down, and nothing is told of the copy. -/
theorem failed_copy_is_not_told :
    let r : CopyRequest := { sources := [⟨"missing"⟩], dest := ⟨"out"⟩ }
    let s : Surroundings :=
      { disk := {}, configFile := ⟨"settings"⟩, terminal := some (.new 0 0) }
    let config : Config := { completionWaitSecs := 0x7fffffffffffffff }
    ∃ launch, (EditedRequest.mk r none []).launch s config = .ok launch ∧
      (launch.copies s).map (·.results) = some [.error (.openSource ⟨"missing"⟩ .notFound)] ∧
      (r.run s config {}).map (fun o => (o.status, o.out, o.err)) =
        some (101, [], ["overflow when adding duration to instant"]) := by
  intro r s config
  let launch : CopyLaunch :=
    { request := r
      jobs := [{ source := ⟨"missing"⟩, destDir := ⟨"out"⟩ }]
      concurrency := 4
      bufferBytes := 65536
      disk := ⟨[(["out"], .dir)]⟩
      session := Session.start config (.new 0 0) [] s.now }
  have hjobs : r.jobs config = .ok launch.jobs := by decide +kernel
  have hdirs : s.disk.makeDirs r.dest = (.ok (), launch.disk) :=
    Prod.ext (by decide +kernel) (congrArg Disk.mk (by decide +kernel))
  have hlaunch : (EditedRequest.mk r none []).launch s config = .ok launch :=
    EditedRequest.launch_of_accepted hjobs hdirs rfl
  refine ⟨launch, hlaunch, ?_, by decide +kernel⟩
  rw [CopyLaunch.copies, Option.map_map]
  refine congrArg (Option.map _) (CopyPool.results?_of_sorted
    [(0, .error (.openSource ⟨"missing"⟩ .notFound))] ?_ ?_ ?_)
  · decide +kernel
  · decide +kernel
  · decide

end CopyRequest
end TransferBoard
