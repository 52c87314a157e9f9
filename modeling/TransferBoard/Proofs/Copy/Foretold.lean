import TransferBoard.Proofs.Copy.Step
import TransferBoard.Proofs.Disk.OnTheWay

/-!
# How a copy will end

A copy that nobody cancels and that no failure strikes has its end before it: how it will
end can be told from its stage and from the disk.  That depends on the places on the way of
its paths only, and no step of the copy changes it.  So two copies of one job end alike, in
whatever pieces they move the bytes, if nobody else writes on their way.

## Main definitions

* `CopyPlan.foretold plan d stage` — how a copy at a stage will end; nothing if it will wait
  for a stream on which nothing arrives.
* `CopyPlan.Passes plan d place` — the place is on the way of one of the three paths.
* `CopyPlan.OnCourse plan d₀ d stage` — the copy has done what it does alone, and will end as
  it does alone.

## Main results

* `foretold_step` — a step of the copy does not change how it will end.
* `onCourse_step`, `OnCourse.elsewhere` — a copy stays on course in its own steps, and when
  others write where it does not pass.
-/

namespace TransferBoard

open Disk (AgreeOff SameDirs)

namespace CopyPlan

/-! ### What is foretold -/

/-- How a copy ends whose temporary file holds all bytes of the source. -/
def foretoldMoved (plan : CopyPlan) (d : Disk) : Option CopyResult :=
  if d.at? plan.target = some .dir then
    some (.error (.rename plan.temp plan.target .isDirectory))
  else some (.ok (.completed plan.target))

/-- How a copy ends whose source is the given node, when its temporary file has been made. -/
def foretoldFilled (plan : CopyPlan) (d : Disk) : Option Node → Option CopyResult
  | some .dir => some (.error (.readSource plan.job.source .isDirectory))
  | some (.stream none) => none
  | _ => plan.foretoldMoved d

/-- How a copy ends that has found its source. -/
def foretoldOpened (plan : CopyPlan) (d : Disk) (source : Place) : Option CopyResult :=
  match d.createFile plan.temp with
  | .error e => some (.error (.createTemp plan.temp e))
  | .ok _ => plan.foretoldFilled d (d.nodeAt source)

/-- How a copy at a stage will end. -/
def foretold (plan : CopyPlan) (d : Disk) : CopyStage → Option CopyResult
  | .opening =>
    match d.openRead plan.job.source with
    | .error e => some (.error (.openSource plan.job.source e))
    | .ok (source, _) => plan.foretoldOpened d source
  | .measuring source | .creating source _ => plan.foretoldOpened d source
  | .announcing source _ _ | .showing source _ _ => plan.foretoldFilled d (d.nodeAt source)
  | .checking run | .reading run | .writing run _ | .reporting run _ | .drawing run =>
    plan.foretoldFilled d (d.nodeAt run.source)
  | .syncing _ | .renaming _ => plan.foretoldMoved d
  | .discarding _ failure | .stopping _ failure | .showingStop failure => some (givenUp failure)
  | .finishing _ | .showingFinish _ | .choosingDigest _ | .hashing _ _ _ | .settling _ _
  | .showingDigest | .registering => some (.ok (.completed plan.target))
  | .ended result => some result

variable {plan : CopyPlan} {tools : CopyTools} {turn : Turn} {w : Workshop} {d₀ d d' : Disk}
  {stage : CopyStage}

theorem foretoldFilled_congr (h : SameDirs d d') (node : Option Node) :
    plan.foretoldFilled d' node = plan.foretoldFilled d node := by
  unfold foretoldFilled foretoldMoved
  simp only [Disk.at?_eq_dir_congr h]

/-- Where the temporary file can be made, the destination leads somewhere, too. -/
theorem Proper.resolve_target (hp : plan.Proper) {place : Place}
    (h : d.resolve plan.temp = .ok place) : ∃ q, d.resolve plan.target = .ok q := by
  rw [hp.temp, hp.target] at h
  rw [hp.target]
  exact Disk.resolve_of_extend hp.isName hp.isName_temp h

/-- The temporary file, once it is there, can be given its name unless a directory has it. -/
theorem Proper.renameFile_temp (hp : plan.Proper) {bytes : Bytes}
    (h : d.at? plan.temp = some (.file bytes)) :
    (d.at? plan.target = some .dir ∧
      d.renameFile plan.temp plan.target = .error .isDirectory) ∨
    (d.at? plan.target ≠ some .dir ∧ ∃ d', d.renameFile plan.temp plan.target = .ok d') := by
  obtain ⟨place, hplace⟩ := Disk.at?_eq_some_iff.mp h
  obtain ⟨goal, hgoal⟩ := hp.resolve_target hplace.1
  have hlocate := Disk.locate_eq_ok_iff.mpr hplace
  -- only a directory at the goal is in the way of the renaming
  by_cases hdir : d.nodeAt goal = some .dir
  · refine .inl ⟨Disk.at?_eq_some_iff.mpr ⟨goal, hgoal, hdir, .inl rfl⟩, ?_⟩
    simp only [Disk.renameFile, hlocate, hgoal, bind, Except.bind, hdir]
  · refine .inr ⟨fun hfound => ?_, ?_⟩
    · obtain ⟨q, hq, hnode, -⟩ := Disk.at?_eq_some_iff.mp hfound
      obtain rfl := Except.ok.inj (hgoal.symm.trans hq)
      exact hdir hnode
    · simp only [Disk.renameFile, hlocate, hgoal, bind, Except.bind]
      cases hn : d.nodeAt goal with
      | none => exact ⟨_, rfl⟩
      | some node =>
        cases node with
        | dir => exact absurd hn hdir
        | file contents => exact ⟨_, rfl⟩
        | stream arrived => exact ⟨_, rfl⟩

/-! ### Steps of the copy -/

theorem strike_of_none {α : Type} (hfault : turn.fault = none) (result : Except OsError α) :
    turn.strike result = result := by
  rw [Turn.strike, hfault]

/-- What is foretold of a copy that reads is not changed where it writes. -/
theorem foretoldFilled_write (hp : plan.Proper) {source temp : Place}
    (hs : d.resolve plan.job.source = .ok source) (ht : d.resolve plan.temp = .ok temp)
    (hd : AgreeOff (· = temp) d d') :
    plan.foretoldFilled d' (d'.nodeAt source) = plan.foretoldFilled d (d.nodeAt source) := by
  have hne : source ≠ temp := by
    rintro rfl
    exact hp.source_ne_temp ht hs
  rw [hd.nodes source hne, foretoldFilled_congr hd.dirs]

theorem foretold_reading (hfault : turn.fault = none) {run : CopyRun} :
    plan.foretold (plan.step tools turn w (.reading run)).2.disk
      (plan.step tools turn w (.reading run)).1 = plan.foretold w.disk (.reading run) := by
  rw [step]
  split
  · rfl
  next hwait =>
  rw [strike_of_none hfault]
  cases hn : w.disk.nodeAt run.source with
  | none =>
    -- a source that is gone has been read to its end
    simp [Disk.readAt, hn, foretold, foretoldFilled]
  | some node =>
    cases node with
    | dir => simp [Disk.readAt, hn, foretold, foretoldFilled, givenUp]
    | file contents =>
      simp only [Disk.readAt, hn]
      split <;> simp [foretold, foretoldFilled, hn]
    | stream arrived =>
      cases arrived with
      | none => exact absurd (by simp [Disk.isWaiting, hn]) hwait
      | some bytes =>
        simp only [Disk.readAt, hn]
        split <;> simp [foretold, foretoldFilled, hn]

theorem foretold_renaming (hp : plan.Proper) (hfault : turn.fault = none) {run : CopyRun}
    (h : plan.Holds d₀ w.disk (.renaming run)) :
    plan.foretold (plan.step tools turn w (.renaming run)).2.disk
      (plan.step tools turn w (.renaming run)).1 = plan.foretold w.disk (.renaming run) := by
  obtain ⟨-, bytes, -, htemp⟩ := h.content
  rw [step, strike_of_none hfault, foretold, foretoldMoved]
  rcases hp.renameFile_temp htemp with ⟨hdir, hrename⟩ | ⟨hdir, disk, hrename⟩
  · rw [hrename, if_pos hdir]
    rfl
  · rw [hrename, if_neg hdir]
    rfl

/-- **A step of the copy does not change how it will end**, if nothing fails in it and it is
not cancelled. -/
theorem foretold_step (hp : plan.Proper) (tools : CopyTools) (hfault : turn.fault = none)
    (hgoes : w.board.isCancelled = false) (h : plan.Holds d₀ w.disk stage) :
    plan.foretold (plan.step tools turn w stage).2.disk (plan.step tools turn w stage).1 =
      plan.foretold w.disk stage := by
  have hled : ∀ {path : Path} {q : Place}, d₀.resolve path = .ok q → w.disk.resolve path = .ok q :=
    (Disk.resolve_congr h.placed.dirs).mp
  cases stage with
  | opening =>
    rw [step, strike_of_none hfault, foretold]
    cases w.disk.openRead plan.job.source with
    | error e => rfl
    | ok found => rfl
  | creating source total =>
    rw [step, strike_of_none hfault, foretold, foretoldOpened]
    cases hcreate : w.disk.createFile plan.temp with
    | error e => rfl
    | ok made =>
      obtain ⟨temp, disk⟩ := made
      obtain ⟨hplace, hd, -⟩ := Disk.createFile_spec hcreate
      exact foretoldFilled_write hp (hled (h.placed.source_at source rfl)) hplace hd
  | reading run => exact foretold_reading hfault
  | writing run piece =>
    rw [step, strike_of_none hfault]
    exact foretoldFilled_write hp (hled (h.placed.source_at _ rfl))
      (hled (h.placed.temp_at _ rfl)) (Disk.agreeOff_append _ _ _)
  | «renaming» run => exact foretold_renaming hp hfault h
  | checking run =>
    rw [step]
    cases hflow : w.board.flow? with
    | none => rfl
    | some flow =>
      cases flow with
      | go => rfl
      | cancelled =>
        unfold Dashboard.isCancelled at hgoes
        simp [Dashboard.flow?, hgoes] at hflow
  -- the end of the copy is the same at both stages
  | measuring source => rw [step, strike_of_none hfault]; rfl
  | syncing run => rw [step, strike_of_none hfault]; rfl
  | stopping run failure => rw [step]; split <;> rfl
  | showingFinish run => rw [step]; cases plan.job.kind.isSome <;> rfl
  | choosingDigest run => rw [step]; split <;> rfl
  | settling run result => rw [step]; split <;> rfl
  | _ => rfl

/-! ### On course -/

/-- The place is on the way of one of the paths of the copy. -/
def Passes (plan : CopyPlan) (d : Disk) (place : Place) : Prop :=
  d.OnTheWay plan.job.source place ∨ d.OnTheWay plan.temp place ∨ d.OnTheWay plan.target place

/-- The copy has done to the disk what it does alone, and will end as it does alone. -/
structure OnCourse (plan : CopyPlan) (d₀ d : Disk) (stage : CopyStage) : Prop where
  /-- What it has done. -/
  holds : plan.Holds d₀ d stage
  /-- How it will end. -/
  ending : plan.foretold d stage = plan.foretold d₀ .opening

theorem onCourse_opening (plan : CopyPlan) (d : Disk) : plan.OnCourse d d .opening :=
  ⟨plan.holds_opening d, rfl⟩

theorem onCourse_step (hp : plan.Proper) (tools : CopyTools) (hfault : turn.fault = none)
    (hgoes : w.board.isCancelled = false) (h : plan.OnCourse d₀ w.disk stage) :
    plan.OnCourse d₀ (plan.step tools turn w stage).2.disk (plan.step tools turn w stage).1 :=
  ⟨holds_step hp tools turn h.holds,
    (foretold_step hp tools hfault hgoes h.holds).trans h.ending⟩

/-- What a copy has done to the disk is seen at its three paths. -/
theorem content_congr (h : stage.Content plan d₀ d)
    (hs : d'.at? plan.job.source = d.at? plan.job.source)
    (htemp : d'.at? plan.temp = d.at? plan.temp)
    (htarget : d'.at? plan.target = d.at? plan.target) : stage.Content plan d₀ d' := by
  have hkept : plan.Kept d₀ d' ↔ plan.Kept d₀ d := by rw [Kept, Kept, hs, htarget]
  have hmoved : ∀ count, plan.Moved d₀ d' count ↔ plan.Moved d₀ d count := fun count => by
    rw [Moved, Moved, htemp]
  have hgiven : ∀ failure, plan.GivenUp d₀ d' failure ↔ plan.GivenUp d₀ d failure := by
    intro failure
    cases failure <;> simp only [GivenUp, htemp]
  have hdone : plan.Done d₀ d' ↔ plan.Done d₀ d := by rw [Done, There, Done, There, htemp, htarget]
  cases stage with
  | ended result =>
    cases result with
    | error e => exact ⟨hkept.mpr h.1, (hgiven (some e)).mpr h.2⟩
    | ok outcome =>
      cases outcome with
      | completed p => exact ⟨h.1, hdone.mpr h.2⟩
      | cancelled => exact ⟨hkept.mpr h.1, (hgiven none).mpr h.2⟩
  | _ => simpa only [CopyStage.Content, Untouched, hkept, hmoved, hgiven, hdone, htemp] using h

/-- Where a path of the copy leads is a place that it passes. -/
theorem passes_of_resolve (hdirs : SameDirs d₀ d) {path : Path} {q : Place}
    (hpath : path = plan.job.source ∨ path = plan.temp ∨ path = plan.target)
    (hq : d.resolve path = .ok q) : plan.Passes d₀ q := by
  have hway := Disk.onTheWay_of_resolve ((Disk.resolve_congr hdirs).mpr hq)
  rcases hpath with rfl | rfl | rfl
  · exact .inl hway
  · exact .inr (.inl hway)
  · exact .inr (.inr hway)

/-- How a copy ends that has found its source depends on what it passes. -/
theorem foretoldOpened_elsewhere {source : Place} (hdirs : SameDirs d d')
    (hs : d'.nodeAt source = d.nodeAt source)
    (htemp : ∀ q, d.OnTheWay plan.temp q → d'.nodeAt q = d.nodeAt q) :
    plan.foretoldOpened d' source = plan.foretoldOpened d source := by
  have herror := Disk.createFile_error_agree htemp
  unfold foretoldOpened
  rw [hs, foretoldFilled_congr hdirs]
  cases hmade : d.createFile plan.temp with
  | error e => rw [(herror e).mpr hmade]
  | ok made =>
    cases hmade' : d'.createFile plan.temp with
    | error e => exact absurd ((herror e).mp hmade') (by simp [hmade])
    | ok made' => rfl

/-- **A copy stays on course when others write where it does not pass.** -/
theorem OnCourse.elsewhere {off : Place → Prop} (h : plan.OnCourse d₀ d stage)
    (hd : AgreeOff off d d') (hoff : ∀ q, off q → ¬ plan.Passes d₀ q) :
    plan.OnCourse d₀ d' stage := by
  have hdirs := h.holds.placed.dirs
  have hnode : ∀ q, plan.Passes d₀ q → d'.nodeAt q = d.nodeAt q :=
    fun q hq => hd.nodes q fun hw => hoff q hw hq
  have hway : ∀ {path q}, d.OnTheWay path q → d₀.OnTheWay path q :=
    (Disk.onTheWay_congr hdirs).mpr
  have hat : ∀ path, path = plan.job.source ∨ path = plan.temp ∨ path = plan.target →
      d'.at? path = d.at? path := fun path hpath =>
    hd.at? fun q hq hw => hoff q hw (passes_of_resolve hdirs hpath hq)
  have htemp : ∀ q, d.OnTheWay plan.temp q → d'.nodeAt q = d.nodeAt q :=
    fun q hq => hnode q (.inr (.inl (hway hq)))
  -- a place of the source that the copy knows is one that it passes
  have hsource : ∀ q, stage.source? = some q → d'.nodeAt q = d.nodeAt q := fun q hq =>
    hnode q (.inl (Disk.onTheWay_of_resolve (h.holds.placed.source_at q hq)))
  have hfilled : ∀ q, stage.source? = some q →
      plan.foretoldFilled d' (d'.nodeAt q) = plan.foretoldFilled d (d.nodeAt q) := fun q hq => by
    rw [hsource q hq, foretoldFilled_congr hd.dirs]
  refine ⟨⟨h.holds.placed.elsewhere hd.dirs, content_congr h.holds.content (hat _ (.inl rfl))
    (hat _ (.inr (.inl rfl))) (hat _ (.inr (.inr rfl)))⟩, Eq.trans ?_ h.ending⟩
  cases stage with
  | opening =>
    have hopen : d'.openRead plan.job.source = d.openRead plan.job.source :=
      Disk.locate_agree fun q hq => hnode q (.inl (hway hq))
    rw [foretold, foretold, hopen]
    cases hfound : d.openRead plan.job.source with
    | error e => rfl
    | ok found =>
      have hplace := (Disk.locate_eq_ok_iff.mp hfound).1
      exact foretoldOpened_elsewhere hd.dirs (hnode _ (passes_of_resolve hdirs (.inl rfl) hplace))
        htemp
  | measuring source => exact foretoldOpened_elsewhere hd.dirs (hsource source rfl) htemp
  | creating source total => exact foretoldOpened_elsewhere hd.dirs (hsource source rfl) htemp
  | announcing source temp total => exact hfilled source rfl
  | showing source temp handle => exact hfilled source rfl
  | checking run => exact hfilled run.source rfl
  | reading run => exact hfilled run.source rfl
  | writing run piece => exact hfilled run.source rfl
  | reporting run count => exact hfilled run.source rfl
  | drawing run => exact hfilled run.source rfl
  | syncing run =>
    rw [foretold, foretold, foretoldMoved, foretoldMoved]
    simp only [Disk.at?_eq_dir_congr hd.dirs]
  | «renaming» run =>
    rw [foretold, foretold, foretoldMoved, foretoldMoved]
    simp only [Disk.at?_eq_dir_congr hd.dirs]
  | _ => rfl

end CopyPlan
end TransferBoard
