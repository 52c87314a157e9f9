import TransferBoard.Proofs.Copy.Remaining

/-!
# Copies one after the other

Jobs whose paths keep clear of each other do not depend on each other: a job ends as it does
alone, and leaves at its places what it leaves there alone, whichever jobs have been done
before.  So the disk after all of them is known from the disk before.

## Main definitions

* `freeJobs` — the jobs whose destinations no earlier job has.
* `CopyPlan.Overwrites` — a place at which a copy may put a file.
* `CopyJob.KeepsClear`, `KeepApart` — a job puts no file on the way of another one; no two
  jobs that are not refused meet.
* `copyInTurn` — the jobs are done one after the other.
* `CopiesDone jobs d₀ d` — the jobs are done, and nothing else has changed.

## Main results

* `CopiesDone.nodeAt_eq` — there is one disk on which the jobs are done.
* `copyInTurn_done` — one after the other the jobs get done.
-/

namespace TransferBoard

open Disk (AgreeOff SameDirs)

/-! ### The disk after a copy -/

namespace Disk

/-- What is at a path that need not be a directory is the node at its place. -/
theorem at?_eq_nodeAt {d : Disk} {path : Path} {q : Place} (hq : d.resolve path = .ok q)
    (hslash : endsInSlash path = false) : d.at? path = d.nodeAt q := by
  apply Option.ext
  intro node
  rw [at?_eq_some_iff]
  constructor
  · rintro ⟨r, hr, hnode, -⟩
    obtain rfl := Except.ok.inj (hq.symm.trans hr)
    exact hnode
  · exact fun hnode => ⟨q, hq, hnode, .inr hslash⟩

end Disk

namespace CopyPlan

variable {plan : CopyPlan} {d₀ d d' : Disk} {result : CopyResult} {q : Place}

/-- A copy that has ended has left the same at its paths wherever it ended alike. -/
theorem at?_of_ended (h : plan.Holds d₀ d (.ended result)) (h' : plan.Holds d₀ d' (.ended result)) :
    d.at? plan.target = d'.at? plan.target ∧ d.at? plan.temp = d'.at? plan.temp := by
  have hc := h.content
  have hc' := h'.content
  match result with
  | .ok (.completed p) =>
    obtain ⟨-, ⟨bytes, hbytes, htarget⟩, htemp⟩ := hc
    obtain ⟨-, ⟨bytes', hbytes', htarget'⟩, htemp'⟩ := hc'
    obtain rfl := Option.some.inj (hbytes.symm.trans hbytes')
    exact ⟨htarget.trans htarget'.symm, htemp.trans htemp'.symm⟩
  | .ok .cancelled => exact ⟨hc.1.2.trans hc'.1.2.symm, hc.2.trans hc'.2.symm⟩
  | .error e =>
    refine ⟨hc.1.2.trans hc'.1.2.symm, ?_⟩
    have hgiven : plan.GivenUp d₀ d (some e) := hc.2
    have hgiven' : plan.GivenUp d₀ d' (some e) := hc'.2
    -- an early failure has not touched the temporary file, a late one has removed it
    by_cases hearly : e.isEarly = true
    · simp only [GivenUp, if_pos hearly] at hgiven hgiven'
      exact hgiven.trans hgiven'.symm
    · simp only [GivenUp, if_neg hearly] at hgiven hgiven'
      exact hgiven.trans hgiven'.symm

theorem nodeAt_of_ended (hp : plan.Proper) (h : plan.Holds d₀ d (.ended result))
    (h' : plan.Holds d₀ d' (.ended result)) (hq : plan.WritesAt d₀ q) :
    d.nodeAt q = d'.nodeAt q := by
  obtain ⟨htarget, htemp⟩ := at?_of_ended h h'
  have hled : ∀ {path}, d₀.resolve path = .ok q → d.resolve path = .ok q :=
    (Disk.resolve_congr h.placed.dirs).mp
  have hled' : ∀ {path}, d₀.resolve path = .ok q → d'.resolve path = .ok q :=
    (Disk.resolve_congr h'.placed.dirs).mp
  rcases hq with hq | hq
  · have hslash : Disk.endsInSlash plan.temp = false :=
      hp.temp_eq_child ▸ Disk.endsInSlash_child _ hp.isName_temp
    rw [← Disk.at?_eq_nodeAt (hled hq) hslash, htemp, Disk.at?_eq_nodeAt (hled' hq) hslash]
  · have hslash := hp.endsInSlash_target
    rw [← Disk.at?_eq_nodeAt (hled hq) hslash, htarget, Disk.at?_eq_nodeAt (hled' hq) hslash]

end CopyPlan

/-! ### Jobs that keep clear of each other -/

/-- The jobs with the destinations that earlier ones have. -/
def withRefusals (jobs : List CopyJob) : List (CopyJob × Option Path) :=
  jobs.zip (duplicateDestinations jobs)

/-- The jobs whose destinations no earlier job has. -/
def freeJobs (jobs : List CopyJob) : List CopyJob :=
  ((withRefusals jobs).filter fun entry => entry.2.isNone).map Prod.fst

/-- The copy may put a file at the place: one of its own two paths leads there, and not to a
directory, which no copy replaces. -/
def CopyPlan.Overwrites (plan : CopyPlan) (d : Disk) (place : Place) : Prop :=
  plan.WritesAt d place ∧ d.nodeAt place ≠ some .dir

theorem CopyPlan.agreeOff_overwrites {plan : CopyPlan} {d₀ d d' : Disk} (hdirs : SameDirs d₀ d)
    (h : AgreeOff (plan.WritesAt d₀) d d') : AgreeOff (plan.Overwrites d₀) d d' :=
  h.off_dirs.mono fun q hq => ⟨hq.1, fun hdir => hq.2 ((hdirs q).mp hdir)⟩

/-- Neither the temporary file nor the destination of the job is on the way of the source, the
temporary file or the destination of the other one: that path does not lead there, does not go
through it, and does not break off there. -/
def CopyJob.KeepsClear (job : CopyJob) (d : Disk) (other : CopyJob) : Prop :=
  ∀ plan plan', job.plan? = some plan → other.plan? = some plan' →
    ∀ place, plan.Overwrites d place → ¬ plan'.Passes d place

instance (plan : CopyPlan) (d : Disk) (place : Place) : Decidable (plan.Passes d place) :=
  inferInstanceAs (Decidable (_ ∨ _ ∨ _))

/-- The places at which a copy may put a file, in a list. -/
def CopyPlan.overwritten (plan : CopyPlan) (d : Disk) : List Place :=
  ([d.resolve plan.temp, d.resolve plan.target].filterMap Except.toOption).filter fun place =>
    d.nodeAt place ≠ some .dir

theorem CopyPlan.mem_overwritten {plan : CopyPlan} {d : Disk} {place : Place} :
    place ∈ plan.overwritten d ↔ plan.Overwrites d place := by
  have hplace : ∀ found : Except OsError Place, found.toOption = some place ↔ found = .ok place := by
    intro found
    cases found <;> simp [Except.toOption]
  have hfound : place ∈ [d.resolve plan.temp, d.resolve plan.target].filterMap Except.toOption ↔
      plan.WritesAt d place := by
    simp only [List.mem_filterMap, hplace, exists_eq_right, List.mem_cons, List.not_mem_nil,
      or_false, WritesAt, eq_comm]
  rw [overwritten, List.mem_filter, hfound, decide_eq_true_eq, Overwrites]

instance (job : CopyJob) (d : Disk) (other : CopyJob) : Decidable (job.KeepsClear d other) :=
  decidable_of_iff (∀ plan ∈ job.plan?, ∀ plan' ∈ other.plan?,
      ∀ place ∈ plan.overwritten d, ¬ plan'.Passes d place) <| by
    simp only [CopyPlan.mem_overwritten, Option.mem_def, CopyJob.KeepsClear]
    exact ⟨fun h plan plan' hplan hplan' => h plan hplan plan' hplan',
      fun h plan hplan plan' hplan' => h plan plan' hplan hplan'⟩

/-- The two jobs keep clear of each other. -/
def CopyJob.Apart (d : Disk) (job other : CopyJob) : Prop :=
  job.KeepsClear d other ∧ other.KeepsClear d job

/-- The jobs that are not refused keep clear of each other. -/
def KeepApart (jobs : List CopyJob) (d : Disk) : Prop :=
  (freeJobs jobs).Pairwise (CopyJob.Apart d)

instance (d : Disk) (job other : CopyJob) : Decidable (job.Apart d other) :=
  inferInstanceAs (Decidable (_ ∧ _))

instance (jobs : List CopyJob) (d : Disk) : Decidable (KeepApart jobs d) :=
  inferInstanceAs (Decidable ((freeJobs jobs).Pairwise (CopyJob.Apart d)))

/-- What the copies share when the jobs have been done one after the other. -/
def copyInTurn (tools : CopyTools) (now : Moment) (jobs : List CopyJob) (w : Workshop) :
    Workshop :=
  jobs.foldl (fun w job => (copyFile job tools now w).2) w

/-- The place is one that a copy of the jobs writes to. -/
def WrittenBy (jobs : List CopyJob) (d : Disk) (place : Place) : Prop :=
  ∃ job ∈ jobs, ∃ plan, job.plan? = some plan ∧ plan.WritesAt d place

/-- The jobs are done, each one as it is done alone, and nothing else has changed. -/
structure CopiesDone (jobs : List CopyJob) (d₀ d : Disk) : Prop where
  /-- Every job has come to its end. -/
  ended : ∀ job ∈ jobs, ∀ plan, job.plan? = some plan →
    ∃ result, plan.OnCourse d₀ d (.ended result)
  /-- Elsewhere the disk is as it was. -/
  unwritten : AgreeOff (WrittenBy jobs d₀) d₀ d

variable {jobs : List CopyJob} {d₀ d d' : Disk}

/-- **There is one disk on which the jobs are done.** -/
theorem CopiesDone.nodeAt_eq (h : CopiesDone jobs d₀ d) (h' : CopiesDone jobs d₀ d') (q : Place) :
    d.nodeAt q = d'.nodeAt q := by
  by_cases hq : WrittenBy jobs d₀ q
  · obtain ⟨job, hjob, plan, hplan, hw⟩ := hq
    obtain ⟨result, hended⟩ := h.ended job hjob plan hplan
    obtain ⟨result', hended'⟩ := h'.ended job hjob plan hplan
    -- both ends are the one that is foretold
    obtain rfl : result = result' := Option.some.inj (hended.ending.trans hended'.ending.symm)
    exact CopyPlan.nodeAt_of_ended (CopyPlan.proper_of_plan? hplan).1 hended.holds hended'.holds hw
  · rw [h.unwritten.nodes q hq, h'.unwritten.nodes q hq]

theorem copiesDone_nil (d : Disk) : CopiesDone [] d d :=
  ⟨fun _ hjob => absurd hjob List.not_mem_nil, AgreeOff.refl _ d⟩

/-- A job without a name for its copy is done at once. -/
theorem CopiesDone.unnamed (h : CopiesDone jobs d₀ d) {job : CopyJob} (hplan : job.plan? = none) :
    CopiesDone (jobs ++ [job]) d₀ d where
  ended other hother plan hother' := by
    rcases List.mem_append.mp hother with hmem | hmem
    · exact h.ended other hmem plan hother'
    · rw [List.mem_singleton.mp hmem, hplan] at hother'
      exact absurd hother' (by simp)
  unwritten := h.unwritten.mono fun q ⟨other, hother, hw⟩ =>
    ⟨other, List.mem_append_left _ hother, hw⟩

/-- One more job is done. -/
theorem CopiesDone.snoc (h : CopiesDone jobs d₀ d) {job : CopyJob} {plan : CopyPlan}
    (hplan : job.plan? = some plan) (hclear : ∀ other ∈ jobs, job.KeepsClear d₀ other)
    {result : CopyResult} (hended : plan.OnCourse d₀ d' (.ended result))
    (hd : AgreeOff (plan.WritesAt d₀) d d') : CopiesDone (jobs ++ [job]) d₀ d' where
  ended other hother plan' hplan' := by
    rcases List.mem_append.mp hother with hmem | hmem
    · obtain ⟨result', hother'⟩ := h.ended other hmem plan' hplan'
      have hd' := CopyPlan.agreeOff_overwrites h.unwritten.dirs hd
      exact ⟨result', hother'.elsewhere hd' (hclear other hmem plan plan' hplan hplan')⟩
    · obtain rfl := List.mem_singleton.mp hmem
      obtain rfl := Option.some.inj (hplan.symm.trans hplan')
      exact ⟨result, hended⟩
  unwritten := by
    refine (h.unwritten.mono ?_).trans (hd.mono ?_)
    · exact fun q ⟨other, hother, hw⟩ => ⟨other, List.mem_append_left _ hother, hw⟩
    · exact fun q hq => ⟨job, List.mem_append_right _ List.mem_cons_self, plan, hplan, hq⟩

/-- **One after the other the jobs get done**, if each of them comes to an end alone. -/
theorem copyInTurn_done (tools : CopyTools) (now : Moment) (d₀ : Disk) (rest : List CopyJob) :
    ∀ (done : List CopyJob) (w : Workshop), (done ++ rest).Pairwise (CopyJob.Apart d₀) →
      (∀ job ∈ rest, ∀ plan, job.plan? = some plan →
        plan.OnCourse d₀ w.disk .opening ∧ ∃ result, plan.foretold d₀ .opening = some result) →
      CopiesDone done d₀ w.disk → w.board.flow? = some .go →
      CopiesDone (done ++ rest) d₀ (copyInTurn tools now rest w).disk := by
  induction rest with
  | nil => intro done w _ _ h _; rwa [List.append_nil]
  | cons job rest ih =>
    intro done w hapart hrest h hflow
    have happend : done ++ job :: rest = (done ++ [job]) ++ rest := List.append_cons done job rest
    -- the job is clear of the jobs that are done and of those to come
    have hbefore : ∀ other ∈ done, job.KeepsClear d₀ other := fun other hother =>
      ((List.pairwise_append.mp hapart).2.2 other hother job List.mem_cons_self).2
    have hafter : ∀ other ∈ rest, job.KeepsClear d₀ other := fun other hother =>
      ((List.pairwise_cons.mp (List.pairwise_append.mp hapart).2.1).1 other hother).1
    rw [happend] at hapart ⊢
    rw [copyInTurn, List.foldl_cons]
    cases hplan : job.plan? with
    | none =>
      have hsame : (copyFile job tools now w).2 = w := by rw [copyFile, hplan]
      rw [hsame]
      exact ih _ w hapart (fun other hother => hrest other (List.mem_cons_of_mem _ hother))
        (h.unnamed hplan) hflow
    | some plan =>
      obtain ⟨hstart, result, hresult⟩ := hrest job List.mem_cons_self plan hplan
      obtain ⟨hends, hflow', hended, hd⟩ := CopyPlan.copyFile_onCourse hplan tools now hstart hflow
      refine ih _ _ hapart (fun other hother plan' hplan' => ?_)
        (h.snoc hplan hbefore (hended result (hends.trans hresult)) hd) hflow'
      obtain ⟨hstart', hresult'⟩ := hrest other (List.mem_cons_of_mem _ hother) plan' hplan'
      -- the jobs to come find their sources and directories as they were
      have hd' := CopyPlan.agreeOff_overwrites h.unwritten.dirs hd
      exact ⟨hstart'.elsewhere hd' (hafter other hother plan plan' hplan hplan'), hresult'⟩

end TransferBoard
