import TransferBoard.Proofs.Copy.Calls
import TransferBoard.Proofs.Copy.Overtaken
import TransferBoard.Proofs.Copy.SideBySide

/-!
# Reported copies are on the disk

A request is refused when two of its destinations are the same.  That keeps the names of
its jobs apart, and their temporary names, but the temporary name of one job can still
be the name of another.  Then it depends on the order of the steps whether what is
reported can be relied on: it can exactly when the two copies never collide.

## Main definitions

* `ReportsHold` — all copies that are reported as complete are there.
* `CopyJob.IsInPlace` — a source is where its copy is to go.

## Main results

* `reported_copies_are_on_disk` — when a report can be relied on.
* `reported_copy_is_gone` — a run in which one cannot.
-/

namespace TransferBoard

/-- The copies that are reported as complete are there, with the bytes that their sources
had before. -/
def ReportsHold (jobs : List CopyJob) (results : List CopyResult) (before after : Disk) : Prop :=
  ∀ (i : Nat) (job : CopyJob) (p : Path), jobs[i]? = some job →
    results[i]? = some (.ok (.completed p)) →
    ∃ bytes, before.bytesAt? job.source = some bytes ∧ after.at? p = some (.file bytes)

/-- The source of the job is where its copy is to go. -/
def CopyJob.IsInPlace (job : CopyJob) (d : Disk) : Prop :=
  ∃ p place, job.destination? = some p ∧ d.resolve job.source = .ok place ∧
    d.resolve p = .ok place

theorem CopyJob.not_isInPlace {job : CopyJob} {d : Disk} (p : Path) (place : Place)
    (hp : job.destination? = some p) (hplace : d.resolve p = .ok place)
    (hne : d.resolve job.source ≠ .ok place) : ¬ job.IsInPlace d := by
  rintro ⟨q, place', hq, hsource, hplace'⟩
  obtain rfl := Option.some.inj (hp.symm.trans hq)
  obtain rfl := Except.ok.inj (hplace.symm.trans hplace')
  exact hne hsource

variable {request : CopyRequest} {config : Config} {jobs : List CopyJob}

namespace CopyRequest

/-- A job with the temporary name of another has the path of its temporary file. -/
theorem target_eq_temp (hjobs : request.jobs config = .ok jobs) {i j : Nat} {plan other : CopyPlan}
    (hi : (CopyBatch.of jobs).plan? i = some plan) (hj : (CopyBatch.of jobs).plan? j = some other)
    (hname : plan.name = other.name ++ tempSuffix) : plan.target = other.temp := by
  obtain ⟨-, hdirs, -⟩ := jobs_eq_ok hjobs
  obtain ⟨hp, hjob⟩ := CopyBatch.plan?_eq_some hi
  obtain ⟨ho, hother⟩ := CopyBatch.plan?_eq_some hj
  rw [hp.target, ho.temp_eq_child, hname, hdirs _ (List.mem_of_getElem? hjob),
    hdirs _ (List.mem_of_getElem? hother)]

/-- A job whose name is apart is undisturbed. -/
theorem undisturbed_of_nameApart (hjobs : request.jobs config = .ok jobs) {i : Nat}
    {plan : CopyPlan} (hi : (CopyBatch.of jobs).plan? i = some plan)
    (hname : request.NameApart plan.name) (d₀ : Disk) (pool : CopyPool) :
    pool.Undisturbed (.of jobs) d₀ i where
  target j h := (not_namedLikeTemp hjobs hi hname j).1 h.1
  temp j h := (not_namedLikeTemp hjobs hi hname j).2 h.1
  source j plan other q hplan hother hq htemp := by
    obtain ⟨parent, rfl⟩ := (CopyBatch.plan?_eq_some hplan).1.source_place hq
    obtain ⟨parent', heq⟩ := (CopyBatch.plan?_eq_some hother).1.temp_place htemp
    exact absurd ⟨plan, other, hplan, hother, name_eq_of_place_eq heq⟩
      (not_namedLikeTemp hjobs hi hname j).1

/-- Where no jobs collide they are undisturbed, except for one with the temporary name of
another whose source is in its place already. -/
theorem undisturbed_of_not_collides (hjobs : request.jobs config = .ok jobs) {d₀ : Disk}
    {pool : CopyPool} (hpool : ∀ i j, ¬ pool.Collides (.of jobs) i j)
    (hplace : ∀ i j job, (CopyBatch.of jobs).NamedLikeTemp i j → jobs[i]? = some job →
      ¬ job.IsInPlace d₀) (i : Nat) : pool.Undisturbed (.of jobs) d₀ i where
  target j := hpool i j
  temp j := hpool j i
  source j plan other q hplan hother hq htemp := by
    obtain ⟨hp, hjob⟩ := CopyBatch.plan?_eq_some hplan
    obtain ⟨parent, rfl⟩ := hp.source_place hq
    obtain ⟨parent', heq⟩ := (CopyBatch.plan?_eq_some hother).1.temp_place htemp
    have hname := name_eq_of_place_eq heq
    refine absurd ⟨plan.target, _, ?_, hq, ?_⟩
      (hplace i j plan.job ⟨plan, other, hplan, hother, hname⟩ hjob)
    · rw [CopyJob.destination?, hp.name, hp.target]
      rfl
    · rw [target_eq_temp hjobs hplan hother hname]
      exact htemp

end CopyRequest

/-- **When reported copies are on the disk.**  Take the jobs of any request, any number of
workers and any order of their steps, with keys pressed and failures struck at will.

A job whose name is apart, which is every job when no source has the temporary name of
another, is on the disk in the end when it is reported as complete: its path holds the
bytes that its source had before the run.

All that is reported is on the disk exactly when no two jobs collide at any moment of the
run: no job has been given its name while one with that name as its temporary name has its
temporary file.  This is told of runs in which no job with the temporary name of another
has its source in its place already. -/
theorem reported_copies_are_on_disk (hjobs : request.jobs config = .ok jobs)
    (maxConcurrent : Nat) (tools : CopyTools) (moves : List PoolMove) (shop : Workshop)
    {results : List CopyResult}
    (hr : (copyAllDuring jobs maxConcurrent tools moves shop).results? = some results) :
    let after := (copyAllDuring jobs maxConcurrent tools moves shop).shop.disk
    (∀ (i : Nat) (job : CopyJob) (p : Path), jobs[i]? = some job →
      (∀ name, job.source.fileName? = some name → request.NameApart name) →
      results[i]? = some (.ok (.completed p)) →
      ∃ bytes, shop.disk.bytesAt? job.source = some bytes ∧ after.at? p = some (.file bytes)) ∧
    ((∀ i j job, (CopyBatch.of jobs).NamedLikeTemp i j → jobs[i]? = some job →
        ¬ job.IsInPlace shop.disk) →
      (ReportsHold jobs results shop.disk after ↔
        ∀ past, past <+: moves → ∀ i j,
          ¬ (copyAllDuring jobs maxConcurrent tools past shop).Collides (.of jobs) i j)) := by
  intro after
  have hdistinct := CopyRequest.distinct_of_jobs hjobs
  have hthere : ∀ (i : Nat) (job : CopyJob) (p : Path), jobs[i]? = some job →
      results[i]? = some (.ok (.completed p)) →
      (∀ plan, (CopyBatch.of jobs).plan? i = some plan → ∀ past, past <+: moves →
        (copyAllDuring jobs maxConcurrent tools past shop).Undisturbed (.of jobs) shop.disk i) →
      ∃ bytes, shop.disk.bytesAt? job.source = some bytes ∧ after.at? p = some (.file bytes) := by
    intro i job p hjob hi hu
    obtain ⟨plan, hplan, rfl⟩ := CopyPool.plan?_of_reported hr hi
    obtain rfl : job = plan.job :=
      Option.some.inj (hjob.symm.trans (CopyBatch.plan?_eq_some hplan).2)
    exact CopyPool.reported_is_there hdistinct hplan (hu plan hplan) hr hi
  -- a job whose name is apart collides with none; the others must not collide
  refine ⟨?_, fun hplace => ⟨?_, ?_⟩⟩
  · intro i job p hjob hname hi
    refine hthere i job p hjob hi fun plan hplan past _ => ?_
    obtain ⟨hp, hjob'⟩ := CopyBatch.plan?_eq_some hplan
    obtain rfl := Option.some.inj (hjob.symm.trans hjob')
    exact CopyRequest.undisturbed_of_nameApart hjobs hplan (hname _ hp.name) _ _
  · intro hhold past hpast i j hcollides
    obtain ⟨rest, rfl⟩ := hpast
    obtain ⟨plan, other, hplan, hother, hname⟩ := hcollides.1
    obtain ⟨hreported, hgone⟩ := CopyPool.gone_of_collides hdistinct hother hplan hname
      (CopyRequest.target_eq_temp hjobs hplan hother hname) maxConcurrent tools past rest shop
      hcollides hr
    obtain ⟨bytes, -, hfile⟩ := hhold i plan.job plan.target (CopyBatch.plan?_eq_some hplan).2
      hreported
    exact absurd (hgone.symm.trans hfile) (by simp)
  · intro hnever i job p hjob hi
    exact hthere i job p hjob hi fun _ _ past hpast =>
      CopyRequest.undisturbed_of_not_collides hjobs (hnever past hpast) hplace i

/-! ### Two requests -/

/-- A directory with three files, and one to copy them into. -/
def threeFiles : Workshop where
  board := { surface := Surface.new 80 24 }
  disk := ⟨[(["in"], .dir), (["in", "a"], .file #[1]), (["in", "a.part"], .file #[2]),
    (["in", "b"], .file #[3]), (["out"], .dir)]⟩

/-- A request to copy some of the files. -/
def copyOut (sources : List Path) : CopyRequest := { sources := sources, dest := ⟨"out"⟩ }

/-- The job of one of the files. -/
def jobOut (source : Path) : CopyJob := { source := source, destDir := ⟨"out"⟩ }

/-- A number of steps of one worker. -/
def steps (n : Nat) : List PoolMove := List.replicate n (.worker 0 { now := 0 })

theorem madeOf_of_mem_steps (allowed : BoardSection → Bool) (n : Nat) :
    ∀ move ∈ steps n, move.MadeOf allowed := by
  intro move hmove
  rw [List.eq_of_mem_replicate hmove]
  trivial

/-- Two copies stay where they were made, and one is taken away. -/
theorem two_copies_stay_and_one_is_taken_away :
    let tools : CopyTools := { bufferBytes := 4 }
    (∃ bytes, threeFiles.disk.bytesAt? (jobOut ⟨"in/b"⟩).source = some bytes ∧
      (copyAllDuring [jobOut ⟨"in/a"⟩, jobOut ⟨"in/b"⟩] 1 tools (steps 60)
        threeFiles).shop.disk.at? ⟨"out/b"⟩ = some (.file bytes)) ∧
    ¬ ReportsHold [jobOut ⟨"in/a.part"⟩, jobOut ⟨"in/a"⟩]
      [.ok (.completed ⟨"out/a.part"⟩), .ok (.completed ⟨"out/a"⟩)] threeFiles.disk
      (copyAllDuring [jobOut ⟨"in/a.part"⟩, jobOut ⟨"in/a"⟩] 1 tools (steps 60)
        threeFiles).shop.disk := by
  intro tools
  refine ⟨?_, ?_⟩
  · -- names apart, so the report is right
    have hjobs : (copyOut [⟨"in/a"⟩, ⟨"in/b"⟩]).jobs {} =
        .ok [jobOut ⟨"in/a"⟩, jobOut ⟨"in/b"⟩] := by decide +kernel
    have hr := (copyAllDuring [jobOut ⟨"in/a"⟩, jobOut ⟨"in/b"⟩] 1 tools (steps 60)
      threeFiles).results?_of_sorted
        [(0, .ok (.completed ⟨"out/a"⟩)), (1, .ok (.completed ⟨"out/b"⟩))]
        (by decide +kernel) (by decide +kernel) (by decide)
    have ha : (Path.mk "in/a").fileName? = some "a" := by decide +kernel
    have hb : (Path.mk "in/b").fileName? = some "b" := by decide +kernel
    have hname : (copyOut [⟨"in/a"⟩, ⟨"in/b"⟩]).NameApart "b" := by
      intro other hother name hname
      simp only [copyOut, List.mem_cons, List.not_mem_nil, or_false] at hother
      rcases hother with rfl | rfl
      · obtain rfl := Option.some.inj (ha.symm.trans hname)
        decide
      · obtain rfl := Option.some.inj (hb.symm.trans hname)
        decide
    refine (reported_copies_are_on_disk hjobs 1 tools (steps 60) threeFiles hr).1 1
      (jobOut ⟨"in/b"⟩) ⟨"out/b"⟩ rfl ?_ rfl
    intro name hjob
    obtain rfl := Option.some.inj (hb.symm.trans hjob)
    exact hname
  · -- the second copy writes to the file that the first one has just made
    have hjobs : (copyOut [⟨"in/a.part"⟩, ⟨"in/a"⟩]).jobs {} =
        .ok [jobOut ⟨"in/a.part"⟩, jobOut ⟨"in/a"⟩] := by decide +kernel
    have hr := (copyAllDuring [jobOut ⟨"in/a.part"⟩, jobOut ⟨"in/a"⟩] 1 tools (steps 60)
      threeFiles).results?_of_sorted
        [(0, .ok (.completed ⟨"out/a.part"⟩)), (1, .ok (.completed ⟨"out/a"⟩))]
        (by decide +kernel) (by decide +kernel) (by decide)
    have hplace : ∀ job ∈ [jobOut ⟨"in/a.part"⟩, jobOut ⟨"in/a"⟩],
        ¬ job.IsInPlace threeFiles.disk := by
      intro job hjob
      simp only [List.mem_cons, List.not_mem_nil, or_false] at hjob
      rcases hjob with rfl | rfl
      · exact CopyJob.not_isInPlace ⟨"out/a.part"⟩ ["out", "a.part"]
          (by decide +kernel) (by decide +kernel) (by decide +kernel)
      · exact CopyJob.not_isInPlace ⟨"out/a"⟩ ["out", "a"] (by decide +kernel)
          (by decide +kernel) (by decide +kernel)
    have hcollides : (copyAllDuring [jobOut ⟨"in/a.part"⟩, jobOut ⟨"in/a"⟩] 1 tools (steps 30)
        threeFiles).Collides (.of [jobOut ⟨"in/a.part"⟩, jobOut ⟨"in/a"⟩]) 0 1 :=
      ⟨⟨⟨jobOut ⟨"in/a.part"⟩, "a.part", ⟨"out/a.part"⟩, ⟨"out/a.part.part"⟩⟩,
        ⟨jobOut ⟨"in/a"⟩, "a", ⟨"out/a"⟩, ⟨"out/a.part"⟩⟩,
        by decide +kernel, by decide +kernel, by decide⟩, by decide +kernel, by decide +kernel⟩
    intro hhold
    exact ((reported_copies_are_on_disk hjobs 1 tools (steps 60) threeFiles hr).2
      fun _ _ job _ hjob => hplace job (List.mem_of_getElem? hjob)).mp hhold (steps 30)
      ⟨steps 30, rfl⟩ 0 1 hcollides

/-- A request that is accepted, and whose copies are both reported as complete.  The first
one is not there: the second one has used its name. -/
theorem reported_copy_is_gone :
    let jobs := [jobOut ⟨"in/a.part"⟩, jobOut ⟨"in/a"⟩]
    let run := copyAll jobs 1 { bufferBytes := 4 } 0 threeFiles
    (copyOut [⟨"in/a.part"⟩, ⟨"in/a"⟩]).jobs {} = .ok jobs ∧
    run.1 = some [.ok (.completed ⟨"out/a.part"⟩), .ok (.completed ⟨"out/a"⟩)] ∧
    threeFiles.disk.bytesAt? ⟨"in/a.part"⟩ = some #[2] ∧
    run.2.disk.at? ⟨"out/a.part"⟩ = none := by
  intro jobs run
  have hr := ((CopyPool.start jobs 1 threeFiles).settle (.of jobs) { bufferBytes := 4 }
    0).results?_of_sorted
      [(0, .ok (.completed ⟨"out/a.part"⟩)), (1, .ok (.completed ⟨"out/a"⟩))]
      (by decide +kernel) (by decide +kernel) (by decide)
  exact ⟨by decide +kernel, (copyAll_fst _ _ _ _ _).trans hr, by decide +kernel, by decide +kernel⟩

end TransferBoard
