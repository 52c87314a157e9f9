import Mathlib.Data.Nat.Find
import TransferBoard.Proofs.Copy.OneByOne
import TransferBoard.Proofs.Copy.Records
import TransferBoard.Proofs.Disk.Spelling

/-!
# Two ways to find duplicates

Before a run, the jobs are refused whose destinations earlier jobs have.  Whoever notes the
destinations as completed files, one job after the other, is told for which of them there is a
file already.  Both find the same jobs.  The files that are noted are those of the jobs that are
not refused: one for each place, however its path is spelled.

## Main definitions

* `CompletedFiles.registerJobs` — notes the files of jobs, one after the other.
* `DuplicatesAgree jobs` — what the two ways find, and which files there are in the end.

## Main results

* `CopyJob.same_destination_iff` — when the destinations of two jobs are one place.
* `registerJobs_eq` — the answers and the files, from the destinations that earlier jobs have.
* `exists_first` — the first job with a destination at a place.
* `registerJobs_of_pairwise` — jobs with different destinations are all noted, in any order.
* `duplicates_are_not_added` — **the two ways agree.**
-/

namespace TransferBoard

/-- A job notes a file for its destination, if it has one. -/
theorem CopyJob.map_path_record? (job : CopyJob) :
    job.record?.map CompletedFile.path = job.destination? := by
  rw [record?, plan?, destination?, Option.map_map, Option.map_map]
  rfl

/-- The destinations of two jobs are one place exactly when their sources have one name and their
directories are one place. -/
theorem CopyJob.same_destination_iff {a b : CopyJob} :
    (∃ p q, a.destination? = some p ∧ b.destination? = some q ∧ p.Same q) ↔
      ∃ name, a.source.fileName? = some name ∧ b.source.fileName? = some name ∧
        a.destDir.Same b.destDir := by
  simp only [destination?, Option.map_eq_some_iff]
  constructor
  · rintro ⟨_, _, ⟨name, hname, rfl⟩, ⟨name', hname', rfl⟩, hsame⟩
    obtain ⟨hdirs, rfl⟩ := (Path.same_child_iff (Path.fileName?_pieces hname).1
      (Path.fileName?_pieces hname').1).mp hsame
    exact ⟨name, hname, hname', hdirs⟩
  · rintro ⟨name, hname, hname', hdirs⟩
    have hisName := (Path.fileName?_pieces hname).1
    exact ⟨_, _, ⟨name, hname, rfl⟩, ⟨name, hname', rfl⟩,
      (Path.same_child_iff hisName hisName).mpr ⟨hdirs, rfl⟩⟩

/-! ### Noting the files of jobs -/

namespace CompletedFiles

/-- Notes what jobs make of their files, one job after the other.  Tells for each job whether its
file was added; a job without a destination has none. -/
def registerJobs (c : CompletedFiles) : List CopyJob → List (Option Bool) × CompletedFiles
  | [] => ([], c)
  | job :: jobs =>
    match job.record? with
    | none => (none :: (c.registerJobs jobs).1, (c.registerJobs jobs).2)
    | some f =>
      (some (c.register f).1 :: ((c.register f).2.registerJobs jobs).1,
        ((c.register f).2.registerJobs jobs).2)

/-- The jobs, each with the destination that it shares with a file that is there or an earlier
job. -/
def withDuplicates (c : CompletedFiles) (jobs : List CopyJob) : List (CopyJob × Option Path) :=
  jobs.zip (duplicatesAfter (c.files.map CompletedFile.path) jobs)

/-- The answers and the files, from the destinations that are to be had no more. -/
theorem registerJobs_eq (jobs : List CopyJob) : ∀ c : CompletedFiles,
    (c.registerJobs jobs).1 = (c.withDuplicates jobs).map (fun entry =>
      entry.1.destination?.map fun _ => entry.2.isNone) ∧
    (c.registerJobs jobs).2.files = c.files ++ ((c.withDuplicates jobs).filter fun entry =>
      entry.2.isNone).filterMap fun entry => entry.1.record? := by
  induction jobs with
  | nil => intro c; simp [registerJobs, withDuplicates, duplicatesAfter]
  | cons job jobs ih =>
    intro c
    have hpath := job.map_path_record?
    rw [registerJobs, withDuplicates, duplicatesAfter]
    -- by induction on the jobs, for any files that are registered already
    cases hrecord : job.record? with
    | none =>
      rw [hrecord, Option.map_none] at hpath
      obtain ⟨hanswers, hfiles⟩ := ih c
      rw [← hpath]
      simp [hanswers, hfiles, hrecord, ← hpath, withDuplicates]
    | some f =>
      rw [hrecord, Option.map_some] at hpath
      rw [← hpath]
      -- the record is refused exactly when the destination is that of a file before
      have hseen : ((c.files.map CompletedFile.path).any fun p => p.same f.path) =
          c.contains f.path := by
        rw [contains, List.any_map]
        rfl
      simp only [hseen]
      cases hc : c.contains f.path with
      | true =>
        obtain ⟨hanswers, hfiles⟩ := ih c
        have hadded : c.register f = (false, c) := by rw [register, if_pos hc]
        simp [hadded, hanswers, hfiles, ← hpath, withDuplicates]
      | false =>
        obtain ⟨hanswers, hfiles⟩ := ih ⟨c.files ++ [f]⟩
        have hadded : c.register f = (true, ⟨c.files ++ [f]⟩) := by
          rw [register, hc]
          rfl
        simp [hadded, hanswers, hfiles, hrecord, ← hpath, withDuplicates]

theorem registerJobs_append (jobs more : List CopyJob) : ∀ c : CompletedFiles,
    (c.registerJobs (jobs ++ more)).2 = ((c.registerJobs jobs).2.registerJobs more).2 := by
  induction jobs with
  | nil => exact fun c => rfl
  | cons job jobs ih =>
    intro c
    rw [List.cons_append, registerJobs, registerJobs]
    cases job.record? with
    | none => exact ih c
    | some f => exact ih _

theorem distinct_registerJobs (jobs : List CopyJob) :
    ∀ c : CompletedFiles, c.Distinct → (c.registerJobs jobs).2.Distinct := by
  induction jobs with
  | nil => exact fun c h => h
  | cons job jobs ih =>
    intro c h
    rw [registerJobs]
    cases job.record? with
    | none => exact ih c h
    | some f => exact ih _ (distinct_register h f)

end CompletedFiles

open CompletedFiles (registerJobs)

variable {jobs : List CopyJob} {i : Nat}

/-- The destination of the job with a number. -/
def destinationAt (jobs : List CopyJob) (i : Nat) : Option Path :=
  (jobs[i]?).bind CopyJob.destination?

/-- What is noted when nothing has been noted before. -/
theorem registerJobs_empty (jobs : List CopyJob) :
    (registerJobs {} jobs).1 = (withRefusals jobs).map (fun entry =>
      entry.1.destination?.map fun _ => entry.2.isNone) ∧
    (registerJobs {} jobs).2.files = (freeJobs jobs).filterMap CopyJob.record? := by
  obtain ⟨hanswers, hfiles⟩ := CompletedFiles.registerJobs_eq jobs {}
  refine ⟨hanswers, ?_⟩
  rw [hfiles, freeJobs, List.filterMap_map]
  rfl

/-- A file is added exactly when its job is not refused. -/
theorem getElem?_registerJobs {added : Bool} :
    (registerJobs {} jobs).1[i]? = some (some added) ↔
      (destinationAt jobs i).isSome = true ∧
        ((CopyBatch.of jobs).refusal? i).isNone = added := by
  rw [(registerJobs_empty jobs).1, List.getElem?_map, Option.map_eq_some_iff, destinationAt]
  constructor
  · rintro ⟨⟨job, taken⟩, hentry, hanswer⟩
    obtain ⟨hjob, hrefusal⟩ := getElem?_withRefusals.mp hentry
    obtain ⟨p, hdest, hnone⟩ := Option.map_eq_some_iff.mp hanswer
    rw [hjob, Option.bind_some, hdest, hrefusal]
    exact ⟨rfl, hnone⟩
  · rintro ⟨hsome, hnone⟩
    obtain ⟨p, hdest⟩ := Option.isSome_iff_exists.mp hsome
    obtain ⟨job, hjob, hdest⟩ := Option.bind_eq_some_iff.mp hdest
    refine ⟨(job, _), getElem?_withRefusals.mpr ⟨hjob, rfl⟩, ?_⟩
    rw [hdest, Option.map_some, hnone]

/-! ### The first of each place -/

open Classical in
/-- There is a first job with a destination at the place of one that a job has. -/
theorem exists_first {p : Path} (h : destinationAt jobs i = some p) :
    ∃ j q, j ≤ i ∧ destinationAt jobs j = some q ∧ q.Same p ∧
      ∀ k r, k < j → destinationAt jobs k = some r → ¬ r.Same p := by
  have hsome : ∃ j q, destinationAt jobs j = some q ∧ q.Same p := ⟨i, p, h, rfl⟩
  obtain ⟨q, hq, hsame⟩ := Nat.find_spec hsome
  exact ⟨Nat.find hsome, q, Nat.find_min' hsome ⟨p, h, rfl⟩, hq, hsame,
    fun k r hk hr hrp => Nat.find_min hsome hk ⟨r, hr, hrp⟩⟩

/-- The first job with a destination at a place is not refused. -/
theorem mem_files_of_first {j : Nat} {q : Path} (hq : destinationAt jobs j = some q)
    (hfirst : ∀ k r, k < j → destinationAt jobs k = some r → ¬ r.Same q) :
    ∃ f, recordAt jobs j = some f ∧ f.path = q ∧ f ∈ (registerJobs {} jobs).2.files := by
  obtain ⟨job, hjob, hdest⟩ := Option.bind_eq_some_iff.mp hq
  have hfree : (CopyBatch.of jobs).refusal? j = none := by
    refine refusal?_eq_none_iff.mpr ?_
    rintro dest ⟨hown, k, other, r, hk, hother, hr, hsame⟩
    obtain rfl := Option.some.inj (hq.symm.trans hown)
    exact hfirst k r hk (Option.bind_eq_some_iff.mpr ⟨other, hother, hr⟩) hsame
  have hpath := job.map_path_record?
  rw [hdest] at hpath
  obtain ⟨f, hrecord, hf⟩ := Option.map_eq_some_iff.mp hpath
  refine ⟨f, by rw [recordAt, hjob, Option.bind_some, hrecord], hf, ?_⟩
  rw [(registerJobs_empty jobs).2, List.mem_filterMap]
  exact ⟨job, mem_freeJobs.mpr ⟨j, getElem?_withRefusals.mpr ⟨hjob, hfree⟩⟩, hrecord⟩

/-! ### Different destinations -/

/-- The destinations of the two jobs, if they have any, are different places. -/
def CopyJob.LandsApart (a b : CopyJob) : Prop :=
  ∀ p q, a.destination? = some p → b.destination? = some q → ¬ p.Same q

theorem CopyJob.LandsApart.symm {a b : CopyJob} (h : a.LandsApart b) : b.LandsApart a :=
  fun p q hp hq hsame => h q p hq hp hsame.symm

/-- The jobs that are not refused have different destinations. -/
theorem freeJobs_pairwise (jobs : List CopyJob) : (freeJobs jobs).Pairwise CopyJob.LandsApart := by
  rw [freeJobs, List.pairwise_map, List.pairwise_filter, List.pairwise_iff_getElem]
  intro i j hi hj hij hfree hfree' p q hp hq hsame
  obtain ⟨hjob, -⟩ := getElem?_withRefusals.mp (List.getElem?_eq_getElem hi)
  obtain ⟨hjob', hrefusal⟩ := getElem?_withRefusals.mp (List.getElem?_eq_getElem hj)
  exact refusal?_eq_none_iff.mp (hrefusal.trans (Option.isNone_iff_eq_none.mp hfree')) q
    ⟨Option.bind_eq_some_iff.mpr ⟨_, hjob', hq⟩, i, _, p, hij, hjob, hp, hsame⟩

/-- Jobs with different destinations are all noted. -/
theorem registerJobs_of_pairwise (h : jobs.Pairwise CopyJob.LandsApart) :
    (registerJobs {} jobs).1 = jobs.map (fun job => job.destination?.map fun _ => true) ∧
      (registerJobs {} jobs).2.files = jobs.filterMap CopyJob.record? := by
  -- no job lands where an earlier one does, so none is refused
  have hrefusals : withRefusals jobs = jobs.map fun job => (job, none) := by
    refine List.ext_getElem? fun i => ?_
    rw [List.getElem?_map]
    cases hjob : jobs[i]? with
    | none =>
      have hlen := List.getElem?_eq_none_iff.mp hjob
      rw [Option.map_none, List.getElem?_eq_none_iff, length_withRefusals]
      exact hlen
    | some job =>
      refine getElem?_withRefusals.mpr ⟨hjob, refusal?_eq_none_iff.mpr ?_⟩
      rintro dest ⟨hown, k, other, r, hk, hother, hr, hsame⟩
      rw [hjob, Option.bind_some] at hown
      obtain ⟨hi, rfl⟩ := List.getElem?_eq_some_iff.mp hjob
      obtain ⟨hk', rfl⟩ := List.getElem?_eq_some_iff.mp hother
      exact List.pairwise_iff_getElem.mp h k i hk' hi hk r dest hr hown hsame
  obtain ⟨hanswers, hfiles⟩ := registerJobs_empty jobs
  rw [hanswers, hfiles, freeJobs, hrefusals]
  refine ⟨?_, ?_⟩
  · rw [List.map_map]
    rfl
  · have hall : (jobs.map fun job => (job, (none : Option Path))).filter
        (fun entry => entry.2.isNone) = jobs.map fun job => (job, none) :=
      List.filter_eq_self.mpr fun entry hentry => by
        obtain ⟨job, -, rfl⟩ := List.mem_map.mp hentry
        rfl
    rw [hall, List.map_map]
    congr 1
    exact List.map_id jobs

/-! ### The two ways -/

/-- What the two ways find, and which files there are in the end.  Paths are for one place when
they are spelled alike. -/
structure DuplicatesAgree (jobs : List CopyJob) : Prop where
  /-- A job is refused exactly when its file is not added. -/
  refused : ∀ i : Nat, (∃ p, (duplicateDestinations jobs)[i]? = some (some p)) ↔
    (registerJobs {} jobs).1[i]? = some (some false)
  /-- It is refused for its own destination. -/
  own : ∀ i p, (duplicateDestinations jobs)[i]? = some (some p) → destinationAt jobs i = some p
  /-- These are the jobs with a name that an earlier job has as well, in a directory that is spelled
  alike. -/
  named : ∀ (i : Nat) (job : CopyJob), jobs[i]? = some job →
    ((∃ p, (duplicateDestinations jobs)[i]? = some (some p)) ↔
      ∃ (k : Nat) (other : CopyJob) (name : String), k < i ∧ jobs[k]? = some other ∧
        other.source.fileName? = some name ∧ job.source.fileName? = some name ∧
        other.destDir.SpelledAlike job.destDir)
  /-- Each job has an answer; there is nothing to add of a job without a destination. -/
  answered : ∀ i, (registerJobs {} jobs).1[i]? = some none ↔
    i < jobs.length ∧ destinationAt jobs i = none
  /-- The files are those of the jobs that are not refused, in the order of the jobs. -/
  files : (registerJobs {} jobs).2.files = (freeJobs jobs).filterMap CopyJob.record?
  /-- No two of them are for one place. -/
  apart : (registerJobs {} jobs).2.files.Pairwise fun f g => ¬ f.path.SpelledAlike g.path
  /-- For the place of each destination there is one: that of the first job with a destination
  there. -/
  first : ∀ i p, destinationAt jobs i = some p → ∃ j f, j ≤ i ∧ recordAt jobs j = some f ∧
    f ∈ (registerJobs {} jobs).2.files ∧ f.path.SpelledAlike p ∧
    ∀ k q, k < j → destinationAt jobs k = some q → ¬ q.SpelledAlike p
  /-- Noting the file of a refused job changes nothing. -/
  unchanged : ∀ i p, (duplicateDestinations jobs)[i]? = some (some p) →
    (registerJobs {} (jobs.take (i + 1))).2 = (registerJobs {} (jobs.take i)).2
  /-- What has been noted stays as it is. -/
  stays : ∀ n, (registerJobs {} (jobs.take n)).2.files <+: (registerJobs {} jobs).2.files
  /-- The jobs that are not refused have different destinations. -/
  different : (freeJobs jobs).Pairwise fun a b => ∀ p q, a.destination? = some p →
    b.destination? = some q → ¬ p.SpelledAlike q
  /-- Whichever of them are completed, and in whatever order, the file of each one is added. -/
  noted : ∀ completed : List CopyJob, completed.Subperm (freeJobs jobs) →
    (registerJobs {} completed).1 =
        completed.map (fun job => job.destination?.map fun _ => true) ∧
      (registerJobs {} completed).2.files = completed.filterMap CopyJob.record?

theorem getElem?_duplicateDestinations {p : Path} :
    (duplicateDestinations jobs)[i]? = some (some p) ↔
      (CopyBatch.of jobs).refusal? i = some p := Option.join_eq_some_iff.symm

/-- A refused job finds a file for its destination. -/
theorem contains_of_refusal {p : Path} (h : (CopyBatch.of jobs).refusal? i = some p) :
    (registerJobs {} (jobs.take i)).2.contains p = true := by
  obtain ⟨-, k, other, r, hk, hother, hr, hsame⟩ := refusal?_iff.mp h
  have htaken : destinationAt (jobs.take i) k = some r := by
    rw [destinationAt, List.getElem?_take_of_lt hk, hother]
    exact hr
  obtain ⟨j, q, -, hq, hqr, hfirst⟩ := exists_first htaken
  obtain ⟨f, -, hpath, hf⟩ := mem_files_of_first hq fun k s hk hs hsq =>
    hfirst k s hk hs (hsq.trans hqr)
  exact CompletedFiles.contains_iff.mpr ⟨f, hf, hpath ▸ hqr.trans hsame⟩

/-- **The two ways agree.**  A job is refused exactly when there is a file for its destination
already, and the files are those of the jobs that are not refused. -/
theorem duplicates_are_not_added (jobs : List CopyJob) : DuplicatesAgree jobs where
  refused i := by
    simp only [getElem?_duplicateDestinations, getElem?_registerJobs]
    constructor
    · rintro ⟨p, h⟩
      have hdest := (refusal?_iff.mp h).1
      exact ⟨Option.isSome_iff_exists.mpr ⟨p, hdest⟩, by rw [h]; rfl⟩
    · rintro ⟨-, hrefused⟩
      exact Option.isSome_iff_exists.mp (Option.isNone_eq_false_iff.mp hrefused)
  own i p h := (refusal?_iff.mp (getElem?_duplicateDestinations.mp h)).1
  named i job hjob := by
    simp only [getElem?_duplicateDestinations, refusal?_iff, IsTaken, hjob, Option.bind_some,
      ← Path.same_iff_spelledAlike]
    constructor
    · -- destinations in one directory agree exactly when their names do
      rintro ⟨p, hp, k, other, q, hk, hother, hq, hsame⟩
      obtain ⟨name, hname⟩ := CopyJob.same_destination_iff.mp ⟨q, p, hq, hp, hsame⟩
      exact ⟨k, other, name, hk, hother, hname⟩
    · rintro ⟨k, other, name, hk, hother, hname⟩
      obtain ⟨q, p, hq, hp, hsame⟩ := CopyJob.same_destination_iff.mpr ⟨name, hname⟩
      exact ⟨p, hp, k, other, q, hk, hother, hq, hsame⟩
  answered i := by
    rw [(registerJobs_empty jobs).1, List.getElem?_map, Option.map_eq_some_iff, destinationAt]
    constructor
    · rintro ⟨⟨job, taken⟩, hentry, hanswer⟩
      have hjob := (getElem?_withRefusals.mp hentry).1
      rw [hjob, Option.bind_some]
      exact ⟨(List.getElem?_eq_some_iff.mp hjob).1, Option.map_eq_none_iff.mp hanswer⟩
    · rintro ⟨hlt, hdest⟩
      have hjob := List.getElem?_eq_getElem hlt
      rw [hjob, Option.bind_some] at hdest
      exact ⟨(jobs[i], _), getElem?_withRefusals.mpr ⟨hjob, rfl⟩, Option.map_eq_none_iff.mpr hdest⟩
  files := (registerJobs_empty jobs).2
  apart := (CompletedFiles.distinct_registerJobs jobs {} .nil).imp fun hne halike =>
    hne (Path.same_iff_spelledAlike.mpr halike)
  first i p h := by
    -- the first job that lands there is not refused itself
    obtain ⟨j, q, hj, hq, hqp, hfirst⟩ := exists_first h
    obtain ⟨f, hrecord, hpath, hf⟩ := mem_files_of_first hq fun k r hk hr hrq =>
      hfirst k r hk hr (hrq.trans hqp)
    refine ⟨j, f, hj, hrecord, hf, Path.same_iff_spelledAlike.mp (hpath ▸ hqp), ?_⟩
    exact fun k r hk hr halike => hfirst k r hk hr (Path.same_iff_spelledAlike.mpr halike)
  unchanged i p h := by
    have hrefusal := getElem?_duplicateDestinations.mp h
    obtain ⟨job, hjob, hdest⟩ := Option.bind_eq_some_iff.mp (refusal?_iff.mp hrefusal).1
    obtain ⟨f, hrecord, hpath⟩ := Option.map_eq_some_iff.mp (job.map_path_record?.trans hdest)
    rw [List.take_add_one, hjob, CompletedFiles.registerJobs_append, Option.toList_some,
      CompletedFiles.registerJobs, hrecord]
    exact CompletedFiles.register_of_contains (hpath ▸ contains_of_refusal hrefusal)
  stays n := by
    have hsplit := CompletedFiles.registerJobs_append (jobs.take n) (jobs.drop n) {}
    rw [List.take_append_drop] at hsplit
    rw [hsplit, (CompletedFiles.registerJobs_eq (jobs.drop n) _).2]
    exact List.prefix_append _ _
  different := (freeJobs_pairwise jobs).imp fun hne p q hp hq halike =>
    hne p q hp hq (Path.same_iff_spelledAlike.mpr halike)
  noted completed h := by
    obtain ⟨inOrder, hperm, hsub⟩ := h
    exact registerJobs_of_pairwise ((hperm.pairwise_iff CopyJob.LandsApart.symm).mp
      ((freeJobs_pairwise jobs).sublist hsub))

example : (registerJobs {} [{ source := ⟨"a/x"⟩, destDir := ⟨"out"⟩ },
    { source := ⟨"x/."⟩, destDir := ⟨"out//"⟩ }, { source := ⟨"x/.."⟩, destDir := ⟨"out"⟩ },
    { source := ⟨"x"⟩, destDir := ⟨"./out"⟩ }]).1 = [some true, some false, none, some true] := by
  decide +kernel

end TransferBoard
