import TransferBoard.CommandLine.Request
import TransferBoard.Proofs.Copy.Stages
import TransferBoard.Proofs.Copy.Workers

/-!
# The names of a request

All jobs of a request copy into one directory, and a request whose destinations meet is
refused.  So the names of its jobs differ.  What is not looked at are the names of the
temporary files: that of one job may be the name of another.

## Main definitions

* `CopyBatch.Distinct` — the names of all plans differ.
* `CopyBatch.NamedLikeTemp` — the name of one job is the temporary name of another.
* `CopyRequest.NameApart` — a name is not the temporary name of a source of the request,
  and its temporary name is not the name of one.

## Main results

* `distinct_of_jobs` — the names of the jobs of a request differ.
* `not_namedLikeTemp` — a job whose name is apart has not the temporary name of another,
  and no other one has its temporary name.
-/

namespace TransferBoard

theorem append_tempSuffix_inj {s s' : String} (h : s ++ tempSuffix = s' ++ tempSuffix) :
    s = s' := by
  have hlists := congrArg String.toList h
  rw [String.toList_append, String.toList_append] at hlists
  exact String.toList_injective (List.append_cancel_right hlists)

/-! ### Batches -/

namespace CopyBatch

variable {batch : CopyBatch}

/-- The names of all plans differ. -/
def Distinct (batch : CopyBatch) : Prop :=
  ∀ i j plan other, batch.plan? i = some plan → batch.plan? j = some other → i ≠ j →
    plan.name ≠ other.name

/-- The name of the first job is the temporary name of the second one. -/
def NamedLikeTemp (batch : CopyBatch) (i j : Nat) : Prop :=
  ∃ plan other, batch.plan? i = some plan ∧ batch.plan? j = some other ∧
    plan.name = other.name ++ tempSuffix

theorem plan?_eq_some {i : Nat} {plan : CopyPlan} (h : batch.plan? i = some plan) :
    plan.Proper ∧ batch.jobs[i]? = some plan.job := by
  obtain ⟨job, hjob, hplan⟩ := Option.bind_eq_some_iff.mp h
  obtain ⟨hp, rfl, -⟩ := CopyPlan.proper_of_plan? hplan
  exact ⟨hp, hjob⟩

end CopyBatch

/-! ### Jobs -/

/-- When no destination is found twice, the destinations differ, also from those seen
before. -/
theorem pairwise_of_duplicatesAfter :
    ∀ (jobs : List CopyJob) (seen : List Path), (∀ x ∈ duplicatesAfter seen jobs, x = none) →
      (∀ job ∈ jobs, ∀ q, job.destination? = some q → ∀ p ∈ seen, ¬ p.Same q) ∧
      jobs.Pairwise fun a b => ∀ p q, a.destination? = some p → b.destination? = some q →
        ¬ p.Same q := by
  -- the destinations seen grow along the list, so the statement is about all of them
  intro jobs
  induction jobs with
  | nil => intro seen _; exact ⟨fun job hjob => absurd hjob List.not_mem_nil, .nil⟩
  | cons job jobs ih =>
    intro seen h
    rw [duplicatesAfter] at h
    cases hdest : job.destination? with
    | none =>
      rw [hdest] at h
      obtain ⟨hseen, hpairs⟩ := ih seen fun x hx => h x (List.mem_cons_of_mem _ hx)
      refine ⟨?_, .cons ?_ hpairs⟩
      · intro other hother q hq
        rcases List.mem_cons.mp hother with rfl | hother
        · rw [hdest] at hq; exact absurd hq (by simp)
        · exact hseen other hother q hq
      · intro other _ p q hp
        rw [hdest] at hp; exact absurd hp (by simp)
    | some dest =>
      simp only [hdest] at h
      split at h
      · exact absurd (h _ List.mem_cons_self) (by simp)
      next hnew =>
      -- the destination is new, and is one of those seen for the rest
      obtain ⟨hseen, hpairs⟩ := ih (seen ++ [dest]) fun x hx => h x (List.mem_cons_of_mem _ hx)
      refine ⟨?_, .cons ?_ hpairs⟩
      · intro other hother q hq p hp hsame
        rcases List.mem_cons.mp hother with rfl | hother
        · obtain rfl := Option.some.inj (hdest.symm.trans hq)
          exact hnew (List.any_eq_true.mpr ⟨p, hp, decide_eq_true hsame⟩)
        · exact hseen other hother q hq p (List.mem_append_left _ hp) hsame
      · intro other hother p q hp hq
        obtain rfl := Option.some.inj (hdest.symm.trans hp)
        exact hseen other hother q hq dest (List.mem_append_right _ List.mem_cons_self)

namespace CopyRequest

variable {r : CopyRequest} {config : Config} {jobs : List CopyJob}

/-- The name is not the temporary name of a source, and its temporary name is not the name
of one. -/
def NameApart (r : CopyRequest) (name : String) : Prop :=
  ∀ other ∈ r.sources, ∀ name', other.fileName? = some name' →
    name' ++ tempSuffix ≠ name ∧ name ++ tempSuffix ≠ name'

theorem jobsOf_eq_ok (r : CopyRequest) (asked : Option DigestKind) :
    ∀ (sources : List Path) (digests : List String) (jobs : List CopyJob),
      r.jobsOf asked sources digests = .ok jobs →
        jobs.map CopyJob.source = sources ∧ ∀ job ∈ jobs, job.destDir = r.dest := by
  intro sources
  induction sources with
  | nil =>
    intro digests jobs h
    obtain rfl := Except.ok.inj h
    exact ⟨rfl, fun job hjob => absurd hjob List.not_mem_nil⟩
  | cons source sources ih =>
    intro digests jobs h
    rw [jobsOf, job] at h
    -- by induction on the sources; a fault in one of them is the answer
    cases hkind : jobKind asked (digests.head?.bind nonBlank?) source with
    | error e => rw [hkind] at h; exact absurd h (by simp [bind, Except.bind])
    | ok kind =>
      cases hrest : r.jobsOf asked sources digests.tail with
      | error e =>
        rw [hkind, hrest] at h
        exact absurd h (by simp [bind, Except.bind])
      | ok rest =>
        rw [hkind, hrest] at h
        obtain rfl := Except.ok.inj h
        obtain ⟨hsources, hdirs⟩ := ih digests.tail rest hrest
        refine ⟨by rw [List.map_cons, hsources], ?_⟩
        intro job hjob
        rcases List.mem_cons.mp hjob with rfl | hjob
        · rfl
        · exact hdirs job hjob

/-- The jobs of a request have its sources and its directory, and no two of them land at
the same destination. -/
theorem jobs_eq_ok (h : r.jobs config = .ok jobs) :
    jobs.map CopyJob.source = r.sources ∧ (∀ job ∈ jobs, job.destDir = r.dest) ∧
      ∀ x ∈ duplicateDestinations jobs, x = none := by
  unfold CopyRequest.jobs at h
  split at h
  · exact absurd h (by simp [bind, Except.bind, throw, throwThe, MonadExceptOf.throw])
  cases hjobs : r.jobsOf (r.kind.or config.defaultDigest) r.sources r.expect with
  | error e => rw [hjobs] at h; exact absurd h (by simp [bind, Except.bind])
  | ok made =>
    simp only [hjobs, bind, Except.bind, pure, Except.pure] at h
    split at h
    · exact absurd h (by simp [throw, throwThe, MonadExceptOf.throw])
    next hnone =>
    obtain rfl := Except.ok.inj h
    obtain ⟨hsources, hdirs⟩ := jobsOf_eq_ok r _ _ _ _ hjobs
    refine ⟨hsources, hdirs, ?_⟩
    intro x hx
    simpa using List.findSome?_eq_none_iff.mp hnone x hx

/-- **The names of the jobs of a request differ.** -/
theorem distinct_of_jobs (h : r.jobs config = .ok jobs) : (CopyBatch.of jobs).Distinct := by
  obtain ⟨-, hdirs, hnone⟩ := jobs_eq_ok h
  have hpairs := (pairwise_of_duplicatesAfter jobs [] hnone).2
  rw [List.pairwise_iff_getElem] at hpairs
  -- equal names make equal destinations, in whatever order the two jobs stand
  have hless : ∀ i j plan other, (CopyBatch.of jobs).plan? i = some plan →
      (CopyBatch.of jobs).plan? j = some other → i < j → plan.name ≠ other.name := by
    intro i j plan other hi hj hij hname
    obtain ⟨job, hjob, hplan⟩ := Option.bind_eq_some_iff.mp hi
    obtain ⟨job', hjob', hplan'⟩ := Option.bind_eq_some_iff.mp hj
    obtain ⟨hp, rfl, hdest⟩ := CopyPlan.proper_of_plan? hplan
    obtain ⟨hp', rfl, hdest'⟩ := CopyPlan.proper_of_plan? hplan'
    have hdir := hdirs _ (List.mem_of_getElem? hjob)
    have hdir' := hdirs _ (List.mem_of_getElem? hjob')
    obtain ⟨hlt, hget⟩ := List.getElem?_eq_some_iff.mp hjob
    obtain ⟨hlt', hget'⟩ := List.getElem?_eq_some_iff.mp hjob'
    refine hpairs i j hlt hlt' hij plan.target other.target (hget ▸ hdest) (hget' ▸ hdest') ?_
    rw [hp.target, hp'.target, hname, hdir, hdir']
    exact rfl
  intro i j plan other hi hj hij
  rcases Nat.lt_or_gt_of_ne hij with hlt | hgt
  · exact hless i j plan other hi hj hlt
  · exact (hless j i other plan hj hi hgt).symm

/-- A job whose name is apart has not the temporary name of another, and no other one has
its temporary name. -/
theorem not_namedLikeTemp (h : r.jobs config = .ok jobs) {i : Nat} {plan : CopyPlan}
    (hi : (CopyBatch.of jobs).plan? i = some plan) (hname : r.NameApart plan.name) (j : Nat) :
    ¬ (CopyBatch.of jobs).NamedLikeTemp i j ∧ ¬ (CopyBatch.of jobs).NamedLikeTemp j i := by
  have hother : ∀ other, (CopyBatch.of jobs).plan? j = some other →
      other.name ++ tempSuffix ≠ plan.name ∧ plan.name ++ tempSuffix ≠ other.name := by
    intro other hj
    obtain ⟨hp, hjob⟩ := CopyBatch.plan?_eq_some hj
    refine hname other.job.source ?_ other.name hp.name
    rw [← (jobs_eq_ok h).1]
    exact List.mem_map_of_mem (List.mem_of_getElem? hjob)
  constructor
  · rintro ⟨plan', other, hi', hj, heq⟩
    obtain rfl := Option.some.inj (hi.symm.trans hi')
    exact (hother other hj).1 heq.symm
  · rintro ⟨other, plan', hj, hi', heq⟩
    obtain rfl := Option.some.inj (hi.symm.trans hi')
    exact (hother other hj).2 heq.symm

end CopyRequest
end TransferBoard
