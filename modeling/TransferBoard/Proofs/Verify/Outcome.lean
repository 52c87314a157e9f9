import TransferBoard.Proofs.Verify.Course
import TransferBoard.Verify.ScriptedPrompter

/-!
# What becomes of the files

A verification in which every question and message can be put has an outcome.  Every file
that was told of has come to the end of its verification; the file at which the user stopped
is as it was or has a digest that is not compared; the files after it are as they were.  The
counts are those of the files that were told of.

## Main definitions

* `VerifyStatus.isFailure` — the status counts as a failure.
* `StoppedAt` — how the user can stop at a file, and how the file is left.

## Main results

* `ofFiles_eq`, `total_eq_countP` — the counts over some files, and their sum.
* `outcome_of_verification` — the outcome of every verification.
-/

namespace TransferBoard

/-! ### Counts -/

/-- There is no digest, or the wrong one. -/
def VerifyStatus.isFailure : VerifyStatus → Bool
  | failed _ | mismatch => true
  | _ => false

namespace VerifySummary

theorem count_eq (s : VerifySummary) (status : VerifyStatus) :
    s.count status =
      { verified := s.verified + if status = .verified then 1 else 0
        failed := s.failed + if status.isFailure then 1 else 0
        skipped := s.skipped + if status = .skipped then 1 else 0 } := by
  cases status <;> rfl

theorem ofFiles_eq (files : List CompletedFile) :
    ofFiles files =
      { verified := files.countP (·.status = .verified)
        failed := files.countP (·.status.isFailure)
        skipped := files.countP (·.status = .skipped) } := by
  have h : ∀ s : VerifySummary, files.foldl (fun s f => s.count f.status) s =
      { verified := s.verified + files.countP (·.status = .verified)
        failed := s.failed + files.countP (·.status.isFailure)
        skipped := s.skipped + files.countP (·.status = .skipped) } := by
    induction files with
    | nil => intro s; rfl
    | cons f files ih =>
      intro s
      rw [List.foldl_cons, ih, count_eq]
      simp only [List.countP_cons, decide_eq_true_eq, mk.injEq]
      omega
  rw [ofFiles, h]
  simp only [Nat.zero_add]

/-- Files in a final state are counted, once each. -/
theorem total_eq_countP (files : List CompletedFile) :
    (ofFiles files).verified + (ofFiles files).failed + (ofFiles files).skipped =
      files.countP (·.status.isFinal) := by
  have hone : ∀ status : VerifyStatus, (if status.isFinal then 1 else 0) =
      (if status = .verified then 1 else 0) + (if status.isFailure then 1 else 0) +
        if status = .skipped then 1 else 0 := by
    intro status
    cases status <;> rfl
  rw [ofFiles_eq]
  induction files with
  | nil => rfl
  | cons f files ih =>
    simp only [List.countP_cons, decide_eq_true_eq, hone] at ih ⊢
    omega

end VerifySummary

/-- The files that were told of are counted, and no others. -/
theorem countP_isFinal (talks : List FileTalk) {left : List CompletedFile}
    (hleft : ∀ f ∈ left, f.status.isFinal = false) :
    (talks.map (·.final) ++ left).countP (·.status.isFinal) = talks.length := by
  have htold : (talks.map (·.final)).countP (·.status.isFinal) = talks.length := by
    rw [List.countP_eq_length.mpr, List.length_map]
    intro f hf
    obtain ⟨talk, -, rfl⟩ := List.mem_map.mp hf
    exact talk.isFinal
  have hrest : left.countP (·.status.isFinal) = 0 :=
    List.countP_eq_zero.mpr fun f hf => by rw [hleft f hf]; exact Bool.false_ne_true
  rw [List.countP_append, htold, hrest, Nat.add_zero]

/-! ### The file at which the user stops -/

/-- How the user stops at a file: at the choice of a kind, and the file is as it was; or at
the expected digest, and the file has its digest, not compared. -/
def StoppedAt (f : CompletedFile) (index total : Nat) (tail : List Exchange)
    (f' : CompletedFile) : Prop :=
  (tail = [.chooseKind f index total (.ok none)] ∧ f' = f) ∨
  ∃ kind digest, f.expected = none ∧
    tail = [.chooseKind f index total (.ok (some kind)), .calculating (f.chosen kind) kind (.ok ()),
      .digest kind f.path (.ok digest), .expectedDigest f' (.ok none)] ∧
    f' = { f with
      kind := some kind, digest := some digest, computed := true, status := .calculated }

section

variable {f f' : CompletedFile} {index total : Nat} {tail : List Exchange}

theorem CutShort.stoppedAt (h : CutShort f index total tail (.ok f')) :
    StoppedAt f index total tail f' := by
  cases h with
  | choiceCancelled => exact .inl ⟨rfl, rfl⟩
  | expectedCancelled kind digest unknown => exact .inr ⟨kind, digest, unknown, rfl, rfl⟩

theorem CutShort.fails {e : OsError} (h : CutShort f index total tail (.error e)) :
    ∃ x ∈ tail, x.fails = true := by
  cases h with
  | choiceFails => exact ⟨_, List.mem_cons_self, rfl⟩
  | calculatingFails kind =>
    exact ⟨_, List.mem_cons_of_mem _ List.mem_cons_self, rfl⟩
  | expectedFails kind digest unknown =>
    exact ⟨.expectedDigest (f.answered kind (.ok digest)) (.error e), by simp, rfl⟩
  | reportFails talk about =>
    exact ⟨_, List.mem_append.mpr (.inr List.mem_cons_self), rfl⟩

theorem StoppedAt.name_path (h : StoppedAt f index total tail f') :
    f'.name = f.name ∧ f'.path = f.path := by
  obtain ⟨-, rfl⟩ | ⟨kind, digest, -, -, rfl⟩ := h <;> exact ⟨rfl, rfl⟩

theorem StoppedAt.not_final (h : StoppedAt f index total tail f') (hf : f.status = .notRequested) :
    f'.status.isFinal = false := by
  obtain ⟨-, rfl⟩ | ⟨kind, digest, -, -, rfl⟩ := h
  · rw [hf]
    rfl
  · rfl

end

/-! ### The outcome -/

/-- A file that was told of is as the answers have it. -/
theorem FileTalk.fate (talk : FileTalk) : talk.final.status.isFinal = true ∧
    (∀ message, talk.final.status = .failed message ↔
      ∃ e, talk.answer = .error e ∧ e.message = message) ∧
    (talk.final.status = .skipped ↔
      (∃ digest, talk.answer = .ok digest) ∧ nonBlank? talk.expected = none) ∧
    (talk.final.status = .verified ↔ ∃ digest text, talk.answer = .ok digest ∧
      nonBlank? talk.expected = some text ∧ digestsMatch digest text = true) ∧
    (talk.final.status = .mismatch ↔ ∃ digest text, talk.answer = .ok digest ∧
      nonBlank? talk.expected = some text ∧ digestsMatch digest text = false) :=
  ⟨talk.isFinal, talk.failed_iff, talk.skipped_iff, talk.verified_iff, talk.mismatch_iff⟩

theorem map_name_path_final (talks : List FileTalk) :
    (talks.map (·.final)).map (fun f => (f.name, f.path)) =
      (talks.map (·.file)).map fun f => (f.name, f.path) := by
  rw [List.map_map, List.map_map]
  refine List.map_congr_left fun talk _ => ?_
  obtain ⟨hname, hpath⟩ := talk.name_path_final
  exact Prod.ext hname hpath

/-- A walk in which every question and message can be put has an outcome. -/
theorem WalkEnd.outcome {total : Nat} {talks : List FileTalk} {left : List CompletedFile}
    {tail : List Exchange} {result : Except WorkflowError WorkflowOutcome}
    (h : WalkEnd total talks left tail result) (hleft : ∀ f ∈ left, f.status = .notRequested)
    (hputs : ∀ x ∈ tail, x.fails = false) :
    ∃ status left', result = .ok (.of status (talks.map (·.final) ++ left')) ∧
      left'.map (fun f => (f.name, f.path)) = left.map (fun f => (f.name, f.path)) ∧
      (∀ f ∈ left', f.status.isFinal = false) ∧
      (left = [] → status = .completed ∧ left' = []) ∧
      ∀ f after, left = f :: after → ∃ f', status = .aborted ∧ left' = f' :: after ∧
        StoppedAt f talks.length total tail f' := by
  cases h with
  | whole =>
    refine ⟨.completed, [], by rw [List.append_nil], rfl, by simp, fun _ => ⟨rfl, rfl⟩, ?_⟩
    exact nofun
  | uncounted e => exact absurd (hputs _ List.mem_cons_self) Bool.false_ne_true.symm
  | @stopped f f' after tail cut =>
    -- the file at which the walk stopped is not settled, nor are those after it
    have hstop := cut.stoppedAt
    obtain ⟨hname, hpath⟩ := hstop.name_path
    refine ⟨.aborted, f' :: after, rfl, ?_, ?_, nofun, ?_⟩
    · rw [List.map_cons, List.map_cons, hname, hpath]
    · intro g hg
      rcases List.mem_cons.mp hg with rfl | hg
      · exact hstop.not_final (hleft f List.mem_cons_self)
      · rw [hleft g (List.mem_cons_of_mem _ hg)]
        rfl
    · rintro g rest ⟨⟩
      exact ⟨f', rfl, rfl, hstop⟩
  | broken cut =>
    -- a walk that breaks does so at a call that fails
    obtain ⟨x, hx, hfails⟩ := cut.fails
    rw [hputs x hx] at hfails
    exact absurd hfails Bool.false_ne_true

/-- A conversation in which every question and message can be put has an outcome. -/
theorem Course.exists_ok {files : List CompletedFile} {t : List Exchange}
    {result : Except WorkflowError WorkflowOutcome} (h : Course files t result)
    (hputs : ∀ x ∈ t, x.fails = false) : ∃ outcome, result = .ok outcome := by
  cases h with
  | nothing empty => exact ⟨_, rfl⟩
  | unasked given e => exact absurd (hputs _ List.mem_cons_self) Bool.false_ne_true.symm
  | declined given no => exact ⟨_, rfl⟩
  | @walked given talks left split tail result ends =>
    replace hputs : ∀ x ∈ tail, x.fails = false := fun x hx =>
      hputs x (List.mem_cons_of_mem _ (List.mem_append_right _ hx))
    cases ends with
    | whole => exact ⟨_, rfl⟩
    | uncounted e => exact absurd (hputs _ List.mem_cons_self) Bool.false_ne_true.symm
    | stopped cut => exact ⟨_, rfl⟩
    | broken cut =>
      obtain ⟨x, hx, hfails⟩ := cut.fails
      exact absurd ((hputs x hx).symm.trans hfails) Bool.false_ne_true

variable {σ : Type}

/-- **The outcome of a verification** in which every question and message can be put.  The
files keep their order, their names and their paths, and the counts are those of their
states.  With nothing to do the verification is complete, and without consent nothing is
done.  Otherwise the files `talks` have come to their ends as the answers have it, and they
are all the files, or the user has stopped at the next one and those after it are as they
were. -/
theorem outcome_of_verification (p : Prompter σ) (hashing : Hashing σ)
    (files : List CompletedFile) (s : σ) (hfiles : ∀ f ∈ files, f.status = .notRequested)
    (hputs : ∀ x ∈ record p hashing files s, x.fails = false) :
    ∃ outcome, (workflow p hashing files s).1 = .ok outcome ∧
      outcome.files.map (fun f => (f.name, f.path)) = files.map (fun f => (f.name, f.path)) ∧
      outcome.summary =
        { verified := outcome.files.countP (·.status = .verified)
          failed := outcome.files.countP (·.status.isFailure)
          skipped := outcome.files.countP (·.status = .skipped) } ∧
      (files = [] → outcome.status = .completed) ∧
      (files ≠ [] → ∃ answer rest,
        record p hashing files s = .confirmStart files.length (.ok answer) :: rest ∧
        (answer ≠ some true → outcome.status = .declined ∧ outcome.files = files) ∧
        (answer = some true → ∃ talks left tail,
          files = talks.map (·.file) ++ left ∧ rest = told files.length 0 talks ++ tail ∧
          (left = [] → outcome.status = .completed ∧ outcome.files = talks.map (·.final) ∧
            talks.length = files.length) ∧
          (∀ f after, left = f :: after → ∃ f', outcome.status = .aborted ∧
            outcome.files = talks.map (·.final) ++ f' :: after ∧
            StoppedAt f talks.length files.length tail f') ∧
          outcome.summary.verified + outcome.summary.failed + outcome.summary.skipped =
            talks.length ∧
          ∀ talk ∈ talks, talk.final.status.isFinal = true ∧
            (∀ message, talk.final.status = .failed message ↔
              ∃ e, talk.answer = .error e ∧ e.message = message) ∧
            (talk.final.status = .skipped ↔
              (∃ digest, talk.answer = .ok digest) ∧ nonBlank? talk.expected = none) ∧
            (talk.final.status = .verified ↔ ∃ digest text, talk.answer = .ok digest ∧
              nonBlank? talk.expected = some text ∧ digestsMatch digest text = true) ∧
            (talk.final.status = .mismatch ↔ ∃ digest text, talk.answer = .ok digest ∧
              nonBlank? talk.expected = some text ∧ digestsMatch digest text = false))) := by
  -- all that follows is read off the course of the conversation
  have hcourse := workflow_course p hashing hfiles s
  generalize record p hashing files s = t at hcourse hputs ⊢
  generalize (workflow p hashing files s).1 = result at hcourse ⊢
  cases hcourse with
  | nothing empty =>
    subst empty
    exact ⟨_, rfl, rfl, rfl, fun _ => rfl, fun h => absurd rfl h⟩
  | unasked given e => exact absurd (hputs _ List.mem_cons_self) Bool.false_ne_true.symm
  | declined given no =>
    exact ⟨_, rfl, rfl, VerifySummary.ofFiles_eq files, fun h => absurd h given, fun _ =>
      ⟨_, _, rfl, fun _ => ⟨rfl, rfl⟩, fun h => absurd h no⟩⟩
  | @walked given talks left split tail result ends =>
    obtain ⟨status, left', rfl, hnames, hopen, hnone, hsome⟩ := ends.outcome
      (fun f hf => hfiles f (by rw [split]; exact List.mem_append.mpr (.inr hf)))
      (fun x hx => hputs x (List.mem_cons_of_mem _ (List.mem_append.mpr (.inr hx))))
    refine ⟨_, rfl, ?_, VerifySummary.ofFiles_eq _, fun h => absurd h given, fun _ =>
      ⟨_, _, rfl, fun h => absurd rfl h, fun _ => ⟨talks, left, tail, split, rfl, ?_, ?_, ?_, ?_⟩⟩⟩
    · rw [split, WorkflowOutcome.of, List.map_append, List.map_append, hnames, map_name_path_final]
    · intro h
      obtain ⟨hstatus, hleft'⟩ := hnone h
      refine ⟨hstatus, by rw [WorkflowOutcome.of, hleft', List.append_nil], ?_⟩
      rw [split, h, List.append_nil, List.length_map]
    · intro f after h
      obtain ⟨f', hstatus, hleft', hstop⟩ := hsome f after h
      exact ⟨f', hstatus, by rw [WorkflowOutcome.of, hleft'], hstop⟩
    · -- only the files that were talked about are counted
      exact (VerifySummary.total_eq_countP _).trans (countP_isFinal talks hopen)
    · exact fun talk _ => talk.fate

/-- Of six files one has no digest, one has the expected digest, one a wrong one, one is not
compared, at one the user stops, and one is not come to. -/
theorem outcome_of_six_files :
    let file (name : String) (expected : Option String) : CompletedFile :=
      .expecting name ⟨"/in/" ++ name⟩ expected
    let files := [file "a" none, file "b" (some " AB "), file "c" none, file "d" none,
      file "e" none, file "f" none]
    let script : PromptScript :=
      { start := some true
        kinds := [some .md5, some .sha256, some .md5, some .md5, some .sha256]
        expected := [some "cd", some " ", none] }
    let hashing : Hashing PromptScript := fun kind path s =>
      (if path.text = "/in/a" then .error (.unsupportedKind kind.word) else .ok "ab", s)
    (∀ f ∈ files, f.status = .notRequested) ∧
    (∀ x ∈ record scriptedPrompter hashing files script, x.fails = false) ∧
    ∃ outcome, (workflow scriptedPrompter hashing files script).1 = .ok outcome ∧
      outcome.files.map (fun f => (f.name, f.path)) = files.map (fun f => (f.name, f.path)) ∧
      outcome.status = .aborted ∧ outcome.summary = ⟨1, 2, 1⟩ ∧
      outcome.files.map (·.status) = [.failed "unsupported checksum kind: md5", .verified,
        .mismatch, .skipped, .calculated, .notRequested] := by
  intro file files script hashing
  have hfiles : ∀ f ∈ files, f.status = .notRequested := by decide
  have hputs : ∀ x ∈ record scriptedPrompter hashing files script, x.fails = false := by
    decide +kernel
  obtain ⟨outcome, hresult, hnames, -⟩ :=
    outcome_of_verification scriptedPrompter hashing files script hfiles hputs
  -- one computation for the status, the counts and what has become of the files
  have hseen : ((workflow scriptedPrompter hashing files script).1.toOption.map fun o =>
      (o.status, o.summary, o.files.map (·.status))) = some (.aborted, ⟨1, 2, 1⟩,
        [.failed "unsupported checksum kind: md5", .verified, .mismatch, .skipped, .calculated,
          .notRequested]) := by
    decide +kernel
  rw [hresult] at hseen
  simp only [Except.toOption, Option.map_some, Option.some.injEq, Prod.mk.injEq] at hseen
  exact ⟨hfiles, hputs, outcome, hresult, hnames, hseen⟩

end TransferBoard
