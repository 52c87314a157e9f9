import TransferBoard.Proofs.Verify.FileTalk

/-!
# The course of a verification

A verification begins with one question.  Then it walks over the files: those it has told
of, the file at which it was cut short, if any, and the files it did not come to.

## Main definitions

* `told` — the exchanges about files whose verifications came to their ends.
* `WalkEnd` — how a walk ends after some files were told of: the files that are left, the
  last exchanges and the result.
* `Course` — the courses of a whole conversation: its exchanges and its result.

## Main results

* `verifyFiles_spec` — how a walk over files goes.
* `workflow_course` — every conversation takes such a course.
-/

namespace TransferBoard

/-- The exchanges about files whose verifications came to their ends.  The first of them has
the given number. -/
def told (total : Nat) : Nat → List FileTalk → List Exchange
  | _, [] => []
  | index, talk :: talks =>
    talk.exchanges index total ++ .report talk.final (.ok ()) :: told total (index + 1) talks

/-- How a walk over files ends when it has told of some: the files that are left, the
exchanges after those told of, and the result. -/
inductive WalkEnd (total : Nat) (talks : List FileTalk) :
    List CompletedFile → List Exchange → Except WorkflowError WorkflowOutcome → Prop where
  /-- No file is left, and the counts are shown. -/
  | whole :
    WalkEnd total talks [] [.summary (.ofFiles (talks.map (·.final))) (.ok ())]
      (.ok (.of .completed (talks.map (·.final))))
  /-- No file is left, and the counts cannot be shown. -/
  | uncounted (e : OsError) :
    WalkEnd total talks [] [.summary (.ofFiles (talks.map (·.final))) (.error e)]
      (.error (.prompt e))
  /-- The user stops at a file. -/
  | stopped {f f' : CompletedFile} {after : List CompletedFile} {tail : List Exchange}
    (cut : CutShort f talks.length total tail (.ok f')) :
    WalkEnd total talks (f :: after) tail
      (.ok (.of .aborted (talks.map (·.final) ++ f' :: after)))
  /-- A question or a message about a file cannot be put. -/
  | broken {f : CompletedFile} {after : List CompletedFile} {tail : List Exchange} {e : OsError}
    (cut : CutShort f talks.length total tail (.error e)) :
    WalkEnd total talks (f :: after) tail (.error (.prompt e))

/-- The courses that a verification of some files can take: its exchanges and its result. -/
inductive Course (files : List CompletedFile) :
    List Exchange → Except WorkflowError WorkflowOutcome → Prop where
  /-- There is nothing to ask. -/
  | nothing (empty : files = []) : Course files [] (.ok (.of .completed []))
  /-- The first question cannot be put. -/
  | unasked (given : files ≠ []) (e : OsError) :
    Course files [.confirmStart files.length (.error e)] (.error (.prompt e))
  /-- The user does not want it. -/
  | declined (given : files ≠ []) {answer : Option Bool} (no : answer ≠ some true) :
    Course files [.confirmStart files.length (.ok answer)] (.ok (.of .declined files))
  /-- The walk over the files begins. -/
  | walked (given : files ≠ []) {talks : List FileTalk} {left : List CompletedFile}
    (split : files = talks.map (·.file) ++ left) {tail : List Exchange}
    {result : Except WorkflowError WorkflowOutcome}
    (ends : WalkEnd files.length talks left tail result) :
    Course files
      (.confirmStart files.length (.ok (some true)) :: (told files.length 0 talks ++ tail)) result

section

variable {σ : Type} (p : Prompter σ) (hashing : Hashing σ)

/-- The walk over the files `rest`, when `earlier` have been told of: some more are told of,
and the walk ends. -/
def Walks (total : Nat) (earlier : List FileTalk) (rest : List CompletedFile) (s : σ)
    (past : List Exchange) : Prop :=
  ∃ talks left tail result s', rest = talks.map (·.file) ++ left ∧
    WalkEnd total (earlier ++ talks) left tail result ∧
    verifyFiles p.noting hashing.noting total (earlier.map (·.final)).reverse rest (s, past) =
      (result, (s', past ++ (told total earlier.length talks ++ tail)))

variable {p} {hashing} {total : Nat} {earlier : List FileTalk} {rest : List CompletedFile} {s : σ}
  {past : List Exchange}

/-- The walk ends here. -/
theorem Walks.here (s' : σ) {tail : List Exchange} {result : Except WorkflowError WorkflowOutcome}
    (hend : WalkEnd total earlier rest tail result)
    (hwalk : verifyFiles p.noting hashing.noting total (earlier.map (·.final)).reverse rest
      (s, past) = (result, (s', past ++ tail))) :
    Walks p hashing total earlier rest s past :=
  ⟨[], rest, tail, result, s', rfl, by rwa [List.append_nil], hwalk⟩

/-- The walk tells of a file, and goes on. -/
theorem Walks.told_of {talk : FileTalk} {s' : σ}
    (hrest : Walks p hashing total (earlier ++ [talk]) rest s'
      (past ++ (talk.exchanges earlier.length total ++ [.report talk.final (.ok ())])))
    (hwalk : verifyFiles p.noting hashing.noting total (earlier.map (·.final)).reverse
        (talk.file :: rest) (s, past) =
      verifyFiles p.noting hashing.noting total ((earlier ++ [talk]).map (·.final)).reverse rest
        (s', past ++ (talk.exchanges earlier.length total ++ [.report talk.final (.ok ())]))) :
    Walks p hashing total earlier (talk.file :: rest) s past := by
  obtain ⟨talks, left, tail, result, s'', rfl, hend, hgoes⟩ := hrest
  refine ⟨talk :: talks, left, tail, result, s'', rfl, by rwa [List.append_cons], ?_⟩
  rw [hwalk, hgoes, told, List.length_append]
  simp only [List.append_assoc, List.cons_append, List.nil_append, List.length_singleton]

theorem verifyFiles_nil (done : List CompletedFile) :
    verifyFiles p.noting hashing.noting total done.reverse [] =
      (ask (noting (.summary (.ofFiles done)) (p.summary (.ofFiles done))) >>= fun _ =>
        pure (.of .completed done)) := by
  rw [verifyFiles, List.reverse_reverse]
  rfl

theorem verifyFiles_cons (p : Prompter σ) (hashing : Hashing σ) (total : Nat)
    (done : List CompletedFile) (f : CompletedFile) (rest : List CompletedFile) :
    verifyFiles p.noting hashing.noting total done.reverse (f :: rest) =
      (ask (noting (.chooseKind f done.length total) (p.chooseKind f done.length total)) >>=
        fun choice =>
          match choice with
          | none => pure (.of .aborted (done ++ f :: rest))
          | some kind => verifyFile p.noting hashing.noting f kind >>= fun verified =>
            if verified.1 then
              ask (noting (.report verified.2) (p.report verified.2)) >>= fun _ =>
                verifyFiles p.noting hashing.noting total (done ++ [verified.2]).reverse rest
            else pure (.of .aborted (done ++ verified.2 :: rest))) := by
  simp only [List.reverse_append, List.reverse_singleton, List.singleton_append]
  rw [verifyFiles, List.reverse_reverse, List.length_reverse]
  rfl

variable (p) (hashing)

/-- **How a walk over files goes** when `earlier` have been told of. -/
theorem verifyFiles_spec (total : Nat) (rest : List CompletedFile)
    (hrest : ∀ f ∈ rest, f.status = .notRequested) (earlier : List FileTalk) (s : σ)
    (past : List Exchange) : Walks p hashing total earlier rest s past := by
  induction rest generalizing earlier s past with
  | nil =>
    cases hsum : p.summary (.ofFiles (earlier.map (·.final))) s with
    | mk r s' =>
    cases r with
    | ok u =>
      refine .here s' .whole ?_
      rw [verifyFiles_nil, bind_talk_ok (ask_noting_ok hsum past)]
      rfl
    | error e =>
      refine .here s' (.uncounted e) ?_
      rw [verifyFiles_nil, bind_talk_error (ask_noting_error hsum past)]
  | cons f rest ih =>
    have hf : f.status = .notRequested := hrest f List.mem_cons_self
    have hwalk := congrFun
      (verifyFiles_cons p hashing total (earlier.map (·.final)) f rest) (s, past)
    rw [List.length_map] at hwalk
    cases hchoice : p.chooseKind f earlier.length total s with
    | mk r s₁ =>
    cases r with
    | error e =>
      rw [bind_talk_error (ask_noting_error hchoice past)] at hwalk
      exact .here s₁ (.broken (.choiceFails e)) hwalk
    | ok choice =>
    rw [bind_talk_ok (ask_noting_ok hchoice past)] at hwalk
    cases choice with
    | none => exact .here s₁ (.stopped .choiceCancelled) hwalk
    | some kind =>
    obtain ⟨s₂, more, ⟨talk, rfl, htalk, hrun⟩ | ⟨f', hcut, hrun⟩ | ⟨e, hcut, hrun⟩⟩ :=
      verifyFile_spec p hashing hf kind earlier.length total s₁
        (past ++ [.chooseKind f earlier.length total (.ok (some kind))])
    · -- the verification of the file comes to its end; what became of it is to be told
      replace hwalk := hwalk.trans (bind_talk_ok hrun _)
      rw [if_pos rfl, List.append_assoc, List.singleton_append, ← htalk] at hwalk
      cases hreport : p.report talk.final s₂ with
      | mk r s₃ =>
      cases r with
      | error e =>
        rw [bind_talk_error (ask_noting_error hreport _), List.append_assoc] at hwalk
        exact .here s₃ (.broken (.reportFails talk rfl e)) hwalk
      | ok u =>
        rw [bind_talk_ok (ask_noting_ok hreport _), List.append_assoc] at hwalk
        refine .told_of (ih (fun g hg => hrest g (List.mem_cons_of_mem _ hg)) _ s₃ _) ?_
        rw [hwalk, List.map_append]
        rfl
    · replace hwalk := hwalk.trans (bind_talk_ok hrun _)
      rw [List.append_assoc] at hwalk
      exact .here s₂ (.stopped hcut) hwalk
    · replace hwalk := hwalk.trans (bind_talk_error hrun _)
      rw [List.append_assoc] at hwalk
      exact .here s₂ (.broken hcut) hwalk

/-- **Every conversation takes one of the courses.** -/
theorem workflow_course {files : List CompletedFile}
    (hfiles : ∀ f ∈ files, f.status = .notRequested) (s : σ) :
    Course files (record p hashing files s) (workflow p hashing files s).1 := by
  have hresult : (workflow p hashing files s).1 =
      (workflow p.noting hashing.noting files (s, [])).1 := by
    rw [workflow_noting]
  rw [hresult, record]
  -- the prompts are followed in their order, and each answer decides how it goes on
  by_cases hnone : files = []
  · subst hnone
    exact .nothing rfl
  generalize hrun : workflow p.noting hashing.noting files (s, []) = out
  rw [workflow, if_neg hnone] at hrun
  change (ask (noting (.confirmStart files.length) (p.confirmStart files.length)) >>= _) (s, []) =
    out at hrun
  cases hstart : p.confirmStart files.length s with
  | mk r s₁ =>
  cases r with
  | error e =>
    rw [bind_talk_error (ask_noting_error hstart [])] at hrun
    subst hrun
    exact .unasked hnone e
  | ok answer =>
  rw [bind_talk_ok (ask_noting_ok hstart [])] at hrun
  cases answer with
  | none =>
    subst hrun
    exact .declined hnone (by simp)
  | some yes =>
  cases yes with
  | false =>
    subst hrun
    exact .declined hnone (by simp)
  | true =>
    -- the user has said yes, and the files are walked
    obtain ⟨talks, left, tail, result, s', hsplit, hend, hwalk⟩ :=
      verifyFiles_spec p hashing files.length files hfiles [] s₁
        [.confirmStart files.length (.ok (some true))]
    replace hwalk : verifyFiles p.noting hashing.noting files.length [] files
      (s₁, [] ++ [.confirmStart files.length (.ok (some true))]) = _ := hwalk
    obtain rfl := hwalk.symm.trans hrun
    exact .walked hnone hsplit hend

end

end TransferBoard
