import TransferBoard.Proofs.Board.EntryVerdict
import TransferBoard.Proofs.Text.Trimmed
import TransferBoard.Proofs.Verify.FileParts

/-!
# Two verdicts on one file

The digest of a file is compared with the expected one in two places: when the transfer that
makes the file is finished, for the mark of its entry, and when the user has the completed file
verified.  Neither place knows of the other.  They come to the same verdict, on whatever
expected digest; only a missing digest is told in two ways, since an entry has no more than a
mark that is not set, where a file has failed.

## Main definitions

* `VerdictsAgree answer e f` — what an entry and a file say of one answer of a digester agrees.

## Main results

* `verdictsAgree` — two verdicts on one answer and one expected digest agree.
* `entry_and_file_agree` — **the entry of a transfer and the completed file agree.**
* `no_digest_is_no_mismatch` — without a digest the mark is not set, and there is no mismatch.
-/

namespace TransferBoard

/-- What an entry and a file say of one answer of a digester agrees. -/
structure VerdictsAgree (answer : Except DigestError String) (e : Entry) (f : CompletedFile) :
    Prop where
  /-- The entry has an error exactly when the file has failed, with one wording. -/
  failed : ∀ message, e.digestError = some message ↔ f.status = .failed message
  /-- Both have the digest. -/
  digest : ∀ digest, answer = .ok digest → e.digest = some digest ∧ f.digest = some digest
  /-- If a digest was expected, the mark is set exactly when the file is verified. -/
  verified : e.expected ≠ none → (e.verified = true ↔ f.status = .verified)
  /-- If a digest was expected and there is one, the mark is not set exactly when they do not
  match. -/
  mismatch : e.expected ≠ none → ∀ digest, answer = .ok digest →
    (e.verified = false ↔ f.status = .mismatch)
  /-- Without a digest the mark is not set, and the file has failed. -/
  undigested : ∀ cause, answer = .error cause →
    e.verified = false ∧ f.status = .failed cause.message

/-- **Two verdicts on one answer and one expected digest agree.** -/
theorem verdictsAgree {expected : Option String} {answer : Except DigestError String} {e : Entry}
    {f f' : CompletedFile} (he : e.HasVerdict (expected.bind nonBlank?) answer)
    (hf : f.HasVerdict answer f') (hexpected : f.expected = expected.bind nonBlank?) :
    VerdictsAgree answer e f' := by
  -- what is left of the expected digest by trimming is not changed by trimming once more
  have hcompared : ∀ text, e.expected = some text → ∀ matched,
      (f'.status = (if matched then .verified else .mismatch) ↔
        ∃ digest, answer = .ok digest ∧ digestsMatch digest text = matched) := by
    intro text htext
    rw [he.expected] at htext
    obtain ⟨raw, -, hraw⟩ := Option.bind_eq_some_iff.mp htext
    refine hf.compared text ?_
    rw [hexpected, htext, Option.bind_some]
    exact nonBlank?_of_nonBlank? hraw
  have hmark : ∀ text, e.expected = some text →
      (e.verified = true ↔ ∃ digest, answer = .ok digest ∧ digestsMatch digest text = true) := by
    intro text htext
    rw [he.verified, ← he.expected, htext]
    simp
  refine ⟨fun message => ?_, ?_, ?_, ?_, ?_⟩
  · rw [he.digestError, hf.failed]
    cases answer <;> simp [failureMessage?]
  · rintro digest rfl
    exact ⟨he.digest, hf.digest⟩
  · intro hsome
    obtain ⟨text, htext⟩ := Option.ne_none_iff_exists'.mp hsome
    exact (hmark text htext).trans (hcompared text htext true).symm
  · rintro hsome digest rfl
    obtain ⟨text, htext⟩ := Option.ne_none_iff_exists'.mp hsome
    rw [← Bool.not_eq_true, hmark text htext]
    refine Iff.trans ?_ (hcompared text htext false).symm
    simp
  · rintro cause rfl
    refine ⟨?_, (hf.failed _).mpr ⟨cause, rfl, rfl⟩⟩
    rw [← Bool.not_eq_true, he.verified]
    simp

/-- **The entry of a transfer and the completed file agree.**  A transfer is announced with the
kind of its digest, its file and the digest that is expected, in whatever form; it is finished,
and its entry is looked at in the end.  A file is noted with the same path and the same expected
digest, on whatever dashboard, and the user has it verified with the same kind.  Then the two
say the same of the digest, and the user is asked for the expected digest exactly when there is
a digest and the entry has none that is expected. -/
theorem entry_and_file_agree {σ : Type} (p : Prompter σ) (digester : Digester)
    (t : DigestedTransfer) (hu : t.Undisturbed) {e : Entry}
    (hfinds : Dashboard.entry? (t.board digester) t.handle = some e) (surface : Surface)
    (interval : Nat) (past later : List BoardSection) (htear : ∀ sec ∈ later, sec ≠ .teardown)
    (name : String) (s : σ) :
    let noted := ((Dashboard.fresh surface interval).run past).register name t.path t.expected
    let files := (noted.2.run later).state.completed.files
    let exchanges := record p digester.hashing files s
    noted.1 = true →
    ∀ outcome, (runWorkflow p digester files s).1 = .ok outcome →
    ∀ (g : CompletedFile) index total, g.path = t.path →
      .chooseKind g index total (.ok (some t.kind)) ∈ exchanges →
    ∃ (i : Nat) (f : CompletedFile), files[i]? = some (.expecting name t.path t.expected) ∧
      outcome.files[i]? = some f ∧ f.path = t.path ∧
      VerdictsAgree (digester t.kind t.path) e f ∧
      ((∃ g' reply, .expectedDigest g' reply ∈ exchanges ∧ g'.path = t.path) ↔
        (digester t.kind t.path).isOk = true ∧ e.expected = none) := by
  intro noted files exchanges hnew outcome hresult g index total hpath hchosen
  -- all sections in one run, for what is known of every reached dashboard
  have hrun : noted.2.run later = (Dashboard.fresh surface interval).run
      (past ++ .register name t.path t.expected :: later) := by
    rw [Dashboard.run_append, Dashboard.run_cons]
    rfl
  have hmem : CompletedFile.expecting name t.path t.expected ∈ files :=
    Dashboard.noted_run (CompletedFiles.mem_register_self hnew) htear
  have hfiles : ∀ f ∈ files, f.status = .notRequested := by
    simp only [files, hrun]
    exact Dashboard.notRequested_run surface interval _
  have hdistinct : CompletedFiles.Distinct ⟨files⟩ := by
    simp only [files, hrun]
    exact Dashboard.distinct_run surface interval _
  obtain ⟨i, hi⟩ := List.mem_iff_getElem?.mp hmem
  obtain ⟨f, hf, hverdict, hasked⟩ :=
    verdict_of_chosen p digester hfiles hdistinct hresult hi hpath hchosen
  -- both verdicts are told from one answer of the digester
  have hentry := t.verdict hu digester hfinds
  refine ⟨i, f, hi, hf, hverdict.path, verdictsAgree hentry hverdict rfl, hasked.trans ?_⟩
  rw [hentry.expected]
  rfl

/-- The expected digest is told in capitals and with blanks around it: the mark is set, and the
file is verified. -/
theorem padded_capitals_are_verified :
    let digester : Digester := fun _ _ => .ok "ab12"
    let t : DigestedTransfer :=
      { surface := .new 80 24, interval := 0, past := [], name := "a", initial := 0, total := 4
        kind := .md5, path := ⟨"a"⟩, expected := some " AB12 ", announced := 0, between := []
        finished := 1, meanwhile := [.redraw false 2], later := [] }
    let noted := ((Dashboard.fresh (.new 80 24) 0).run []).register "a" t.path t.expected
    let files := (noted.2.run []).state.completed.files
    let script : PromptScript := { start := some true, kinds := [some .md5] }
    t.Undisturbed ∧ noted.1 = true ∧
    ∃ e outcome f, Dashboard.entry? (t.board digester) t.handle = some e ∧
      (runWorkflow scriptedPrompter digester files script).1 = .ok outcome ∧
      .chooseKind (.expecting "a" ⟨"a"⟩ (some " AB12 ")) 0 1 (.ok (some .md5)) ∈
        record scriptedPrompter digester.hashing files script ∧
      outcome.files = [f] ∧ VerdictsAgree (.ok "ab12") e f ∧
      e.verified = true ∧ f.status = .verified := by
  intro digester t noted files script
  have hu : t.Undisturbed := by unfold DigestedTransfer.Undisturbed; decide +kernel
  have hnew : noted.1 = true := by decide +kernel
  obtain ⟨e, hfinds⟩ : ∃ e, Dashboard.entry? (t.board digester) t.handle = some e :=
    Option.isSome_iff_exists.mp (by decide +kernel)
  obtain ⟨f, hresult⟩ : ∃ f, (runWorkflow scriptedPrompter digester files script).1 =
      .ok (.of .completed [f]) := ⟨_, rfl⟩
  have hchosen : .chooseKind (.expecting "a" ⟨"a"⟩ (some " AB12 ")) 0 1 (.ok (some .md5)) ∈
      record scriptedPrompter digester.hashing files script :=
    List.mem_of_getElem? (i := 1) rfl
  obtain ⟨i, f', -, hf', -, hagree, -⟩ := entry_and_file_agree scriptedPrompter digester t hu hfinds
    (.new 80 24) 0 [] [] (by simp) "a" script hnew _ hresult _ _ _ rfl hchosen
  obtain rfl : f' = f := List.mem_singleton.mp (List.mem_of_getElem? hf')
  -- the mark of the entry is computed, the status of the file follows
  have hmark : ((Dashboard.entry? (t.board digester) t.handle).map fun e =>
      (e.expected, e.verified)) = some (some "AB12", true) := by decide +kernel
  rw [hfinds] at hmark
  obtain ⟨hexpected, hverified⟩ := Prod.mk.inj (Option.some.inj hmark)
  have hsome : e.expected ≠ none := by simp [hexpected]
  exact ⟨hu, hnew, e, _, f', hfinds, hresult, hchosen, rfl, hagree, hverified,
    (hagree.verified hsome).mp hverified⟩

/-- The file is not there when its digest is to be calculated: the mark is not set, but the file
has failed, and there is no mismatch. -/
theorem no_digest_is_no_mismatch :
    let digester : Digester := fun _ path => .error (.open path (.other "not found"))
    let t : DigestedTransfer :=
      { surface := .new 80 24, interval := 0, past := [], name := "a", initial := 0, total := 4
        kind := .md5, path := ⟨"a"⟩, expected := some "ab12", announced := 0, between := []
        finished := 1, meanwhile := [], later := [] }
    let noted := ((Dashboard.fresh (.new 80 24) 0).run []).register "a" t.path t.expected
    let files := noted.2.state.completed.files
    let script : PromptScript := { start := some true, kinds := [some .md5] }
    t.Undisturbed ∧ noted.1 = true ∧
    ∃ e outcome f, Dashboard.entry? (t.board digester) t.handle = some e ∧
      (runWorkflow scriptedPrompter digester files script).1 = .ok outcome ∧
      .chooseKind (.expecting "a" ⟨"a"⟩ (some "ab12")) 0 1 (.ok (some .md5)) ∈
        record scriptedPrompter digester.hashing files script ∧
      outcome.files = [f] ∧ e.expected = some "ab12" ∧ e.verified = false ∧
      f.status = .failed "open a: not found" ∧
      ¬ (e.verified = false ↔ f.status = .mismatch) := by
  intro digester t noted files script
  obtain ⟨e, hfinds⟩ : ∃ e, Dashboard.entry? (t.board digester) t.handle = some e :=
    Option.isSome_iff_exists.mp (by decide +kernel)
  -- the entry has no mark, and the file has failed for another reason
  have hmark : ((Dashboard.entry? (t.board digester) t.handle).map fun e =>
      (e.expected, e.verified)) = some (some "ab12", false) := by decide +kernel
  rw [hfinds] at hmark
  obtain ⟨hexpected, hunmarked⟩ := Prod.mk.inj (Option.some.inj hmark)
  refine ⟨by unfold DigestedTransfer.Undisturbed; decide +kernel, by decide +kernel, e,
    .of .completed [_], _, hfinds, rfl, List.mem_of_getElem? (i := 1) rfl, rfl, hexpected,
    hunmarked, by decide +kernel, fun hiff => ?_⟩
  exact absurd (hiff.mp hunmarked) (by decide +kernel)

end TransferBoard
