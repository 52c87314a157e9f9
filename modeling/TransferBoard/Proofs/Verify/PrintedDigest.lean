import TransferBoard.Proofs.Copy.Verdict
import TransferBoard.Proofs.Digest.Retyped
import TransferBoard.Proofs.Verify.FileParts

/-!
# A printed digest verifies the copy

The digest of a file is printed, and typed again as the one that a copy of the file should have:
perhaps in capitals, and with blanks around it.  Its length tells its kind, the copy has the
bytes of the file, and their digest matches what was typed, for the entry on the dashboard and
for whoever has the copy verified later.

## Main definitions

* `FoundVerified files digester kind p` — whoever has the files verified finds the file at a path
  verified.
* `CopyVerified` — what a complete copy leaves when the digest of its source was expected.

## Main results

* `foundVerified_of_noted` — a file is found verified that is noted with the digest it has.
* `copyVerified` — every complete copy leaves that.
* `printed_digest_verifies_the_copy` — **a digest that was printed verifies the copy.**
-/

namespace TransferBoard

/-- Whoever has the files verified, and picks the kind for the file at the path, finds it
verified and is not asked for its digest, if every question and message can be put. -/
def FoundVerified (files : List CompletedFile) (digester : Digester) (kind : DigestKind)
    (p : Path) : Prop :=
  ∀ (σ : Type) (prompter : Prompter σ) (s : σ),
    let exchanges := record prompter digester.hashing files s
    (∀ x ∈ exchanges, x.fails = false) →
    ∀ (g : CompletedFile) index total, g.path = p →
      .chooseKind g index total (.ok (some kind)) ∈ exchanges →
      (∃ outcome, (runWorkflow prompter digester files s).1 = .ok outcome ∧
        ∃ f ∈ outcome.files, f.path = p ∧ f.status = .verified) ∧
      ∀ g' reply, .expectedDigest g' reply ∈ exchanges → g'.path ≠ p

/-- **A file is found verified that is noted with the digest it has.** -/
theorem foundVerified_of_noted {files : List CompletedFile}
    (hfiles : ∀ f ∈ files, f.status = .notRequested)
    (hdistinct : CompletedFiles.Distinct ⟨files⟩) {f : CompletedFile} (hf : f ∈ files)
    {digester : Digester} {kind : DigestKind} {digest text : String}
    (hanswer : digester kind f.path = .ok digest)
    (hexpected : f.expected.bind nonBlank? = some text)
    (hmatch : digestsMatch digest text = true) : FoundVerified files digester kind f.path := by
  intro σ prompter s exchanges hputs g index total hpath hchosen
  obtain ⟨outcome, hresult⟩ :=
    (workflow_course prompter digester.hashing hfiles s).exists_ok hputs
  obtain ⟨i, hi⟩ := List.mem_iff_getElem?.mp hf
  obtain ⟨f', hf', hverdict, hasked⟩ :=
    verdict_of_chosen prompter digester hfiles hdistinct hresult hi hpath hchosen
  constructor
  · refine ⟨outcome, hresult, f', List.mem_of_getElem? hf', hverdict.path, ?_⟩
    exact (hverdict.compared text hexpected true).mpr ⟨digest, hanswer, hmatch⟩
  · -- the expected digest is known, so nobody is asked for it
    intro g' reply hx hpath'
    obtain ⟨-, hnone⟩ := hasked.mp ⟨g', reply, hx, hpath'⟩
    rw [hnone] at hexpected
    cases hexpected

/-- What a complete copy leaves at a path, when the digest of what it has copied was expected. -/
structure CopyVerified (job : CopyJob) (kind : DigestKind) (tools : CopyTools)
    (moves : List CopyMove) (w : Workshop) (p : Path) : Prop where
  /-- The copy has been given a handle. -/
  given : ∃ h, job.Given tools moves w h
  /-- Its entry is marked, if it is held still, as long as nobody else tells its file or stores
  its digest. -/
  marked : ∀ h, job.Given tools moves w h →
    (∀ move ∈ moves, move.MadeOf (BoardSection.leavesVerdict h)) →
    ∀ e, Dashboard.entry? (job.copyDuring tools moves w).2.board h = some e → e.verified = true
  /-- Its file is found verified with the kind, as long as nobody else notes a file for its
  place, and what is there stays. -/
  found : w.board.state.completed.contains p = false →
    (∀ move ∈ moves, move.MadeOf (BoardSection.leavesNoted p)) →
    ∀ afterwards, (∀ sec ∈ afterwards, sec ≠ .teardown) →
    ∀ later : Disk, later.at? p = (job.copyDuring tools moves w).2.disk.at? p →
      FoundVerified
        ((job.copyDuring tools moves w).2.board.run afterwards).state.completed.files
        later.digest kind p

/-- **A complete copy is verified when the digest of its source was expected.** -/
theorem copyVerified {job : CopyJob} {tools : CopyTools} {moves : List CopyMove} {w : Workshop}
    {kind : DigestKind} {bytes : Bytes} {text : String} {p : Path}
    (hend : (job.copyDuring tools moves w).1 = some (.ok (.completed p)))
    (hdigester : tools.digester = Disk.digest)
    (hpast : ∃ surface interval earlier, w.board = (Dashboard.fresh surface interval).run earlier)
    (hkind : job.kind = some kind) (hbytes : w.disk.bytesAt? job.source = some bytes)
    (hexpected : job.expected.bind nonBlank? = some text)
    (hmatch : digestsMatch (hexText (kind.ofBytes bytes)) text = true) :
    CopyVerified job kind tools moves w p where
  given := CopyJob.exists_given hend
  marked h hgiven hmoves e hfinds := by
    have hverdict := copy_has_verdict hdigester hpast hkind hbytes hend hgiven hmoves hfinds
    exact hverdict.verified.mpr ⟨_, text, rfl, hexpected, hmatch⟩
  found hnew hmoves afterwards htear later hlater := by
    obtain ⟨plan, hplan, rfl, hrun, bytes', hbytes', hthere⟩ := CopyJob.run_of_completed hend
    obtain ⟨hp, rfl, -⟩ := CopyPlan.proper_of_plan? hplan
    have hnoted := CopyPlan.notes_run hmoves tools (c := (.opening, w))
      ⟨fun hlanded => (nomatch hlanded), fun _ => hnew⟩
    rw [hrun] at hnoted
    have hmem := Dashboard.noted_run (hnoted.landed rfl) htear
    obtain ⟨surface, interval, sections, hboard⟩ : ∃ surface interval sections,
        (plan.job.copyDuring tools moves w).2.board.run afterwards =
          (Dashboard.fresh surface interval).run sections := by
      obtain ⟨surface, interval, earlier, hboard⟩ := hpast
      obtain ⟨sections, hsections⟩ := CopyPlan.board_run hmoves plan tools (.opening, w)
      rw [hrun] at hsections
      refine ⟨surface, interval, earlier ++ sections ++ afterwards, ?_⟩
      rw [Dashboard.run_append, Dashboard.run_append, ← hboard, ← hsections]
    -- what is there has the bytes of the source, so it has their digest
    obtain rfl := Option.some.inj (hbytes.symm.trans hbytes')
    have hanswer : later.digest kind plan.record.path = .ok (hexText (kind.ofBytes bytes)) :=
      Disk.digest_of_file (hlater.trans hthere) kind
    have hwanted : plan.record.expected.bind nonBlank? = some text := by
      obtain ⟨raw, -, hraw⟩ := Option.bind_eq_some_iff.mp hexpected
      rw [CopyPlan.record, CompletedFile.expecting, hexpected, Option.bind_some]
      exact nonBlank?_of_nonBlank? hraw
    rw [hboard] at hmem ⊢
    exact foundVerified_of_noted (Dashboard.notRequested_run surface interval sections)
      (Dashboard.distinct_run surface interval sections) hmem hanswer hwanted hmatch

/-- **A digest that was printed verifies the copy.**  The digest of a file is typed again, with
letters in any case and with blanks around it.  A request for the file with that and no kind is
one job, with the kind of the digest.  If the file is as it was, its copy is complete when it is
left alone and nothing is in the way of it, and whenever it is complete, it is verified. -/
theorem printed_digest_verifies_the_copy {d : Disk} {source : Path} {bytes : Bytes}
    (hfile : d.at? source = some (.file bytes)) (kind : DigestKind) :
    ∃ printed, d.digest kind source = .ok printed ∧ ∀ typed, RetypedAs printed typed →
    ∀ (request : CopyRequest) (config : Config), request.sources = [source] →
      request.expect = [typed] → request.kind = none → config.defaultDigest = none →
    ∃ job, request.jobs config = .ok [job] ∧ job.source = source ∧ job.destDir = request.dest ∧
      job.kind = some kind ∧ job.expected = some (trimBlank typed) ∧
    ∀ (tools : CopyTools) (w : Workshop), tools.digester = Disk.digest →
      w.disk.at? source = d.at? source →
      (∃ surface interval past, w.board = (Dashboard.fresh surface interval).run past) →
      (∀ p now, job.destination? = some p → (w.disk.createFile (tempPath p)).isOk = true →
        w.disk.at? p ≠ some .dir → w.board.flow? = some .go →
        (copyFile job tools now w).1 = some (.ok (.completed p)) ∧
          ∃ k, copyFile job tools now w =
            job.copyDuring tools (List.replicate k (.own { now := now })) w) ∧
      ∀ moves p, (job.copyDuring tools moves w).1 = some (.ok (.completed p)) →
        CopyVerified job kind tools moves w p := by
  refine ⟨_, Disk.digest_of_file hfile kind, ?_⟩
  intro typed htyped request config hsources hexpect hasked hset
  refine ⟨_, htyped.jobs_eq hsources hexpect hasked hset, rfl, rfl, rfl, rfl, ?_⟩
  intro tools w hdigester hsame hpast
  have hfile' : w.disk.at? source = some (.file bytes) := hsame.trans hfile
  -- what was retyped is trimmed once for the job and once more for the entry
  have hexpected : (some (trimBlank typed)).bind nonBlank? = some (trimBlank typed) := by
    have htrimmed := htyped.nonBlank?_eq
    rw [Option.bind_some]
    exact nonBlank?_of_nonBlank? htrimmed
  have hmatch := htyped.digestsMatch
  have hbytes : w.disk.bytesAt? source = some bytes := by rw [Disk.bytesAt?, hfile']; rfl
  constructor
  · intro p now hdest htemp hfree hflow
    exact ⟨copyFile_completes hdest hfile' htemp hfree hflow tools now,
      copyFile_eq_copyDuring _ tools now w⟩
  · intro moves p hend
    exact copyVerified hend hdigester hpast rfl hbytes hexpected hmatch

/-- A digest is typed in capitals, after a wide blank and before the end of a line: the copy of the
file is complete, its entry is marked, and it is found verified. -/
theorem typed_digest_verifies_a_copy :
    let d : Disk := ⟨[(["in"], .dir), (["in", "a"], .file #[1, 2, 3]), (["out"], .dir)]⟩
    let request : CopyRequest :=
      { sources := [⟨"in/a"⟩], dest := ⟨"out"⟩
        expect := ["\u2003 5289DF737DF57326FCDD22597AFB1FAC\n"] }
    let tools : CopyTools := { bufferBytes := 2 }
    let w : Workshop := ⟨Dashboard.fresh (.new 80 24) 0, d⟩
    ∃ job, request.jobs {} = .ok [job] ∧ job.kind = some .md5 ∧
    ∃ moves, copyFile job tools 0 w = job.copyDuring tools moves w ∧
      (job.copyDuring tools moves w).1 = some (.ok (.completed ⟨"out/a"⟩)) ∧
      (∃ h, job.Given tools moves w h ∧
        ∀ e, Dashboard.entry? (job.copyDuring tools moves w).2.board h = some e →
          e.verified = true) ∧
      FoundVerified (job.copyDuring tools moves w).2.board.state.completed.files
        (job.copyDuring tools moves w).2.disk.digest .md5 ⟨"out/a"⟩ := by
  intro d request tools w
  have hfile : d.at? ⟨"in/a"⟩ = some (.file #[1, 2, 3]) := by decide +kernel
  obtain ⟨printed, hprinted, hverifies⟩ := printed_digest_verifies_the_copy hfile .md5
  have hdigits : (d.digest .md5 ⟨"in/a"⟩).toOption = some "5289df737df57326fcdd22597afb1fac" := by
    decide +kernel
  rw [hprinted] at hdigits
  -- the digest is computed once, and typed in capitals with blanks around it
  obtain rfl : printed = "5289df737df57326fcdd22597afb1fac" := Option.some.inj hdigits
  have htyped : RetypedAs "5289df737df57326fcdd22597afb1fac"
      "\u2003 5289DF737DF57326FCDD22597AFB1FAC\n" := by
    refine ⟨"\u2003 ", "5289DF737DF57326FCDD22597AFB1FAC", "\n", ?_, ?_, ?_, ?_⟩
    · decide +kernel
    · exact List.all_eq_true.mp (by decide +kernel)
    · exact List.all_eq_true.mp (by decide +kernel)
    · unfold SameLetter
      decide +kernel
  obtain ⟨job, hjobs, hsource, hdest, hkind, -, hcopies⟩ :=
    hverifies _ htyped request {} rfl rfl rfl rfl
  obtain ⟨hcompletes, hcomplete⟩ := hcopies tools w rfl rfl ⟨.new 80 24, 0, [], rfl⟩
  have hplace : job.destination? = some ⟨"out/a"⟩ := by
    rw [CopyJob.destination?, hsource, hdest]
    decide +kernel
  obtain ⟨hend, k, hcourse⟩ := hcompletes ⟨"out/a"⟩ 0 hplace (by decide +kernel)
    (by decide +kernel) (by decide +kernel)
  rw [hcourse] at hend
  -- nobody interferes with the copy
  have hown : ∀ allowed, ∀ move ∈ List.replicate k (CopyMove.own { now := 0 }),
      move.MadeOf allowed := by
    intro allowed move hmove
    rw [List.eq_of_mem_replicate hmove]
    trivial
  have hverified := hcomplete _ _ hend
  obtain ⟨h, hgiven⟩ := hverified.given
  exact ⟨job, hjobs, hkind, _, hcourse, hend, ⟨h, hgiven, hverified.marked h hgiven (hown _)⟩,
    hverified.found rfl (hown _) [] (by simp) _ rfl⟩

end TransferBoard
