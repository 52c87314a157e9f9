import TransferBoard.Proofs.Verify.Record

/-!
# What is said about one file

The verification of a file is a short conversation: which digest, it is being calculated,
what it should be, what became of the file.  The conversation is determined by three
answers — the kind chosen, that of the digester and, if the user is asked for it, the
digest to compare with — and so is what becomes of the file.  At each question and each
message it may be cut short.

## Main definitions

* `CompletedFile.chosen`, `answered`, `compared` — a file on its way through a verification.
* `FileTalk` — the answers about a file whose verification came to its end, with its
  exchanges `exchanges` and what becomes of the file, `final`.
* `CutShort` — the exchanges about a file when the conversation ends among them.

## Main results

* `FileTalk.failed_iff`, `skipped_iff`, `verified_iff`, `mismatch_iff` — what becomes of a
  file, by the answers.
* `verifyFile_spec` — what is said about a file is such a conversation, or is cut short.
-/

namespace TransferBoard

/-! ### A file on its way -/

namespace CompletedFile

variable {f : CompletedFile}

/-- The file with a digest of the given kind to calculate. -/
def chosen (f : CompletedFile) (kind : DigestKind) : CompletedFile :=
  { f with status := .calculating, kind := some kind }

/-- The file with the answer of the digester. -/
def answered (f : CompletedFile) (kind : DigestKind) :
    Except DigestError String → CompletedFile
  | .ok digest =>
    { f.chosen kind with status := .calculated, digest := some digest, computed := true }
  | .error e =>
    { f.chosen kind with status := .failed e.message, digest := none, computed := false }

/-- The file with its digest compared with an expected one.  A blank one is not compared
with. -/
def compared (f : CompletedFile) (digest expected : String) : CompletedFile :=
  match nonBlank? expected with
  | none => { f with status := .skipped }
  | some text =>
    { f with
      status := if digestsMatch digest text then .verified else .mismatch
      expected := some text
      verified := digestsMatch digest text }

theorem status_compared (f : CompletedFile) (digest expected : String) :
    (f.compared digest expected).status = match nonBlank? expected with
      | none => .skipped
      | some text => if digestsMatch digest text then .verified else .mismatch := by
  unfold compared
  cases nonBlank? expected <;> simp only

theorem startCalculation_of_notRequested (hf : f.status = .notRequested) (kind : DigestKind) :
    f.startCalculation kind = .ok (f.chosen kind) := by
  rw [startCalculation, hf]
  rfl

theorem recordDigest_chosen (f : CompletedFile) (kind : DigestKind)
    (answer : Except DigestError String) :
    (f.chosen kind).recordDigest answer = .ok (f.answered kind answer) := by
  cases answer <;> rfl

theorem resolve_answered (f : CompletedFile) (kind : DigestKind) (digest expected : String) :
    (f.answered kind (.ok digest)).resolve expected =
      .ok ((f.answered kind (.ok digest)).compared digest expected) := by
  unfold resolve compared
  cases nonBlank? expected <;> rfl

end CompletedFile

/-! ### A conversation about one file -/

/-- The answers about a file whose verification came to its end. -/
structure FileTalk where
  /-- The file before. -/
  file : CompletedFile
  /-- The kind of digest that was chosen. -/
  kind : DigestKind
  /-- The answer of the digester. -/
  answer : Except DigestError String
  /-- What the user typed when asked for the expected digest. -/
  typed : Option String
  /-- Nobody had asked for the verification. -/
  notRequested : file.status = .notRequested
  /-- The user is asked exactly when there is a digest and nothing to compare it with. -/
  typed_iff : typed.isSome = true ↔ answer.isOk = true ∧ file.expected = none

namespace FileTalk

/-- What the digest is compared with: what was expected beforehand, or what was typed. -/
def expected (talk : FileTalk) : String := (talk.file.expected.or talk.typed).getD ""

/-- What becomes of the file. -/
def final (talk : FileTalk) : CompletedFile :=
  match talk.answer with
  | .ok digest => (talk.file.answered talk.kind talk.answer).compared digest talk.expected
  | .error _ => talk.file.answered talk.kind talk.answer

/-- The exchanges about the file, which has the given number among so many, before what
became of it is told. -/
def exchanges (talk : FileTalk) (index total : Nat) : List Exchange :=
  [.chooseKind talk.file index total (.ok (some talk.kind)),
   .calculating (talk.file.chosen talk.kind) talk.kind (.ok ()),
   .digest talk.kind talk.file.path talk.answer] ++
  talk.typed.toList.map fun text =>
    .expectedDigest (talk.file.answered talk.kind talk.answer) (.ok (some text))

variable {talk : FileTalk}

theorem final_of_error {e : DigestError} (h : talk.answer = .error e) :
    talk.final = talk.file.answered talk.kind (.error e) := by
  rw [final, h]

theorem final_of_ok {digest : String} (h : talk.answer = .ok digest) :
    talk.final = (talk.file.answered talk.kind (.ok digest)).compared digest talk.expected := by
  rw [final, h]

theorem status_of_ok {digest : String} (h : talk.answer = .ok digest) :
    talk.final.status = (match nonBlank? talk.expected with
      | none => .skipped
      | some text => if digestsMatch digest text then .verified else .mismatch) := by
  rw [final_of_ok h, CompletedFile.status_compared]

/-- The file is where no step leads on. -/
theorem isFinal (talk : FileTalk) : talk.final.status.isFinal = true := by
  cases h : talk.answer with
  | error e => rw [final_of_error h]; rfl
  | ok digest =>
    rw [status_of_ok h]
    cases nonBlank? talk.expected with
    | none => rfl
    | some text => cases hm : digestsMatch digest text <;> simp [hm, VerifyStatus.isFinal]

/-- **A file has failed when there is no digest of the kind chosen.** -/
theorem failed_iff (talk : FileTalk) (message : String) :
    talk.final.status = .failed message ↔ ∃ e, talk.answer = .error e ∧ e.message = message := by
  cases h : talk.answer with
  | error e =>
    rw [final_of_error h]
    simp [CompletedFile.answered]
  | ok digest =>
    rw [status_of_ok h]
    cases nonBlank? talk.expected with
    | none => simp
    | some text => cases hm : digestsMatch digest text <;> simp [hm]

/-- A digest is not compared with a blank one. -/
theorem skipped_iff (talk : FileTalk) :
    talk.final.status = .skipped ↔
      (∃ digest, talk.answer = .ok digest) ∧ nonBlank? talk.expected = none := by
  cases h : talk.answer with
  | error e =>
    rw [final_of_error h]
    simp [CompletedFile.answered]
  | ok digest =>
    rw [status_of_ok h]
    cases nonBlank? talk.expected with
    | none => simp
    | some text => cases hm : digestsMatch digest text <;> simp [hm]

/-- A digest that is compared is the expected one or not. -/
theorem compared_iff (talk : FileTalk) (matched : Bool) :
    talk.final.status = (if matched then .verified else .mismatch) ↔
      ∃ digest text, talk.answer = .ok digest ∧ nonBlank? talk.expected = some text ∧
        digestsMatch digest text = matched := by
  cases h : talk.answer with
  | error e =>
    rw [final_of_error h]
    cases matched <;> simp [CompletedFile.answered]
  | ok digest =>
    rw [status_of_ok h]
    cases nonBlank? talk.expected with
    | none => cases matched <;> simp
    | some text => cases matched <;> cases hm : digestsMatch digest text <;> simp [hm]

theorem verified_iff (talk : FileTalk) :
    talk.final.status = .verified ↔
      ∃ digest text, talk.answer = .ok digest ∧ nonBlank? talk.expected = some text ∧
        digestsMatch digest text = true :=
  talk.compared_iff true

theorem mismatch_iff (talk : FileTalk) :
    talk.final.status = .mismatch ↔
      ∃ digest text, talk.answer = .ok digest ∧ nonBlank? talk.expected = some text ∧
        digestsMatch digest text = false :=
  talk.compared_iff false

/-- The file has its name and its path still. -/
theorem name_path_final (talk : FileTalk) :
    talk.final.name = talk.file.name ∧ talk.final.path = talk.file.path := by
  cases h : talk.answer with
  | error e => rw [final_of_error h]; exact ⟨rfl, rfl⟩
  | ok digest =>
    rw [final_of_ok h, CompletedFile.compared]
    cases nonBlank? talk.expected <;> exact ⟨rfl, rfl⟩

end FileTalk

/-- The exchanges about a file when the conversation ends among them, with the file as it is
left then, or with the reason why a question or message could not be put. -/
inductive CutShort (f : CompletedFile) (index total : Nat) :
    List Exchange → Except OsError CompletedFile → Prop where
  /-- The kind cannot be asked for. -/
  | choiceFails (e : OsError) :
    CutShort f index total [.chooseKind f index total (.error e)] (.error e)
  /-- The user does not choose a kind. -/
  | choiceCancelled : CutShort f index total [.chooseKind f index total (.ok none)] (.ok f)
  /-- It cannot be shown that the digest is being calculated. -/
  | calculatingFails (kind : DigestKind) (e : OsError) :
    CutShort f index total
      [.chooseKind f index total (.ok (some kind)), .calculating (f.chosen kind) kind (.error e)]
      (.error e)
  /-- The expected digest cannot be asked for. -/
  | expectedFails (kind : DigestKind) (digest : String) (unknown : f.expected = none)
    (e : OsError) :
    CutShort f index total
      [.chooseKind f index total (.ok (some kind)), .calculating (f.chosen kind) kind (.ok ()),
       .digest kind f.path (.ok digest), .expectedDigest (f.answered kind (.ok digest)) (.error e)]
      (.error e)
  /-- The user does not tell the expected digest. -/
  | expectedCancelled (kind : DigestKind) (digest : String) (unknown : f.expected = none) :
    CutShort f index total
      [.chooseKind f index total (.ok (some kind)), .calculating (f.chosen kind) kind (.ok ()),
       .digest kind f.path (.ok digest), .expectedDigest (f.answered kind (.ok digest)) (.ok none)]
      (.ok (f.answered kind (.ok digest)))
  /-- What became of the file cannot be told. -/
  | reportFails (talk : FileTalk) (about : talk.file = f) (e : OsError) :
    CutShort f index total (talk.exchanges index total ++ [.report talk.final (.error e)]) (.error e)

/-! ### Verifying one file -/

section

variable {σ α : Type}

theorem take_ok {a : α} (s : σ) : (take (.ok a) : Talk σ α) s = (.ok a, s) := rfl

theorem ask_noting_ok {exchange : Except OsError α → Exchange} {question : Asked σ α} {s s' : σ}
    {a : α} (h : question s = (.ok a, s')) (past : List Exchange) :
    ask (noting exchange question) (s, past) = (.ok a, (s', past ++ [exchange (.ok a)])) :=
  ask_of_ok (by simp only [noting, h])

theorem ask_noting_error {exchange : Except OsError α → Exchange} {question : Asked σ α} {s s' : σ}
    {e : OsError} (h : question s = (.error e, s')) (past : List Exchange) :
    ask (noting exchange question) (s, past) =
      (.error (.prompt e), (s', past ++ [exchange (.error e)])) :=
  ask_of_error (by simp only [noting, h])

theorem hash_noting {hashing : Hashing σ} {kind : DigestKind} {path : Path} {s s' : σ}
    {answer : Except DigestError String} (h : hashing kind path s = (answer, s'))
    (past : List Exchange) :
    hash hashing.noting kind path (s, past) =
      (.ok answer, (s', past ++ [.digest kind path answer])) := by
  simp only [hash, ExceptT.mk, Hashing.noting, h]

variable (p : Prompter σ) (hashing : Hashing σ)

/-- The end of a verification: the digest is compared with the expected one, which is asked
for if need be. -/
def comparing (f : CompletedFile) : Talk σ (Bool × CompletedFile) :=
  expectedAnswer p f >>= fun expected =>
    match expected with
    | none => pure (false, f)
    | some text => take (f.resolve text) >>= fun f => pure (true, f)

variable {p} {hashing} {f : CompletedFile} {kind : DigestKind} {s s₁ s₂ : σ}

theorem verifyFile_unshown (hf : f.status = .notRequested) {e : OsError}
    (hcalc : p.calculating (f.chosen kind) kind s = (.error e, s₁)) (past : List Exchange) :
    verifyFile p.noting hashing.noting f kind (s, past) =
      (.error (.prompt e), (s₁, past ++ [.calculating (f.chosen kind) kind (.error e)])) := by
  unfold verifyFile
  rw [CompletedFile.startCalculation_of_notRequested hf, bind_talk_ok (take_ok _)]
  exact bind_talk_error (ask_noting_error hcalc past) _

theorem verifyFile_hashed (hf : f.status = .notRequested)
    (hcalc : p.calculating (f.chosen kind) kind s = (.ok (), s₁))
    {answer : Except DigestError String} (hdigest : hashing kind f.path s₁ = (answer, s₂))
    (past : List Exchange) :
    verifyFile p.noting hashing.noting f kind (s, past) =
      (if answer.isOk then comparing p.noting (f.answered kind answer)
       else pure (true, f.answered kind answer))
      (s₂, past ++ [.calculating (f.chosen kind) kind (.ok ()), .digest kind f.path answer]) := by
  unfold verifyFile
  rw [CompletedFile.startCalculation_of_notRequested hf, bind_talk_ok (take_ok _)]
  refine (bind_talk_ok (ask_noting_ok hcalc past) _).trans ?_
  refine (bind_talk_ok (hash_noting hdigest _) _).trans ?_
  rw [CompletedFile.recordDigest_chosen, bind_talk_ok (take_ok _), List.append_assoc]
  cases answer <;> rfl

theorem comparing_known {digest text : String} (hexp : f.expected = some text) (s : Noted σ) :
    comparing p.noting (f.answered kind (.ok digest)) s =
      (.ok (true, (f.answered kind (.ok digest)).compared digest text), s) := by
  have hanswer : expectedAnswer p.noting (f.answered kind (.ok digest)) = pure (some text) := by
    rw [expectedAnswer, show (f.answered kind (.ok digest)).expected = some text from hexp]
  rw [comparing, hanswer, pure_bind]
  simp only
  rw [CompletedFile.resolve_answered, bind_talk_ok (take_ok _)]
  rfl

theorem comparing_asked {digest : String} (hexp : f.expected = none) (s : Noted σ) :
    comparing p.noting (f.answered kind (.ok digest)) s =
      (ask (noting (.expectedDigest (f.answered kind (.ok digest)))
        (p.expectedDigest (f.answered kind (.ok digest)))) >>= fun expected =>
          pure (match expected with
            | none => (false, f.answered kind (.ok digest))
            | some text => (true, (f.answered kind (.ok digest)).compared digest text))) s := by
  have hanswer : expectedAnswer p.noting (f.answered kind (.ok digest)) =
      ask (noting (.expectedDigest (f.answered kind (.ok digest)))
        (p.expectedDigest (f.answered kind (.ok digest)))) := by
    rw [expectedAnswer, show (f.answered kind (.ok digest)).expected = none from hexp]
    rfl
  rw [comparing, hanswer]
  refine congrFun (congrArg _ (funext fun expected => ?_)) s
  cases expected with
  | none => rfl
  | some text =>
    simp only
    rw [CompletedFile.resolve_answered]
    rfl

variable (p) (hashing)

/-- **What is said about a file** is a whole conversation about it, or is cut short by the
user or by a question or message that cannot be put. -/
theorem verifyFile_spec (hf : f.status = .notRequested) (kind : DigestKind) (index total : Nat)
    (s : σ) (past : List Exchange) :
    ∃ s' more, let all := .chooseKind f index total (.ok (some kind)) :: more
      (∃ talk : FileTalk, talk.file = f ∧ talk.exchanges index total = all ∧
        verifyFile p.noting hashing.noting f kind (s, past) =
          (.ok (true, talk.final), (s', past ++ more))) ∨
      (∃ f', CutShort f index total all (.ok f') ∧
        verifyFile p.noting hashing.noting f kind (s, past) = (.ok (false, f'), (s', past ++ more))) ∨
      ∃ e, CutShort f index total all (.error e) ∧
        verifyFile p.noting hashing.noting f kind (s, past) =
          (.error (.prompt e), (s', past ++ more)) := by
  -- the notice, the digest and the expected digest, in this order; each may be the end
  cases hcalc : p.calculating (f.chosen kind) kind s with
  | mk r s₁ =>
  cases r with
  | error e =>
    exact ⟨s₁, _, .inr (.inr ⟨e, .calculatingFails kind e, verifyFile_unshown hf hcalc past⟩)⟩
  | ok u =>
  cases hdigest : hashing kind f.path s₁ with
  | mk answer s₂ =>
  have hhashed := verifyFile_hashed hf hcalc hdigest past
  cases answer with
  | error cause =>
    let talk : FileTalk := ⟨f, kind, .error cause, none, hf, by simp [Except.isOk, Except.toBool]⟩
    exact ⟨s₂, _, .inl ⟨talk, rfl, rfl, hhashed⟩⟩
  | ok digest =>
  replace hhashed : _ = comparing p.noting (f.answered kind (.ok digest)) _ := hhashed
  cases hexp : f.expected with
  -- the expected digest is known, and nobody is asked for it
  | some text =>
    let talk : FileTalk := ⟨f, kind, .ok digest, none, hf, by simp [hexp]⟩
    have hfinal : talk.final = (f.answered kind (.ok digest)).compared digest text := by
      simp only [talk, FileTalk.final, FileTalk.expected, hexp]
      rfl
    refine ⟨s₂, _, .inl ⟨talk, rfl, rfl, ?_⟩⟩
    rw [hhashed, comparing_known hexp, hfinal]
    rfl
  | none =>
  rw [comparing_asked hexp] at hhashed
  cases hask : p.expectedDigest (f.answered kind (.ok digest)) s₂ with
  | mk reply s₃ =>
  cases reply with
  | error e =>
    refine ⟨s₃, _, .inr (.inr ⟨e, .expectedFails kind digest hexp e, ?_⟩)⟩
    rw [hhashed, bind_talk_error (ask_noting_error hask _), List.append_assoc]
    rfl
  | ok expected =>
  rw [bind_talk_ok (ask_noting_ok hask _), List.append_assoc] at hhashed
  cases expected with
  | none => exact ⟨s₃, _, .inr (.inl ⟨_, .expectedCancelled kind digest hexp, hhashed⟩)⟩
  | some text =>
    let talk : FileTalk := ⟨f, kind, .ok digest, some text, hf, by
      simp [hexp, Except.isOk, Except.toBool]⟩
    have hfinal : talk.final = (f.answered kind (.ok digest)).compared digest text := by
      simp only [talk, FileTalk.final, FileTalk.expected, hexp]
      rfl
    exact ⟨s₃, _, .inl ⟨talk, rfl, rfl, by rw [hhashed, hfinal]; rfl⟩⟩

end

end TransferBoard
