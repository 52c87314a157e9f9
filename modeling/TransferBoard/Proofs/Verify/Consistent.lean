import TransferBoard.Proofs.Text.Trimmed
import TransferBoard.Proofs.Verify.FileTalk

/-!
# The record of a completed file is consistent

What is known of a completed file is spread over several fields, and each of them is assigned by
one of three calls, which the user of the record may make in any order and with any arguments.  A
call is made in place: first the status takes its step, which may be refused, and then the other
fields are assigned one after the other.  Whatever is called, the fields tell the same story.

## Main definitions

* `VerifyCall`, `CompletedFile.attempt`, `CompletedFile.next` — a call, its outcome, and the file
  after it, refused or not.
* `CompletedFile.after`, `CompletedFile.outcomes` — the file after a list of calls, and what became
  of each.
* `InPlace` — calls that assign one field after the other; what was assigned stays assigned when
  the call is refused later on.
* `CompletedFile.Consistent` — the fields tell the same story.
* `VerifyStatus.steps` — the number of steps that lead to a status.

## Main results

* `inPlace_eq` — a call made in place ends as the call does, and a refused one assigns nothing.
* `attempt_eq` — a call is allowed in one status only.
* `consistent_next`, `consistent_after` — every call keeps the record consistent.
* `steps_after` — every call that succeeds is one step on.
* `record_is_consistent` — what holds after any calls.
-/

namespace TransferBoard

/-- A call made on the record of a completed file. -/
inductive VerifyCall where
  /-- The calculation of a digest starts. -/
  | startCalculation (kind : DigestKind)
  /-- The outcome of the calculation is noted. -/
  | recordDigest (answer : Except DigestError String)
  /-- The digest is compared with the one that the user expects. -/
  | resolve (answer : String)

namespace VerifyCall

/-- Where a file has to be for a call to be allowed. -/
def startsAt : VerifyCall → VerifyStatus
  | startCalculation _ => .notRequested
  | recordDigest _ => .calculating
  | resolve _ => .calculated

/-- The step that a call asks for. -/
def action : VerifyCall → VerifyAction
  | startCalculation _ => .startCalculation
  | recordDigest (.ok _) => .recordDigest
  | recordDigest (.error _) => .recordFailure
  | resolve answer => if (nonBlank? answer).isSome then .compareDigests else .skipComparison

end VerifyCall

namespace CompletedFile

/-- The file after a call, unless the call is refused. -/
def attempt (f : CompletedFile) : VerifyCall → Except InvalidTransition CompletedFile
  | .startCalculation kind => f.startCalculation kind
  | .recordDigest answer => f.recordDigest answer
  | .resolve answer => f.resolve answer

/-- The file after a call, refused or not. -/
def next (f : CompletedFile) (c : VerifyCall) : CompletedFile :=
  match f.attempt c with
  | .ok f' => f'
  | .error _ => f

/-- The file after a list of calls. -/
def after (f : CompletedFile) (calls : List VerifyCall) : CompletedFile := calls.foldl next f

/-- What became of each call of a list. -/
def outcomes (f : CompletedFile) : List VerifyCall → List (Except InvalidTransition Unit)
  | [] => []
  | c :: calls => (f.attempt c).map (fun _ => ()) :: (f.next c).outcomes calls

end CompletedFile

/-! ### Calls made in place -/

/-- Calls that assign fields of a file.  A refusal does not take back what was assigned before
it. -/
abbrev InPlace := ExceptT InvalidTransition (StateM CompletedFile)

namespace InPlace

/-- The status takes a step, if that is allowed. -/
def step (go : VerifyStatus → Except InvalidTransition VerifyStatus) : InPlace Unit := do
  match go (← get).status with
  | .ok status => modify fun f => { f with status := status }
  | .error e => throw e

/-- A call as it is made in place: the status takes its step before any other field is
assigned. -/
def call : VerifyCall → InPlace Unit
  | .startCalculation kind => do
    step VerifyStatus.toCalculating
    modify fun f => { f with kind := some kind }
  | .recordDigest (.ok digest) => do
    step VerifyStatus.toCalculated
    modify fun f => { f with digest := some digest }
    modify fun f => { f with computed := true }
  | .recordDigest (.error e) => do
    step (VerifyStatus.toFailed e.message)
    modify fun f => { f with digest := none }
    modify fun f => { f with computed := false }
  | .resolve answer =>
    match nonBlank? answer with
    | none => step VerifyStatus.toSkipped
    | some expected => do
      let matched := (← get).matchesDigest expected
      step (VerifyStatus.toCompared matched)
      modify fun f => { f with expected := some expected }
      modify fun f => { f with verified := matched }

end InPlace

namespace CompletedFile

variable {f f' : CompletedFile} {c : VerifyCall}

/-- What a call that is made in place tells, and what it leaves. -/
def inPlace (f : CompletedFile) (c : VerifyCall) : Except InvalidTransition Unit × CompletedFile :=
  (InPlace.call c).run.run f

/-- **A call made in place ends as the call does**, and when it is refused nothing has been
assigned. -/
theorem inPlace_eq (f : CompletedFile) (c : VerifyCall) :
    f.inPlace c = ((f.attempt c).map fun _ => (), f.next c) := by
  obtain ⟨name, path, kind, digest, expected, computed, verified, status⟩ := f
  cases c with
  | startCalculation kind => cases status <;> rfl
  | recordDigest answer => cases answer <;> cases status <;> rfl
  | resolve answer =>
    simp only [inPlace, InPlace.call, next, attempt, resolve]
    generalize nonBlank? answer = text?
    cases text? <;> cases status <;> rfl

/-! ### What a call does -/

/-- The file after a call that is allowed. -/
def done (f : CompletedFile) : VerifyCall → CompletedFile
  | .startCalculation kind => f.chosen kind
  | .recordDigest (.ok digest) =>
    { f with status := .calculated, digest := some digest, computed := true }
  | .recordDigest (.error e) =>
    { f with status := .failed e.message, digest := none, computed := false }
  | .resolve answer =>
    match nonBlank? answer with
    | none => { f with status := .skipped }
    | some text =>
      { f with
        status := if f.matchesDigest text then .verified else .mismatch
        expected := some text
        verified := f.matchesDigest text }

/-- **What a call does**: it is allowed in one status, and refused in every other one. -/
theorem attempt_eq (f : CompletedFile) (c : VerifyCall) : f.attempt c =
    if f.status = c.startsAt then .ok (f.done c) else .error ⟨f.status, c.action⟩ := by
  cases c with
  | startCalculation kind => cases hs : f.status <;> simp [attempt, startCalculation, hs] <;> rfl
  | recordDigest answer =>
    cases answer <;> cases hs : f.status <;> simp [attempt, recordDigest, hs] <;> rfl
  | resolve answer =>
    simp only [attempt, resolve, done, VerifyCall.action, VerifyCall.startsAt]
    generalize nonBlank? answer = text?
    cases text? <;> cases f.status <;> simp <;> rfl

theorem attempt_eq_ok_iff :
    f.attempt c = .ok f' ↔ f.status = c.startsAt ∧ f' = f.done c := by
  rw [attempt_eq]
  split <;> simp [*, eq_comm]

theorem attempt_eq_error_iff {e : InvalidTransition} :
    f.attempt c = .error e ↔ f.status ≠ c.startsAt ∧ e = ⟨f.status, c.action⟩ := by
  rw [attempt_eq]
  split <;> simp [*, eq_comm]

theorem next_of_ok (h : f.attempt c = .ok f') : f.next c = f' := by
  rw [next, h]

theorem next_of_error {e : InvalidTransition} (h : f.attempt c = .error e) : f.next c = f := by
  rw [next, h]

/-- A refused call assigns nothing, also when it is made in place. -/
theorem inPlace_of_error {e : InvalidTransition} (h : f.attempt c = .error e) :
    f.inPlace c = (.error e, f) := by
  rw [inPlace_eq, h, next_of_error h]
  rfl

/-- No call starts at a final status. -/
theorem attempt_of_isFinal (hf : f.status.isFinal = true) (c : VerifyCall) :
    f.attempt c = .error ⟨f.status, c.action⟩ := by
  rw [attempt_eq_error_iff]
  refine ⟨?_, rfl⟩
  intro hs
  rw [hs] at hf
  cases c <;> simp [VerifyCall.startsAt, VerifyStatus.isFinal] at hf

end CompletedFile

/-! ### Counting the steps -/

/-- The number of steps that lead to a status. -/
def VerifyStatus.steps : VerifyStatus → Nat
  | .notRequested => 0
  | .calculating => 1
  | .failed _ => 2
  | .calculated => 2
  | .skipped => 3
  | .verified => 3
  | .mismatch => 3

theorem VerifyStatus.steps_le (s : VerifyStatus) : s.steps ≤ 3 := by
  cases s <;> simp [steps]

namespace CompletedFile

variable {f f' : CompletedFile} {c : VerifyCall}

/-- A call that is allowed is one step on. -/
theorem steps_done (hs : f.status = c.startsAt) :
    (f.done c).status.steps = f.status.steps + 1 := by
  rw [hs]
  cases c with
  | startCalculation kind => rfl
  | recordDigest answer => cases answer <;> rfl
  | resolve answer =>
    simp only [done]
    cases nonBlank? answer with
    | none => rfl
    | some text =>
      dsimp only
      cases f.matchesDigest text <;> rfl

/-- **Every call that succeeds is one step on**, and the others leave the file where it is. -/
theorem steps_after (f : CompletedFile) (calls : List VerifyCall) :
    (f.after calls).status.steps =
      f.status.steps + (f.outcomes calls).countP Except.isOk := by
  induction calls generalizing f with
  | nil => rfl
  | cons c calls ih =>
    have hafter : f.after (c :: calls) = (f.next c).after calls := rfl
    rw [hafter, ih, outcomes, List.countP_cons]
    cases h : f.attempt c with
    | error e =>
      rw [next_of_error h]
      rfl
    | ok f' =>
      obtain ⟨hs, rfl⟩ := attempt_eq_ok_iff.mp h
      rw [next_of_ok h, steps_done hs, Nat.add_assoc, Nat.add_comm 1]
      rfl

/-! ### The fields tell the same story -/

/-- **The fields of a record tell the same story.** -/
structure Consistent (f : CompletedFile) : Prop where
  /-- The digest is marked as the expected one where the status says so. -/
  verified_iff : f.verified = true ↔ f.status = .verified
  /-- The digest is marked as there when it is. -/
  computed_iff : f.computed = true ↔ f.digest.isSome = true
  /-- There is a digest from its calculation on. -/
  digest_iff : f.digest.isSome = true ↔
    f.status ∈ [VerifyStatus.calculated, .skipped, .verified, .mismatch]
  /-- A kind of digest is chosen from the first step on. -/
  kind_iff : f.kind.isSome = true ↔ f.status ≠ .notRequested
  /-- A digest that was compared was compared with a text that is trimmed and not blank, which is
  on record, and the status tells the outcome. -/
  compared : ∀ matched : Bool, f.status = (if matched then .verified else .mismatch) →
    ∃ digest text, f.digest = some digest ∧ f.expected = some text ∧
      trimBlank text = text ∧ text ≠ "" ∧ digestsMatch digest text = matched

/-- A file of which nothing is known but a text that is expected of its digest, or not even
that. -/
theorem consistent_new (name : String) (path : Path) (expected : Option String) :
    Consistent { name := name, path := path, expected := expected } where
  verified_iff := by simp
  computed_iff := by simp
  digest_iff := by simp
  kind_iff := by simp
  compared := by intro matched hs; cases matched <;> simp at hs

/-- The text that a digest is compared with is trimmed and is not blank. -/
theorem trimmed_of_nonBlank? {answer text : String} (h : nonBlank? answer = some text) :
    trimBlank text = text ∧ text ≠ "" := by
  have hagain := nonBlank?_of_nonBlank? h
  simp only [nonBlank?] at hagain
  split at hagain
  · exact absurd hagain (by simp)
  · next hne =>
    have htrim := Option.some.inj hagain
    exact ⟨htrim, htrim ▸ hne⟩

theorem Consistent.verified_eq_false (hf : f.Consistent) (hs : f.status ≠ .verified) :
    f.verified = false := by
  apply Bool.eq_false_iff.mpr
  intro hverified
  exact hs (hf.verified_iff.mp hverified)

/-- A digest that is there, in a record that marks it. -/
theorem Consistent.digest_of_calculated (hf : f.Consistent) (hs : f.status = .calculated) :
    ∃ digest, f.digest = some digest ∧ f.computed = true := by
  have hsome : f.digest.isSome = true := hf.digest_iff.mpr (by simp [hs])
  obtain ⟨digest, hdigest⟩ := Option.isSome_iff_exists.mp hsome
  exact ⟨digest, hdigest, hf.computed_iff.mpr hsome⟩

theorem consistent_chosen (hf : f.Consistent) (hs : f.status = .notRequested)
    (kind : DigestKind) : (f.chosen kind).Consistent := by
  have hverified : f.verified = false := hf.verified_eq_false (by simp [hs])
  -- before the first step there is no digest that could be marked
  have hdigest : f.digest.isSome = false := by
    have hiff := hf.digest_iff
    simpa [hs] using hiff
  have hcomputed : f.computed = false := by
    have hiff := hf.computed_iff
    simpa [hdigest] using hiff
  constructor
  · simp [chosen, hverified]
  · simp [chosen, hcomputed, hdigest]
  · simp [chosen, hdigest]
  · simp [chosen]
  · intro matched hmatched
    cases matched <;> simp [chosen] at hmatched

theorem consistent_recorded (hf : f.Consistent) (hs : f.status = .calculating)
    (answer : Except DigestError String) : (f.done (.recordDigest answer)).Consistent := by
  have hverified : f.verified = false := hf.verified_eq_false (by simp [hs])
  have hkind : f.kind.isSome = true := hf.kind_iff.mpr (by simp [hs])
  -- the digest is assigned together with its mark, whether there is one or not
  cases answer <;> constructor
  case ok.compared | error.compared =>
    intro matched hmatched
    cases matched <;> simp [done] at hmatched
  all_goals simp [done, hverified, hkind]

theorem consistent_resolved (hf : f.Consistent) (hs : f.status = .calculated)
    (answer : String) : (f.done (.resolve answer)).Consistent := by
  have hverified : f.verified = false := hf.verified_eq_false (by simp [hs])
  have hkind : f.kind.isSome = true := hf.kind_iff.mpr (by simp [hs])
  obtain ⟨digest, hdigest, hcomputed⟩ := hf.digest_of_calculated hs
  -- the digest stays, and with it its mark; only what it was compared with is new
  cases htext : nonBlank? answer with
  | none =>
    constructor
    · simp [done, htext, hverified]
    · simp [done, htext, hcomputed, hdigest]
    · simp [done, htext, hdigest]
    · simp [done, htext, hkind]
    · intro matched hmatched
      cases matched <;> simp [done, htext] at hmatched
  | some text =>
    obtain ⟨htrim, hne⟩ := trimmed_of_nonBlank? htext
    have hmatches : f.matchesDigest text = digestsMatch digest text := by
      rw [matchesDigest, hdigest]
    constructor
    · simp [done, htext]
    · simp [done, htext, hcomputed, hdigest]
    · cases hm : f.matchesDigest text <;> simp [done, htext, hdigest, hm]
    · cases hm : f.matchesDigest text <;> simp [done, htext, hkind, hm]
    · intro matched hmatched
      refine ⟨digest, text, by simp [done, htext, hdigest], by simp [done, htext], htrim, hne, ?_⟩
      rw [← hmatches]
      cases hm : f.matchesDigest text <;> cases matched <;> simp [done, htext, hm] at hmatched ⊢

/-- **Every call keeps a record consistent**, allowed or not. -/
theorem consistent_next (hf : f.Consistent) (c : VerifyCall) : (f.next c).Consistent := by
  cases h : f.attempt c with
  | error e =>
    rw [next_of_error h]
    exact hf
  | ok f' =>
    obtain ⟨hs, rfl⟩ := attempt_eq_ok_iff.mp h
    rw [next_of_ok h]
    cases c with
    | startCalculation kind => exact consistent_chosen hf hs kind
    | recordDigest answer => exact consistent_recorded hf hs answer
    | resolve answer => exact consistent_resolved hf hs answer

theorem consistent_after (hf : f.Consistent) (calls : List VerifyCall) :
    (f.after calls).Consistent := by
  induction calls generalizing f with
  | nil => exact hf
  | cons c calls ih => exact ih (consistent_next hf c)

/-! ### Calls on a record whose verification has come to its end -/

theorem after_of_isFinal (hf : f.status.isFinal = true) (calls : List VerifyCall) :
    f.after calls = f := by
  induction calls with
  | nil => rfl
  | cons c calls ih =>
    have hnext : f.next c = f := next_of_error (attempt_of_isFinal hf c)
    rw [after, List.foldl_cons, hnext]
    exact ih

/-- Every call on such a record is refused, and it is told where the record is and which step was
asked for. -/
theorem outcomes_of_isFinal (hf : f.status.isFinal = true) (calls : List VerifyCall) :
    f.outcomes calls = calls.map fun c => .error ⟨f.status, c.action⟩ := by
  induction calls with
  | nil => rfl
  | cons c calls ih =>
    have hrefused := attempt_of_isFinal hf c
    rw [outcomes, hrefused, next_of_error hrefused, ih]
    rfl

/-- **The record of a completed file is consistent.**  After any calls on a new record, whatever
digest it expects, the fields tell the same story.  A further call ends in place as it does on the
record as a whole, and one that is refused has assigned nothing.  At most three of the calls
succeed, and when the verification has come to its end every further one is refused. -/
theorem record_is_consistent (name : String) (path : Path) (expected : Option String)
    (calls : List VerifyCall) :
    let start : CompletedFile := { name := name, path := path, expected := expected }
    let f := start.after calls
    f.Consistent ∧
      (∀ c, f.inPlace c = ((f.attempt c).map fun _ => (), f.next c)) ∧
      (∀ c e, f.attempt c = .error e → f.inPlace c = (.error e, f)) ∧
      (start.outcomes calls).countP Except.isOk ≤ 3 ∧
      (f.status.isFinal = true → ∀ more,
        f.after more = f ∧ f.outcomes more = more.map fun c => .error ⟨f.status, c.action⟩) := by
  intro start f
  refine ⟨consistent_after (consistent_new name path expected) calls, inPlace_eq f,
    fun c e h => inPlace_of_error h, ?_, ?_⟩
  · have hcount := steps_after start calls
    have hle := (start.after calls).status.steps_le
    omega
  · intro hfinal more
    exact ⟨after_of_isFinal hfinal more, outcomes_of_isFinal hfinal more⟩

/-- A file whose digest is asked for before it is there, whose digest is the one that is typed with
blanks around it, and which is compared once more. -/
theorem record_of_hasty_calls :
    let calls : List VerifyCall := [.resolve "ab12", .startCalculation .sha256,
      .startCalculation .md5, .recordDigest (.ok "ab12"), .resolve " AB12 ", .resolve "cd34"]
    let start : CompletedFile := { name := "a.iso", path := ⟨"out/a.iso"⟩ }
    (start.after calls).status = .verified ∧ (start.after calls).expected = some "AB12" ∧
      (start.outcomes calls).countP Except.isOk = 3 ∧
      ∀ more, (start.after calls).after more = start.after calls := by
  intro calls start
  have hstatus : (start.after calls).status = .verified := by decide
  obtain ⟨-, -, -, -, hend⟩ := record_is_consistent "a.iso" ⟨"out/a.iso"⟩ none calls
  exact ⟨hstatus, by decide, by decide, fun more => (hend (by decide) more).1⟩

end CompletedFile
end TransferBoard
