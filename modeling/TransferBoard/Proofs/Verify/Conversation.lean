import TransferBoard.Proofs.Verify.Course
import TransferBoard.Verify.ScriptedPrompter

/-!
# The order of a conversation

Nothing is asked without files.  With files the first question is whether to begin; then the
files are taken in their order, each with its number, and what is said about a file is
complete before the next one is come to.  At the end the counts are shown, once, and only if
no file is left.  Whatever ends the conversation early is the last thing said.

## Main definitions

* `Exchange.Timely` — a file is spoken of in the state in which it is then.

## Main results

* `timely_of_told`, `CutShort.timely` — whatever is said of a file is timely.
* `goesOn_of_told`, `CutShort.goesOn` — whatever is said before the end lets the
  conversation go on.
* `conversation_keeps_its_order` — the exchanges of every conversation, in their order.
-/

namespace TransferBoard

/-- A file is spoken of in the state in which it is then: its digest is being calculated, is
there with nothing to compare it with, or no step leads on. -/
def Exchange.Timely : Exchange → Prop
  | .calculating f kind _ => f.status = .calculating ∧ f.kind = some kind
  | .expectedDigest f _ => f.status = .calculated ∧ f.computed = true ∧ f.expected = none
  | .report f _ => f.status.isFinal = true
  | _ => True

/-! ### What is said about one file -/

namespace FileTalk

variable {talk : FileTalk} {index total : Nat} {x : Exchange}

theorem mem_exchanges (h : x ∈ talk.exchanges index total) :
    x = .chooseKind talk.file index total (.ok (some talk.kind)) ∨
    x = .calculating (talk.file.chosen talk.kind) talk.kind (.ok ()) ∨
    x = .digest talk.kind talk.file.path talk.answer ∨
    ∃ text, talk.typed = some text ∧
      x = .expectedDigest (talk.file.answered talk.kind talk.answer) (.ok (some text)) := by
  rcases List.mem_append.mp h with h | h
  · simp only [List.mem_cons, List.not_mem_nil, or_false] at h
    obtain h | h | h := h
    · exact .inl h
    · exact .inr (.inl h)
    · exact .inr (.inr (.inl h))
  · obtain ⟨text, htext, rfl⟩ := List.mem_map.mp h
    exact .inr (.inr (.inr ⟨text, Option.mem_toList.mp htext, rfl⟩))

theorem goesOn_of_exchanges (h : x ∈ talk.exchanges index total) : x.goesOn = true := by
  obtain rfl | rfl | rfl | ⟨text, -, rfl⟩ := mem_exchanges h <;> rfl

theorem timely_of_exchanges (h : x ∈ talk.exchanges index total) : x.Timely := by
  obtain rfl | rfl | rfl | ⟨text, htext, rfl⟩ := mem_exchanges h
  · trivial
  · exact ⟨rfl, rfl⟩
  · trivial
  · -- the user was asked, so there is a digest
    have hasked := talk.typed_iff.mp (by rw [htext]; rfl)
    cases hanswer : talk.answer with
    | error e =>
      rw [hanswer] at hasked
      exact absurd hasked.1 Bool.false_ne_true
    | ok digest => exact ⟨rfl, rfl, hasked.2⟩

end FileTalk

section

variable {f : CompletedFile} {index total : Nat} {talks : List FileTalk} {tail : List Exchange}
  {r : Except OsError CompletedFile} {x : Exchange}

/-- What is told of some files is what is said about each of them with its number, and what
became of it. -/
theorem mem_told_iff :
    x ∈ told total index talks ↔ ∃ i, ∃ talk : FileTalk, talks[i]? = some talk ∧
      (x ∈ talk.exchanges (index + i) total ∨ x = .report talk.final (.ok ())) := by
  induction talks generalizing index with
  | nil => simp [told]
  | cons talk talks ih =>
    rw [told, List.mem_append, List.mem_cons, ih]
    constructor
    · rintro (h | h | ⟨i, other, hother, h⟩)
      · exact ⟨0, talk, rfl, .inl h⟩
      · exact ⟨0, talk, rfl, .inr h⟩
      · rw [Nat.add_assoc, Nat.add_comm 1] at h
        exact ⟨i + 1, other, hother, h⟩
    · rintro ⟨i, other, hother, h⟩
      cases i with
      | zero =>
        obtain rfl := Option.some.inj hother
        exact h.imp_right .inl
      | succ i =>
        refine .inr (.inr ⟨i, other, hother, ?_⟩)
        rwa [Nat.add_assoc, Nat.add_comm 1]

theorem goesOn_of_told (h : x ∈ told total index talks) : x.goesOn = true := by
  obtain ⟨i, talk, -, hx | rfl⟩ := mem_told_iff.mp h
  · exact FileTalk.goesOn_of_exchanges hx
  · rfl

theorem timely_of_told (h : x ∈ told total index talks) : x.Timely := by
  obtain ⟨i, talk, -, hx | rfl⟩ := mem_told_iff.mp h
  · exact FileTalk.timely_of_exchanges hx
  · exact talk.isFinal

theorem no_summary_of_told {counts : VerifySummary} {shown : Except OsError Unit}
    (h : .summary counts shown ∈ told total index talks) : False := by
  obtain ⟨i, talk, -, hx | hx⟩ := mem_told_iff.mp h
  · obtain h | h | h | ⟨text, -, h⟩ := FileTalk.mem_exchanges hx <;> cases h
  · cases hx

theorem CutShort.goesOn (h : CutShort f index total tail r) :
    tail ≠ [] ∧ ∀ x ∈ tail.dropLast, x.goesOn = true := by
  cases h with
  | reportFails talk about e =>
    refine ⟨by simp, fun x hx => ?_⟩
    rw [List.dropLast_concat] at hx
    exact FileTalk.goesOn_of_exchanges hx
  | _ => exact ⟨by simp, by simp [Exchange.goesOn]⟩

theorem CutShort.timely (h : CutShort f index total tail r) : ∀ x ∈ tail, x.Timely := by
  cases h with
  | reportFails talk about e =>
    intro x hx
    rcases List.mem_append.mp hx with hx | hx
    · exact FileTalk.timely_of_exchanges hx
    · rw [List.mem_singleton.mp hx]
      exact talk.isFinal
  | choiceFails e => simp [Exchange.Timely]
  | choiceCancelled => simp [Exchange.Timely]
  | calculatingFails kind e => simp [Exchange.Timely, CompletedFile.chosen]
  | expectedFails kind digest unknown e =>
    simp [Exchange.Timely, CompletedFile.chosen, CompletedFile.answered, unknown]
  | expectedCancelled kind digest unknown =>
    simp [Exchange.Timely, CompletedFile.chosen, CompletedFile.answered, unknown]

/-- About a file no counts are shown. -/
theorem CutShort.no_summary (h : CutShort f index total tail r) (counts : VerifySummary)
    (answer : Except OsError Unit) : .summary counts answer ∉ tail := by
  cases h with
  | reportFails talk about e =>
    intro hx
    rcases List.mem_append.mp hx with hx | hx
    · obtain h | h | h | ⟨text, -, h⟩ := FileTalk.mem_exchanges hx <;> cases h
    · cases List.mem_singleton.mp hx
  | _ => simp

end

/-! ### The whole conversation -/

section

variable {total : Nat} {talks : List FileTalk} {left : List CompletedFile} {tail : List Exchange}
  {result : Except WorkflowError WorkflowOutcome}

theorem WalkEnd.cutShort {f : CompletedFile} {after : List CompletedFile}
    (h : WalkEnd total talks (f :: after) tail result) :
    ∃ r, CutShort f talks.length total tail r := by
  cases h with
  | stopped cut => exact ⟨_, cut⟩
  | broken cut => exact ⟨_, cut⟩

theorem WalkEnd.goesOn (h : WalkEnd total talks left tail result) :
    tail ≠ [] ∧ ∀ x ∈ tail.dropLast, x.goesOn = true := by
  cases h with
  | whole => exact ⟨by simp, by simp⟩
  | uncounted e => exact ⟨by simp, by simp⟩
  | stopped cut => exact cut.goesOn
  | broken cut => exact cut.goesOn

theorem WalkEnd.timely (h : WalkEnd total talks left tail result) : ∀ x ∈ tail, x.Timely := by
  cases h with
  | whole => simp [Exchange.Timely]
  | uncounted e => simp [Exchange.Timely]
  | stopped cut => exact cut.timely
  | broken cut => exact cut.timely

theorem Course.nothing_asked {files : List CompletedFile} {t : List Exchange}
    (h : Course files t result) (hnone : files = []) : t = [] := by
  cases h with
  | nothing empty => rfl
  | unasked given e => exact absurd hnone given
  | declined given no => exact absurd hnone given
  | walked given split ends => exact absurd hnone given

/-- The counts are shown if no file is left, and only then. -/
theorem Course.order {files : List CompletedFile} {t : List Exchange} (h : Course files t result)
    (hsome : files ≠ []) :
    ∃ answer rest, t = .confirmStart files.length answer :: rest ∧
      (answer ≠ .ok (some true) → rest = []) ∧
      (answer = .ok (some true) → ∃ talks left tail,
        files = talks.map (·.file) ++ left ∧
        rest = told files.length 0 talks ++ tail ∧
        (left = [] → ∃ shown, tail = [.summary (.ofFiles (talks.map (·.final))) shown]) ∧
        (∀ f after, left = f :: after →
          ∃ r, CutShort f talks.length files.length tail r ∧
            ∀ counts shown, .summary counts shown ∉ t)) := by
  -- one case for each way in which a conversation may go on from its start
  cases h with
  | nothing empty => exact absurd empty hsome
  | unasked given e => exact ⟨_, _, rfl, fun _ => rfl, fun h => by cases h⟩
  | declined given no =>
    exact ⟨_, _, rfl, fun _ => rfl, fun h => absurd (Except.ok.inj h) no⟩
  | @walked given talks left split tail result ends =>
    refine ⟨_, _, rfl, fun h => absurd rfl h, fun _ => ⟨talks, left, tail, split, rfl, ?_, ?_⟩⟩
    · rintro rfl
      cases ends with
      | whole => exact ⟨_, rfl⟩
      | uncounted e => exact ⟨_, rfl⟩
    · rintro f after rfl
      -- the conversation was cut short at this file, and no counts were put after that
      obtain ⟨r, hcut⟩ := ends.cutShort
      refine ⟨r, hcut, fun counts shown hx => ?_⟩
      rcases List.mem_cons.mp hx with hx | hx
      · cases hx
      · rcases List.mem_append.mp hx with hx | hx
        · exact no_summary_of_told hx
        · exact hcut.no_summary counts shown hx

/-- The counts that are shown are those of the outcome. -/
theorem Course.summary_eq {files : List CompletedFile} {t : List Exchange}
    (h : Course files t result) {outcome : WorkflowOutcome} (hresult : result = .ok outcome)
    {counts : VerifySummary} {shown : Except OsError Unit} (hx : .summary counts shown ∈ t) :
    counts = outcome.summary := by
  cases h with
  | nothing empty => exact absurd hx List.not_mem_nil
  | unasked given e => cases hresult
  | declined given no => cases List.mem_singleton.mp hx
  | walked given split ends =>
    rcases List.mem_cons.mp hx with hx | hx
    · cases hx
    rcases List.mem_append.mp hx with hx | hx
    · exact (no_summary_of_told hx).elim
    -- the counts are put only at the end of the whole walk
    cases ends with
    | whole =>
      cases hresult
      cases List.mem_singleton.mp hx
      rfl
    | uncounted e => cases hresult
    | stopped cut => exact absurd hx (cut.no_summary _ _)
    | broken cut => exact absurd hx (cut.no_summary _ _)

theorem Course.goesOn {files : List CompletedFile} {t : List Exchange}
    (h : Course files t result) : ∀ x ∈ t.dropLast, x.goesOn = true := by
  cases h with
  | nothing => simp
  | unasked => simp
  | declined => simp
  | walked given split ends =>
    intro x hx
    rw [← List.cons_append, List.dropLast_append_of_ne_nil ends.goesOn.1] at hx
    rcases List.mem_append.mp hx with hx | hx
    · rcases List.mem_cons.mp hx with rfl | hx
      · rfl
      · exact goesOn_of_told hx
    · exact ends.goesOn.2 x hx

theorem Course.timely {files : List CompletedFile} {t : List Exchange}
    (h : Course files t result) : ∀ x ∈ t, x.Timely := by
  cases h with
  | nothing => simp
  | unasked => simp [Exchange.Timely]
  | declined => simp [Exchange.Timely]
  | walked given split ends =>
    intro x hx
    rcases List.mem_cons.mp hx with rfl | hx
    · trivial
    · rcases List.mem_append.mp hx with hx | hx
      · exact timely_of_told hx
      · exact ends.timely x hx

end

variable {σ : Type}

/-- **The exchanges of a conversation, in their order.**  Without files there are none.  With
files it begins with the question whether to begin, and nothing follows unless the answer is
yes.  Then come the files `talks` whose verifications are told of, each with its number; then
the counts if no file is left, or else what is said about the next file until the
conversation ends.  The counts are those of the outcome.  Every file is spoken of in the state
in which it is then, and every exchange but the last one lets the conversation go on. -/
theorem conversation_keeps_its_order (p : Prompter σ) (hashing : Hashing σ)
    (files : List CompletedFile) (s : σ) (hfiles : ∀ f ∈ files, f.status = .notRequested) :
    let t := record p hashing files s
    let result := (workflow p hashing files s).1
    (files = [] → t = []) ∧
    (files ≠ [] → ∃ answer rest, t = .confirmStart files.length answer :: rest ∧
      (answer ≠ .ok (some true) → rest = []) ∧
      (answer = .ok (some true) → ∃ talks left tail,
        files = talks.map (·.file) ++ left ∧
        rest = told files.length 0 talks ++ tail ∧
        (left = [] → ∃ shown, tail = [.summary (.ofFiles (talks.map (·.final))) shown]) ∧
        (∀ f after, left = f :: after →
          ∃ r, CutShort f talks.length files.length tail r ∧
            ∀ counts shown, .summary counts shown ∉ t))) ∧
    (∀ outcome, result = .ok outcome →
      ∀ counts shown, .summary counts shown ∈ t → counts = outcome.summary) ∧
    (∀ x ∈ t, x.Timely) ∧
    ∀ x ∈ t.dropLast, x.goesOn = true := by
  intro t result
  have hcourse : Course files t result := workflow_course p hashing hfiles s
  exact ⟨hcourse.nothing_asked, hcourse.order, fun _ h _ _ hx => hcourse.summary_eq h hx,
    hcourse.timely, hcourse.goesOn⟩

/-- The user does not tell the digest expected of the second of three files: that is the last
question, and the third file is not come to. -/
theorem cancelled_question_is_the_last_one :
    let known : CompletedFile := .expecting "a" ⟨"/in/a"⟩ (some " AB ")
    let unknown : CompletedFile := .expecting "b" ⟨"/in/b"⟩ none
    let files := [known, unknown, .expecting "c" ⟨"/in/c"⟩ none]
    let script : PromptScript := { start := some true, kinds := [some .md5, some .sha256] }
    let t := record scriptedPrompter (fun _ _ s => (.ok "ab", s)) files script
    (∀ f ∈ files, f.status = .notRequested) ∧
    (∀ x ∈ t.dropLast, x.goesOn = true) ∧
    t.map Exchange.goesOn = [true, true, true, true, true, true, true, true, false] ∧
    t.getLast? = some (.expectedDigest (unknown.answered .sha256 (.ok "ab")) (.ok none)) := by
  refine ⟨by decide, ?_, by decide +kernel, rfl⟩
  exact (conversation_keeps_its_order _ _ _ _ (by decide)).2.2.2.2

end TransferBoard
