import TransferBoard.Proofs.Board.Completed
import TransferBoard.Proofs.Verify.Conversation
import TransferBoard.Proofs.Verify.Outcome
import TransferBoard.Proofs.Verify.Preserves

/-!
# The part of a file in a conversation

A conversation with an outcome has one part for each file: what was asked, shown and calculated
about it.  The part of a file that was not come to is empty.  What becomes of a file whose kind
was chosen follows from its part alone, so from the answer of the digester and from the digest
that was expected beforehand.

## Main definitions

* `Exchange.path?` — the file that an exchange is about.
* `FilePart` — the parts that a file can have, each with what becomes of the file.
* `CompletedFile.HasVerdict answer f f'` — `f'` is what an answer of the digester makes of `f`.

## Main results

* `Course.parts` — **a conversation is made of the parts of its files.**
* `FilePart.verdict` — what becomes of a file whose kind was chosen.
* `verdict_of_chosen` — the same of a conversation over distinct files.
-/

namespace TransferBoard

/-- The file that a question is about, or a digest. -/
def Exchange.path? : Exchange → Option Path
  | .chooseKind f _ _ _ | .calculating f _ _ | .expectedDigest f _ => some f.path
  | .digest _ path _ => some path
  | _ => none

/-- The part of a file in a conversation that has an outcome, with what becomes of the file. -/
inductive FilePart (f : CompletedFile) (index total : Nat) :
    List Exchange → CompletedFile → Prop where
  /-- The verification of the file came to its end. -/
  | told (talk : FileTalk) (about : talk.file = f) :
    FilePart f index total (talk.exchanges index total) talk.final
  /-- The user stopped at the file. -/
  | stopped {part : List Exchange} {f' : CompletedFile} (stop : StoppedAt f index total part f') :
    FilePart f index total part f'
  /-- The file was not come to. -/
  | unseen : FilePart f index total [] f

/-- The file after an answer of the digester: it has failed if there is no digest.  If a digest
was expected beforehand, it is verified or not by the comparison with that. -/
structure CompletedFile.HasVerdict (answer : Except DigestError String) (f f' : CompletedFile) :
    Prop where
  /-- The file. -/
  path : f'.path = f.path
  /-- The digest, if there is one. -/
  digest : f'.digest = answer.toOption
  /-- A file without a digest has failed, for the reason that is given. -/
  failed : ∀ message, f'.status = .failed message ↔ ∃ cause, answer = .error cause ∧
    cause.message = message
  /-- A digest that was expected beforehand is compared with. -/
  compared : ∀ text, f.expected.bind nonBlank? = some text → ∀ matched,
    (f'.status = (if matched then .verified else .mismatch) ↔
      ∃ digest, answer = .ok digest ∧ digestsMatch digest text = matched)

/-! ### One part -/

theorem FileTalk.digest_final (talk : FileTalk) : talk.final.digest = talk.answer.toOption := by
  cases h : talk.answer with
  | error e => rw [final_of_error h]; rfl
  | ok digest =>
    rw [final_of_ok h, CompletedFile.compared]
    cases nonBlank? talk.expected <;> rfl

theorem FileTalk.hasVerdict (talk : FileTalk) : talk.file.HasVerdict talk.answer talk.final where
  path := talk.name_path_final.2
  digest := talk.digest_final
  failed := talk.failed_iff
  compared := by
    intro text htext matched
    obtain ⟨wanted, hwanted, hnonBlank⟩ := Option.bind_eq_some_iff.mp htext
    have hexpected : talk.expected = wanted := by rw [FileTalk.expected, hwanted]; rfl
    rw [talk.compared_iff, hexpected]
    simp [hnonBlank]

section

variable {f f' : CompletedFile} {index total : Nat} {part : List Exchange} {x : Exchange}

/-- What belongs to the part of a file is about this file. -/
theorem FilePart.path?_eq (h : FilePart f index total part f') (hx : x ∈ part) :
    x.path? = some f.path := by
  cases h with
  | told talk about =>
    -- what is asked about the file keeps its name and its path
    obtain ⟨-, hanswered⟩ : (talk.file.answered talk.kind talk.answer).name = talk.file.name ∧
        (talk.file.answered talk.kind talk.answer).path = talk.file.path := by
      cases talk.answer <;> exact ⟨rfl, rfl⟩
    subst about
    obtain rfl | rfl | rfl | ⟨text, -, rfl⟩ := FileTalk.mem_exchanges hx
    · rfl
    · rfl
    · rfl
    · exact congrArg some hanswered
  | stopped stop =>
    have hpath := stop.name_path.2
    obtain ⟨rfl, -⟩ | ⟨kind, digest, -, rfl, -⟩ := stop
    · rw [List.mem_singleton.mp hx]
      rfl
    · simp only [List.mem_cons, List.not_mem_nil, or_false] at hx
      obtain rfl | rfl | rfl | rfl := hx
      · rfl
      · rfl
      · rfl
      · exact congrArg some hpath
  | unseen => exact absurd hx List.not_mem_nil

/-- **What becomes of a file whose kind was chosen** is what the answer of the digester makes of
it, and the user is asked for the expected digest exactly when there is a digest and nothing to
compare it with. -/
theorem FilePart.verdict (h : FilePart f index total part f') {g : CompletedFile} {i n : Nat}
    {kind : DigestKind} (hchosen : .chooseKind g i n (.ok (some kind)) ∈ part) :
    ∃ answer, .digest kind f.path answer ∈ part ∧ f.HasVerdict answer f' ∧
      ((∃ g' reply, .expectedDigest g' reply ∈ part) ↔ answer.isOk = true ∧ f.expected = none) := by
  cases h with
  | told talk about =>
    subst about
    -- of the exchanges about a file only the first one is the choice of a kind
    obtain hx | hx | hx | ⟨text, -, hx⟩ := FileTalk.mem_exchanges hchosen <;> cases hx
    refine ⟨talk.answer, by simp [FileTalk.exchanges], talk.hasVerdict, ?_⟩
    rw [← talk.typed_iff, Option.isSome_iff_exists]
    constructor
    · rintro ⟨g', reply, hx⟩
      obtain hx | hx | hx | ⟨text, htext, -⟩ := FileTalk.mem_exchanges hx
      · cases hx
      · cases hx
      · cases hx
      · exact ⟨text, htext⟩
    · rintro ⟨text, htext⟩
      exact ⟨_, _, List.mem_append.mpr (.inr (List.mem_map.mpr
        ⟨text, Option.mem_toList.mpr htext, rfl⟩))⟩
  | stopped stop =>
    -- the kind was chosen, so it was the expected digest that was not given
    obtain ⟨rfl, -⟩ | ⟨kind', digest, hunknown, rfl, rfl⟩ := stop
    · cases List.mem_singleton.mp hchosen
    · simp only [List.mem_cons, List.not_mem_nil, or_false, Exchange.chooseKind.injEq,
        reduceCtorEq] at hchosen
      obtain ⟨-, -, -, ⟨⟩⟩ := hchosen
      refine ⟨.ok digest, by simp, ⟨rfl, rfl, by simp, by simp [hunknown]⟩, ?_⟩
      simp [hunknown, Except.isOk, Except.toBool]
  | unseen => exact absurd hchosen List.not_mem_nil

end

/-! ### The parts of a conversation -/

/-- The parts of the files that were told of, and of the one after them. -/
def partOf (total : Nat) (talks : List FileTalk) (last : List Exchange) (i : Nat) :
    List Exchange :=
  match talks[i]? with
  | some talk => talk.exchanges i total
  | none => if i = talks.length then last else []

section

variable {total : Nat} {talks : List FileTalk} {last tail : List Exchange} {x : Exchange}

theorem partOf_of_told {i : Nat} {talk : FileTalk} (h : talks[i]? = some talk) :
    partOf total talks last i = talk.exchanges i total := by
  rw [partOf, h]

theorem partOf_rest (j : Nat) :
    partOf total talks last (talks.length + j) = if j = 0 then last else [] := by
  rw [partOf, List.getElem?_eq_none (Nat.le_add_right _ _)]
  simp only [Nat.add_eq_left]

theorem mem_partOf_iff {i : Nat} :
    x ∈ partOf total talks last i ↔
      (∃ talk : FileTalk, talks[i]? = some talk ∧ x ∈ talk.exchanges i total) ∨
        i = talks.length ∧ x ∈ last := by
  rcases Nat.lt_or_ge i talks.length with hlt | hge
  · have htalk : talks[i]? = some talks[i] := List.getElem?_eq_getElem hlt
    rw [partOf_of_told htalk, htalk]
    simp [Nat.ne_of_lt hlt]
  · obtain ⟨j, rfl⟩ := Nat.exists_eq_add_of_le hge
    rw [partOf_rest]
    cases j <;> simp

/-- A walk with an outcome leaves the files after those told of as they were, but for the one
that the user stopped at. -/
theorem WalkEnd.rest {left : List CompletedFile} {result : Except WorkflowError WorkflowOutcome}
    (h : WalkEnd total talks left tail result) {outcome : WorkflowOutcome}
    (hresult : result = .ok outcome) :
    ∃ last left', outcome.files = talks.map (·.final) ++ left' ∧
      (∀ x, x.path?.isSome → (x ∈ tail ↔ x ∈ last ∧ left ≠ [])) ∧
      ∀ j g, left[j]? = some g → ∃ g', left'[j]? = some g' ∧
        FilePart g (talks.length + j) total (if j = 0 then last else []) g' := by
  cases h with
  | whole =>
    cases hresult
    refine ⟨[], [], (List.append_nil _).symm, fun x hx => ?_, fun j g hg => (nomatch hg)⟩
    refine ⟨fun hmem => ?_, fun h => absurd rfl h.2⟩
    rw [List.mem_singleton.mp hmem] at hx
    exact absurd hx (by simp [Exchange.path?])
  | uncounted e => cases hresult
  | @stopped f f' after tail cut =>
    cases hresult
    -- the file at which the walk stopped has the last part, and those after it have none
    refine ⟨tail, f' :: after, rfl, fun x _ => by simp, fun j g hg => ?_⟩
    cases j with
    | zero =>
      obtain rfl := Option.some.inj hg
      exact ⟨f', rfl, .stopped cut.stoppedAt⟩
    | succ j => exact ⟨g, hg, .unseen⟩
  | broken cut => cases hresult

/-- A walk with an outcome is made of the parts of its files. -/
theorem WalkEnd.parts {left : List CompletedFile} {result : Except WorkflowError WorkflowOutcome}
    (h : WalkEnd total talks left tail result) {outcome : WorkflowOutcome}
    (hresult : result = .ok outcome) (htotal : total = talks.length + left.length) :
    ∃ last,
      (∀ i f, (talks.map (·.file) ++ left)[i]? = some f → ∃ f', outcome.files[i]? = some f' ∧
        FilePart f i total (partOf total talks last i) f') ∧
      ∀ x, x.path?.isSome →
        (x ∈ told total 0 talks ++ tail ↔ ∃ i, i < total ∧ x ∈ partOf total talks last i) := by
  obtain ⟨last, left', hfiles, htail, hleft⟩ := h.rest hresult
  refine ⟨last, fun i f hf => ?_, fun x hx => ?_⟩
  · rw [hfiles]
    -- the file was talked about to its end, or it is one of those that are left
    rcases Nat.lt_or_ge i talks.length with hlt | hge
    · have htalk : talks[i]? = some talks[i] := List.getElem?_eq_getElem hlt
      rw [List.getElem?_append_left (by rwa [List.length_map]), List.getElem?_map, htalk] at hf
      obtain rfl := Option.some.inj hf
      refine ⟨talks[i].final, ?_, ?_⟩
      · rw [List.getElem?_append_left (by rwa [List.length_map]), List.getElem?_map, htalk]
        rfl
      · rw [partOf_of_told htalk]
        exact .told talks[i] rfl
    · obtain ⟨j, rfl⟩ := Nat.exists_eq_add_of_le hge
      rw [List.getElem?_append_right (by simp), List.length_map, Nat.add_sub_cancel_left] at hf
      rw [List.getElem?_append_right (by simp), List.length_map, Nat.add_sub_cancel_left,
        partOf_rest]
      exact hleft j f hf
  · rw [List.mem_append, mem_told_iff, htail x hx]
    simp only [mem_partOf_iff, Nat.zero_add]
    constructor
    · rintro (⟨i, talk, htalk, hmem | rfl⟩ | ⟨hmem, hne⟩)
      · have hlt := (List.getElem?_eq_some_iff.mp htalk).1
        exact ⟨i, by omega, .inl ⟨talk, htalk, hmem⟩⟩
      · exact absurd hx (by simp [Exchange.path?])
      · have hpos := List.length_pos_iff.mpr hne
        exact ⟨talks.length, by omega, .inr ⟨rfl, hmem⟩⟩
    · rintro ⟨i, hi, ⟨talk, htalk, hmem⟩ | ⟨rfl, hmem⟩⟩
      · exact .inl ⟨i, talk, htalk, .inl hmem⟩
      · exact .inr ⟨hmem, List.length_pos_iff.mp (by omega)⟩

end

/-- **A conversation with an outcome is made of the parts of its files.** -/
theorem Course.parts {files : List CompletedFile} {t : List Exchange}
    {result : Except WorkflowError WorkflowOutcome} (h : Course files t result)
    {outcome : WorkflowOutcome} (hresult : result = .ok outcome) :
    ∃ part : Nat → List Exchange,
      (∀ i f, files[i]? = some f →
        ∃ f', outcome.files[i]? = some f' ∧ FilePart f i files.length (part i) f') ∧
      ∀ x, x.path?.isSome → (x ∈ t ↔ ∃ i, i < files.length ∧ x ∈ part i) := by
  -- the first question is about no file
  have hfirst : ∀ {x : Exchange} {count answer}, x.path?.isSome = true →
      x ≠ .confirmStart count answer := by
    rintro x count answer hx rfl
    exact absurd hx Bool.false_ne_true
  cases h with
  | nothing empty =>
    subst empty
    exact ⟨fun _ => [], fun i f hf => (nomatch hf), by simp⟩
  | unasked given e => cases hresult
  | declined given no =>
    cases hresult
    refine ⟨fun _ => [], fun i f hf => ⟨f, hf, .unseen⟩, fun x hx => ?_⟩
    simp [hfirst hx]
  | @walked given talks left split tail result ends =>
    have htotal : files.length = talks.length + left.length := by
      rw [split, List.length_append, List.length_map]
    obtain ⟨last, hparts, hmem⟩ := ends.parts hresult htotal
    refine ⟨partOf files.length talks last, fun i f hf => hparts i f (split ▸ hf), fun x hx => ?_⟩
    rw [List.mem_cons, hmem x hx]
    exact or_iff_right (hfirst hx)

variable {σ : Type}

/-- **What becomes of a file whose kind was chosen**, among files with different paths: what the
digester makes of it.  The user is asked for its expected digest exactly when there is a digest
and nothing to compare it with. -/
theorem verdict_of_chosen (p : Prompter σ) (digester : Digester) {files : List CompletedFile}
    (hfiles : ∀ f ∈ files, f.status = .notRequested)
    (hdistinct : CompletedFiles.Distinct ⟨files⟩) {s : σ} {outcome : WorkflowOutcome}
    (hresult : (runWorkflow p digester files s).1 = .ok outcome) {i : Nat} {f : CompletedFile}
    (hf : files[i]? = some f) {g : CompletedFile} {index total : Nat} {kind : DigestKind}
    (hpath : g.path = f.path)
    (hchosen : .chooseKind g index total (.ok (some kind)) ∈ record p digester.hashing files s) :
    ∃ f', outcome.files[i]? = some f' ∧ f.HasVerdict (digester kind f.path) f' ∧
      ((∃ g' reply, .expectedDigest g' reply ∈ record p digester.hashing files s ∧
          g'.path = f.path) ↔
        (digester kind f.path).isOk = true ∧ f.expected = none) := by
  have hcourse := workflow_course p digester.hashing hfiles s
  have hdigests := digests_of_record p digester files s
  generalize record p digester.hashing files s = t at hcourse hdigests hchosen ⊢
  obtain ⟨part, hparts, hmem⟩ := hcourse.parts hresult
  -- what is about the file is in the part of the file
  have hpart : ∀ x ∈ t, x.path? = some f.path → x ∈ part i := by
    intro x hx hxpath
    obtain ⟨j, hj, hxj⟩ := (hmem x (by rw [hxpath]; rfl)).mp hx
    obtain ⟨f'', -, hother⟩ := hparts j files[j] (List.getElem?_eq_getElem hj)
    have hsame := Option.some.inj (hxpath.symm.trans (hother.path?_eq hxj))
    rwa [hdistinct.index_eq hf (List.getElem?_eq_getElem hj) hsame]
  have hwhole : ∀ x ∈ part i, x.path? = some f.path → x ∈ t := fun x hx hxpath =>
    (hmem x (by rw [hxpath]; rfl)).mpr ⟨i, (List.getElem?_eq_some_iff.mp hf).1, hx⟩
  obtain ⟨f', hf', hof⟩ := hparts i f hf
  obtain ⟨answer, hdigest, hverdict, hasked⟩ :=
    hof.verdict (hpart _ hchosen (congrArg some hpath))
  obtain rfl : answer = digester kind f.path := hdigests _ (hwhole _ hdigest rfl)
  refine ⟨f', hf', hverdict, Iff.trans ⟨?_, ?_⟩ hasked⟩
  · rintro ⟨g', reply, hx, hxpath⟩
    exact ⟨g', reply, hpart _ hx (congrArg some hxpath)⟩
  · rintro ⟨g', reply, hx⟩
    have hxpath := hof.path?_eq hx
    exact ⟨g', reply, hwhole _ hx hxpath, Option.some.inj hxpath⟩

end TransferBoard
