import TransferBoard.Proofs.Board.LateDigest
import TransferBoard.Proofs.Board.Through

/-!
# The verdict of an entry

A transfer is announced with the kind of its digest, its file and the digest that the file
should have.  When it is finished the digest is calculated and compared, among whatever else is
done to the dashboard.  What the entry says of the digest afterwards depends on nothing but
these three and the answer of the digester.

## Main definitions

* `Entry.SameVerdict` — two entries say the same of their digests.
* `Entry.Awaits kind path wanted`, `Entry.HasVerdict wanted answer` — what an entry says before
  its digest is stored, and after that.
* `BoardSection.leavesVerdict h` — a section that neither tells the file of a transfer nor
  stores its digest.
* `DigestedTransfer` — the course of a transfer with a digest, with the handle of the transfer
  and the dashboard at the end.

## Main results

* `sameVerdict_run` — what such sections leave of an entry.
* `DigestedTransfer.verdict` — what the entry says of the digest in the end.
-/

namespace TransferBoard

/-- Two entries say the same of their digests. -/
structure Entry.SameVerdict (e e' : Entry) : Prop where
  /-- The kind of digest. -/
  kind : e'.kind = e.kind
  /-- The file. -/
  path : e'.path = e.path
  /-- The digest that the file should have. -/
  expected : e'.expected = e.expected
  /-- The digest. -/
  digest : e'.digest = e.digest
  /-- Why there is none. -/
  digestError : e'.digestError = e.digestError
  /-- Whether the digest is the expected one. -/
  verified : e'.verified = e.verified

namespace Entry.SameVerdict

variable {e e' e'' : Entry}

theorem refl (e : Entry) : e.SameVerdict e := ⟨rfl, rfl, rfl, rfl, rfl, rfl⟩

theorem trans (h : e.SameVerdict e') (h' : e'.SameVerdict e'') : e.SameVerdict e'' where
  kind := h'.kind.trans h.kind
  path := h'.path.trans h.path
  expected := h'.expected.trans h.expected
  digest := h'.digest.trans h.digest
  digestError := h'.digestError.trans h.digestError
  verified := h'.verified.trans h.verified

end Entry.SameVerdict

/-- The wording of the failure in an answer, if it is one. -/
def failureMessage? : Except DigestError String → Option String
  | .ok _ => none
  | .error cause => some cause.message

/-- The entry says of its digest what an expected digest and the answer of a digester make of
it. -/
structure Entry.HasVerdict (wanted : Option String) (answer : Except DigestError String)
    (e : Entry) : Prop where
  /-- The digest that the file should have. -/
  expected : e.expected = wanted
  /-- The digest, if there is one. -/
  digest : e.digest = answer.toOption
  /-- Why there is none. -/
  digestError : e.digestError = failureMessage? answer
  /-- The mark is set if the digest is the expected one. -/
  verified : e.verified = true ↔
    ∃ digest text, answer = .ok digest ∧ wanted = some text ∧ digestsMatch digest text = true

theorem Entry.HasVerdict.congr {wanted : Option String} {answer : Except DigestError String}
    {e e' : Entry} (h : e.HasVerdict wanted answer) (hsame : e.SameVerdict e') :
    e'.HasVerdict wanted answer where
  expected := hsame.expected.trans h.expected
  digest := hsame.digest.trans h.digest
  digestError := hsame.digestError.trans h.digestError
  verified := hsame.verified ▸ h.verified

/-- The entry has a digest to calculate, and is not marked. -/
structure Entry.Awaits (kind : DigestKind) (path : Path) (wanted : Option String) (e : Entry) :
    Prop where
  /-- The kind of the digest. -/
  kind : e.kind = some kind
  /-- The file. -/
  path : e.path = some path
  /-- The digest that the file should have. -/
  expected : e.expected = wanted
  /-- The mark is not set. -/
  unmarked : e.verified = false

namespace Entry.Awaits

variable {kind : DigestKind} {path : Path} {wanted : Option String} {e e' : Entry}

theorem congr (h : e.Awaits kind path wanted) (hsame : e.SameVerdict e') :
    e'.Awaits kind path wanted where
  kind := hsame.kind.trans h.kind
  path := hsame.path.trans h.path
  expected := hsame.expected.trans h.expected
  unmarked := hsame.verified.trans h.unmarked

theorem digestJob?_eq (h : e.Awaits kind path wanted) : e.digestJob? = some (kind, path) := by
  rw [digestJob?, h.kind, h.path]

/-- It takes its verdict from the answer. -/
theorem hasVerdict (h : e.Awaits kind path wanted) (answer : Except DigestError String) :
    (e.settleDigest answer).HasVerdict wanted answer := by
  have htakes := e.takes_settleDigest answer
  cases answer with
  | ok digest =>
    refine ⟨h.expected, rfl, rfl, (htakes.verified digest rfl).trans ?_⟩
    simp [h.expected]
  | error cause =>
    refine ⟨h.expected, rfl, rfl, ?_⟩
    rw [htakes.unsettled cause rfl, h.unmarked]
    simp

end Entry.Awaits

/-- A transfer that is announced with a kind and a file awaits its digest. -/
theorem EntryRequest.awaits_entry {r : EntryRequest} {kind : DigestKind} {path : Path}
    (hkind : r.kind = some kind) (hpath : r.path = some path) (slot generation : Nat)
    (now : Moment) :
    (r.entry slot generation now).Awaits kind path (r.expected.bind nonBlank?) :=
  ⟨hkind, hpath, rfl, rfl⟩

/-- The section neither tells the file of the transfer with a handle nor stores its digest. -/
def BoardSection.leavesVerdict (h : Handle) : BoardSection → Bool
  | .setPath h' _ | .settleDigest h' _ => h' ≠ h
  | _ => true

theorem Entry.sameVerdict_finish (e : Entry) : e.SameVerdict e.finish := by
  unfold Entry.finish
  split <;> exact ⟨rfl, rfl, rfl, rfl, rfl, rfl⟩

namespace BoardSection

variable {h : Handle} {sec : BoardSection}

/-- Such a section leaves the verdict of the entry of the handle. -/
theorem sameVerdict_editThrough (hsec : sec.leavesVerdict h = true) (e : Entry) :
    e.SameVerdict (sec.editThrough h e) := by
  cases sec with
  | setPath h' path =>
    have hne : h' ≠ h := of_decide_eq_true hsec
    simp only [editThrough, edit?, if_neg hne]
    exact .refl e
  | settleDigest h' result =>
    have hne : h' ≠ h := of_decide_eq_true hsec
    simp only [editThrough, edit?, if_neg hne]
    exact .refl e
  | markFinished h' =>
    simp only [editThrough, edit?]
    split
    · exact e.sameVerdict_finish
    · exact .refl e
  | markStopped h' reason =>
    simp only [editThrough, edit?]
    split <;> exact ⟨rfl, rfl, rfl, rfl, rfl, rfl⟩
  | advance h' delta hint =>
    simp only [editThrough, edit?]
    split <;> exact ⟨rfl, rfl, rfl, rfl, rfl, rfl⟩
  | _ => exact .refl e

theorem sameVerdict_foldl {sections : List BoardSection}
    (hleaves : ∀ sec ∈ sections, sec.leavesVerdict h = true) (e : Entry) :
    e.SameVerdict (sections.foldl (fun e sec => sec.editThrough h e) e) := by
  induction sections generalizing e with
  | nil => exact .refl e
  | cons sec rest ih =>
    exact (sameVerdict_editThrough (hleaves sec List.mem_cons_self) e).trans
      (ih (fun sec hsec => hleaves sec (List.mem_cons_of_mem _ hsec)) _)

end BoardSection

namespace Dashboard

variable {d : Dashboard} {h : Handle}

/-- **Such sections leave the verdict of the entry that a handle finds.** -/
theorem sameVerdict_run (hdetached : d.entry? Handle.detached = none)
    (hgiven : h.generation ≤ d.state.allocations) {sections : List BoardSection}
    (hleaves : ∀ sec ∈ sections, sec.leavesVerdict h = true) {e : Entry}
    (hfinds : entry? (d.run sections) h = some e) :
    ∃ e₀, d.entry? h = some e₀ ∧ e₀.SameVerdict e := by
  obtain ⟨e₀, hfinds₀, rfl⟩ := entry?_edited hdetached hgiven hfinds
  exact ⟨e₀, hfinds₀, BoardSection.sameVerdict_foldl hleaves e₀⟩

end Dashboard

/-! ### A transfer with a digest -/

/-- The course of a transfer with a digest: what it is announced with, and what is done to the
dashboard before that, then until the transfer is finished, then while its digest is
calculated, and after that. -/
structure DigestedTransfer where
  /-- Where the dashboard is shown. -/
  surface : Surface
  /-- The least time between frames. -/
  interval : Nat
  /-- What is done before the announcement. -/
  past : List BoardSection
  /-- The name that is shown. -/
  name : String
  /-- The bytes there are already. -/
  initial : UInt64
  /-- The size of the whole transfer. -/
  total : UInt64
  /-- The kind of digest to calculate. -/
  kind : DigestKind
  /-- The file that the transfer makes. -/
  path : Path
  /-- The digest that the file should have. -/
  expected : Option String
  /-- When the transfer is announced. -/
  announced : Moment
  /-- What is done until the finish. -/
  between : List BoardSection
  /-- When the transfer is finished. -/
  finished : Moment
  /-- What is done while the digest is calculated. -/
  meanwhile : List BoardSection
  /-- What is done after that. -/
  later : List BoardSection

namespace DigestedTransfer

/-- What the transfer is announced with. -/
def request (t : DigestedTransfer) : EntryRequest :=
  { name := t.name, initial := t.initial, total := t.total
    path := some t.path, kind := some t.kind, expected := t.expected }

/-- The dashboard before the announcement. -/
def before (t : DigestedTransfer) : Dashboard := (Dashboard.fresh t.surface t.interval).run t.past

/-- The handle of the transfer. -/
def handle (t : DigestedTransfer) : Handle := (t.before.create t.request t.announced).1

/-- The dashboard when the transfer is to be finished. -/
def ready (t : DigestedTransfer) : Dashboard :=
  (t.before.create t.request t.announced).2.run t.between

/-- The dashboard at the end. -/
def board (t : DigestedTransfer) (digester : Digester) : Dashboard :=
  (t.ready.finishWithDigest digester (fun d => d.run t.meanwhile) t.handle t.finished).run t.later

/-- Nobody else tells the file of the transfer or stores its digest. -/
def Undisturbed (t : DigestedTransfer) : Prop :=
  ∀ sec ∈ t.between ++ t.meanwhile ++ t.later, sec.leavesVerdict t.handle = true

variable {t : DigestedTransfer}

/-- The dashboard when the transfer has been announced. -/
def opened (t : DigestedTransfer) : Dashboard :=
  t.before.after (.track t.request t.announced)

theorem opened_eq_run (t : DigestedTransfer) (sections : List BoardSection) :
    t.opened.run sections = (Dashboard.fresh t.surface t.interval).run
      (t.past ++ .track t.request t.announced :: sections) := by
  rw [Dashboard.run_append, Dashboard.run_cons]
  rfl

theorem detached_opened (t : DigestedTransfer) (sections : List BoardSection) :
    Dashboard.entry? (t.opened.run sections) Handle.detached = none := by
  rw [opened_eq_run]
  exact Dashboard.detached_finds_none_run t.surface t.interval _

theorem given_opened (t : DigestedTransfer) (sections : List BoardSection) :
    t.handle.generation ≤ (t.opened.run sections).state.allocations := by
  obtain ⟨actions, hstate⟩ := Dashboard.state_run sections t.opened
  rw [hstate]
  exact Nat.le_trans (t.before.generation_track_le t.request t.announced)
    (BoardState.allocations_le_run actions t.opened.state)

/-- Until its digest is stored the entry says what was announced. -/
theorem entry_awaits {sections : List BoardSection}
    (hleaves : ∀ sec ∈ sections, sec.leavesVerdict t.handle = true) {e : Entry}
    (hfinds : Dashboard.entry? (t.opened.run sections) t.handle = some e) :
    e.Awaits t.kind t.path (t.expected.bind nonBlank?) := by
  obtain ⟨e₀, hfinds₀, hsame⟩ :=
    Dashboard.sameVerdict_run (t.detached_opened []) (t.given_opened []) hleaves hfinds
  obtain ⟨slot, generation, rfl⟩ := Dashboard.entry?_announced
    (Dashboard.detached_finds_none_run t.surface t.interval t.past) t.request t.announced hfinds₀
  exact (EntryRequest.awaits_entry rfl rfl slot generation t.announced).congr hsame

/-- What is done to the dashboard from the announcement until the digest is asked for. -/
def asking (t : DigestedTransfer) : List BoardSection :=
  .redraw true t.announced :: t.between ++ [.markFinished t.handle, .redraw true t.finished]

theorem finish_ready (t : DigestedTransfer) :
    t.ready.finish t.handle t.finished = t.opened.run t.asking := by
  show ((t.opened.after (.redraw true t.announced)).run t.between).run
    [.markFinished t.handle, .redraw true t.finished] = _
  rw [← Dashboard.run_append]
  rfl

theorem leaves_asking (hu : t.Undisturbed) :
    ∀ sec ∈ t.asking, sec.leavesVerdict t.handle = true := by
  intro sec hsec
  rw [asking, List.mem_append, List.mem_cons] at hsec
  obtain (rfl | hsec) | hsec := hsec
  · rfl
  · exact hu sec (by simp [hsec])
  · simp only [List.mem_cons, List.not_mem_nil, or_false] at hsec
    obtain rfl | rfl := hsec <;> rfl

/-- The digester is asked for the kind and the file that were announced, if the entry is there
still. -/
theorem digestJob_finish (hu : t.Undisturbed) {e : Entry}
    (hfinds : Dashboard.entry? (t.opened.run t.asking) t.handle = some e) :
    Dashboard.digestJob? (t.opened.run t.asking) t.handle = some (t.kind, t.path) := by
  rw [Dashboard.digestJob?, hfinds, Option.bind_some]
  exact (entry_awaits (leaves_asking hu) hfinds).digestJob?_eq

/-- Once the answer of a digester is stored the entry has the verdict of it. -/
theorem hasVerdict_settled {sections rest : List BoardSection}
    (hbefore : ∀ sec ∈ sections, sec.leavesVerdict t.handle = true)
    (hafter : ∀ sec ∈ rest, sec.leavesVerdict t.handle = true)
    {answer : Except DigestError String} {e : Entry}
    (hfinds : Dashboard.entry?
      (t.opened.run (sections ++ .settleDigest t.handle answer :: rest)) t.handle = some e) :
    e.HasVerdict (t.expected.bind nonBlank?) answer := by
  have hgiven := t.given_opened sections
  rw [Dashboard.run_append, Dashboard.run_cons] at hfinds
  obtain ⟨e₁, hfinds₁, hsame⟩ := Dashboard.sameVerdict_run
    (Dashboard.detached_finds_none_after (t.detached_opened sections) _)
    (Nat.le_trans hgiven (Dashboard.allocations_le_after _ _)) hafter hfinds
  obtain ⟨e₀, hfinds₀, rfl⟩ := Dashboard.entry?_after (t.detached_opened sections) hgiven hfinds₁
  rw [BoardSection.editThrough_self rfl] at hsame
  exact ((entry_awaits hbefore hfinds₀).hasVerdict answer).congr hsame

/-- **What the entry says of the digest in the end**, among whatever else is done to the
dashboard: what the kind, the file and the expected digest that the transfer was announced with
make of it. -/
theorem verdict (hu : t.Undisturbed) (digester : Digester) {e : Entry}
    (hfinds : Dashboard.entry? (t.board digester) t.handle = some e) :
    e.HasVerdict (t.expected.bind nonBlank?) (digester t.kind t.path) := by
  have hmeanwhile : ∀ sec ∈ t.asking ++ t.meanwhile, sec.leavesVerdict t.handle = true := by
    intro sec hsec
    rcases List.mem_append.mp hsec with hsec | hsec
    · exact leaves_asking hu sec hsec
    · exact hu sec (by simp [hsec])
  have hlater : ∀ sec ∈ .redraw true t.finished :: t.later,
      sec.leavesVerdict t.handle = true := by
    intro sec hsec
    rcases List.mem_cons.mp hsec with rfl | hsec
    · rfl
    · exact hu sec (by simp [hsec])
  -- an entry that is there at the end has been there all along
  have hthere : ∀ seen rest,
      (Dashboard.entry? (t.opened.run (seen ++ rest)) t.handle).isSome →
      (Dashboard.entry? (t.opened.run seen) t.handle).isSome := fun seen rest =>
    Dashboard.finds_all_along (d := t.opened) (t.given_opened [])
  have hasked : ∀ rest, (Dashboard.entry? (t.opened.run (t.asking ++ rest)) t.handle).isSome →
      Dashboard.digestJob? (t.opened.run t.asking) t.handle = some (t.kind, t.path) := by
    intro rest hrest
    obtain ⟨e', hfinds'⟩ := Option.isSome_iff_exists.mp (hthere _ _ hrest)
    exact digestJob_finish hu hfinds'
  rw [board, Dashboard.finishWithDigest, finish_ready] at hfinds
  cases hjob : Dashboard.digestJob? (t.opened.run t.asking) t.handle with
  | none =>
    simp only [hjob, ← Dashboard.run_append] at hfinds
    exact absurd (hjob.symm.trans (hasked t.later (by rw [hfinds]; rfl))) (by simp)
  | some job =>
    simp only [hjob, Dashboard.showDigest_eq_run, ← Dashboard.run_append] at hfinds
    split at hfinds
    · next hsome =>
      obtain rfl : job = (t.kind, t.path) :=
        Option.some.inj (hjob.symm.trans (hasked t.meanwhile hsome))
      rw [List.append_assoc] at hfinds
      exact hasVerdict_settled hmeanwhile hlater hfinds
    · next hlost =>
      rw [List.append_nil] at hfinds
      exact absurd (hthere (t.asking ++ t.meanwhile) t.later (by rw [hfinds]; rfl)) hlost

end DigestedTransfer
end TransferBoard
