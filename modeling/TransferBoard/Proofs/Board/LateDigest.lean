import TransferBoard.Proofs.Board.Sections

/-!
# Digests that arrive late

A digest is calculated while the lock is free.  When it arrives, the transfer that it is
for has ended long since, so its slot may be free, may have been used again, or may be
gone.  The digest is stored through the handle of its transfer: in the entry of that
transfer if the entry is still there, and nowhere otherwise.

## Main definitions

* `Entry.Takes answer e e'` — `e'` is the entry `e` with the answer of a digester taken in.

## Main results

* `takes_settleDigest` — storing an answer takes it in, and changes nothing else.
* `finds_all_along` — a handle that finds an entry after some sections has found it after
  each of them.
* `late_digest_goes_to_its_own_entry` — **over any calls of others in the meantime**: the
  digest goes to the entry that it was calculated for, or nowhere.
-/

namespace TransferBoard

/-- The entry has taken in the answer of a digester: its fields about the digest are
those of the answer, and the others are as they were. -/
structure Entry.Takes (answer : Except DigestError String) (e e' : Entry) : Prop where
  /-- The digest, if there is one. -/
  digest : e'.digest = answer.toOption
  /-- There is a digest. -/
  computed : e'.computed = answer.isOk
  /-- Why there is none. -/
  digestError : e'.digestError = (match answer with
    | .ok _ => none
    | .error cause => some cause.message)
  /-- A digest settles the mark: it is set if the digest is the expected one. -/
  verified : ∀ digest, answer = .ok digest →
    (e'.verified = true ↔ ∃ expected, e.expected = some expected ∧
      digestsMatch digest expected = true)
  /-- A failure leaves the mark. -/
  unsettled : ∀ cause, answer = .error cause → e'.verified = e.verified
  /-- No other field differs. -/
  kept : { e' with
    digest := e.digest
    computed := e.computed
    digestError := e.digestError
    verified := e.verified } = e

/-- **Storing an answer takes it in, and changes nothing else.** -/
theorem Entry.takes_settleDigest (e : Entry) (answer : Except DigestError String) :
    e.Takes answer (e.settleDigest answer) := by
  cases answer with
  | error cause =>
    refine ⟨rfl, rfl, rfl, ?_, fun _ _ => rfl, rfl⟩
    intro digest h
    exact nomatch h
  | ok digest =>
    refine ⟨rfl, rfl, rfl, ?_, fun _ h => (nomatch h), rfl⟩
    rintro _ ⟨⟩
    cases hexp : e.expected with
    | none => simp [settleDigest, hexp]
    | some expected => simp [settleDigest, hexp]

namespace Dashboard

/-! ### Frames -/

/-- A frame changes what is shown and how far it is scrolled, and nothing else of the
state. -/
theorem state_redraw (d : Dashboard) (forced : Bool) (now : Moment) :
    (∀ i, (d.redraw forced now).state.slot? i = d.state.slot? i) ∧
      (d.redraw forced now).state.completed = d.state.completed ∧
      (d.redraw forced now).state.controls.paused = d.state.controls.paused ∧
      (d.redraw forced now).state.controls.cancelled = d.state.controls.cancelled := by
  rw [redraw]
  split
  · exact ⟨fun _ => rfl, rfl, rfl, rfl⟩
  split
  · exact ⟨fun _ => rfl, rfl, rfl, rfl⟩
  · exact ⟨fun _ => rfl, rfl, rfl, rfl⟩

/-! ### Handles in the course of other calls -/

/-- A number on an entry has been given to an allocation. -/
theorem generation_le_of_finds {surface : Surface} {interval : Nat} {sections : List BoardSection}
    {h : Handle} {e : Entry} (hfinds : entry? ((fresh surface interval).run sections) h = some e) :
    h.generation ≤ ((fresh surface interval).run sections).state.allocations := by
  obtain ⟨actions, hstate⟩ := state_run sections (fresh surface interval)
  have hsound := BoardLog.sound_run actions BoardLog.sound_empty
  obtain ⟨hslot, hgen⟩ := BoardState.finds_iff.mp hfinds
  have hid := BoardState.identity?_of_slot? hslot
  rw [hstate] at hid ⊢
  have hle := (hsound.identity h.slot _ (by rw [BoardLog.board_run]; exact hid)).2.2
  rw [BoardLog.board_run] at hle
  exact hgen ▸ hle

/-- A handle that finds an entry after some sections has found one after each of them. -/
theorem finds_all_along {d : Dashboard} {h : Handle} (hgiven : h.generation ≤ d.state.allocations)
    {seen rest : List BoardSection} (hfinds : (Dashboard.entry? (d.run (seen ++ rest)) h).isSome) :
    (Dashboard.entry? (d.run seen) h).isSome := by
  rw [run_append] at hfinds
  cases hnone : entry? (d.run seen) h with
  | some e => rfl
  | none =>
    -- what the handle has lost it does not find again
    obtain ⟨actions, hbefore⟩ := state_run seen d
    obtain ⟨actions', hafter⟩ := state_run rest (d.run seen)
    have hgiven' : h.generation ≤ (d.run seen).state.allocations := by
      rw [hbefore]
      exact Nat.le_trans hgiven (BoardState.allocations_le_run actions d.state)
    have hlost := BoardState.finds_none_run actions' hgiven' hnone
    unfold entry? at hfinds
    rw [hafter, hlost] at hfinds
    exact absurd hfinds (by simp)

/-! ### The digest when it arrives -/

/-- A digest that arrives when its handle finds nothing is dropped. -/
theorem showDigest_of_finds_none {d : Dashboard} {h : Handle} (hnone : d.entry? h = none)
    (answer : Except DigestError String) (now : Moment) : d.showDigest h answer now = d := by
  rw [showDigest, hnone]
  rfl

/-- A digest that arrives when its handle finds an entry goes to that one. -/
theorem showDigest_spec {d : Dashboard} {h : Handle} {e : Entry} (hfinds : d.entry? h = some e)
    (answer : Except DigestError String) (now : Moment) :
    let d' := d.showDigest h answer now
    (∀ i, d'.state.slot? i = if i = h.slot then some (e.settleDigest answer) else d.state.slot? i) ∧
      d'.state.completed = d.state.completed ∧
      d'.state.controls.paused = d.state.controls.paused ∧
      d'.state.controls.cancelled = d.state.controls.cancelled := by
  intro d'
  have hd' : d' = (d.settleDigest h answer).redraw true now := by
    simp only [d', showDigest, hfinds, Option.isSome_some, if_true]
  obtain ⟨hslots, hcompleted, hpaused, hcancelled⟩ :=
    state_redraw (d.settleDigest h answer) true now
  have hmodified : (d.settleDigest h answer).state =
      { d.state with
        slots := d.state.slots.set h.slot (some (e.settleDigest answer)) } := by
    simp only [settleDigest, modify, BoardState.modify, show d.state.entry? h = some e from hfinds]
  rw [hd']
  refine ⟨?_, ?_, ?_, ?_⟩
  · intro i
    rw [hslots, settleDigest, modify, BoardState.slot?_modify hfinds]
  · rw [hcompleted, hmodified]
  · rw [hpaused, hmodified]
  · rw [hcancelled, hmodified]

/-- **A late digest goes to its own entry or nowhere.**  A transfer is finished on a
dashboard with any past, and others use the dashboard while its digest is calculated.  The
digester is asked for the kind and the file that the entry had when it was marked as
finished.  When the answer arrives and the handle finds nothing any more, everything stays
as the others have left it.  When it finds an entry, that one has been there all along, so it
is the entry of the transfer; it takes the answer in, and the other entries, the completed
files and the flags stay as the others have left them. -/
theorem late_digest_goes_to_its_own_entry (surface : Surface) (interval : Nat)
    (past others : List BoardSection) (digester : Digester) (h : Handle) (now : Moment) :
    let start := (fresh surface interval).run past
    let asked := start.finish h now
    let left := asked.run others
    let final := start.finishWithDigest digester (fun d => d.run others) h now
    (asked.digestJob? h = none → final = asked) ∧
    ∀ kind path, asked.digestJob? h = some (kind, path) →
      (left.entry? h = none → final = left) ∧
      ∀ e, left.entry? h = some e →
        (∀ seen, seen <+: others → (Dashboard.entry? (asked.run seen) h).isSome) ∧
        (∃ e', e.Takes (digester kind path) e' ∧ final.entry? h = some e') ∧
        (∀ i, i ≠ h.slot → final.state.slot? i = left.state.slot? i) ∧
        final.state.completed = left.state.completed ∧
        final.state.controls.paused = left.state.controls.paused ∧
        final.state.controls.cancelled = left.state.controls.cancelled := by
  intro start asked left final
  have hleft : asked.digestJob? h = none → final = asked := fun hnone => by
    simp only [final, finishWithDigest, asked] at hnone ⊢
    rw [hnone]
  have hshown : ∀ kind path, asked.digestJob? h = some (kind, path) →
      final = left.showDigest h (digester kind path) now := fun kind path hjob => by
    simp only [final, finishWithDigest, asked, left] at hjob ⊢
    rw [hjob]
  refine ⟨hleft, fun kind path hjob => ?_⟩
  rw [hshown kind path hjob]
  refine ⟨fun hnone => showDigest_of_finds_none hnone _ now, ?_⟩
  intro e hfinds
  have hspec := showDigest_spec hfinds (digester kind path) now
  refine ⟨?_, ⟨_, e.takes_settleDigest _, ?_⟩, ?_, hspec.2⟩
  · rintro seen ⟨rest, rfl⟩
    -- the job was read off an entry, so the handle has been given out
    obtain ⟨e₀, hasked, -⟩ := Option.bind_eq_some_iff.mp hjob
    have hrun : asked = (fresh surface interval).run (past ++ [.markFinished h, .redraw true now]) := by
      rw [run_append]
      exact finish_eq_run start h now
    refine finds_all_along ?_ (Option.isSome_iff_exists.mpr ⟨e, hfinds⟩)
    rw [hrun] at hasked ⊢
    exact generation_le_of_finds hasked
  · unfold entry?
    rw [BoardState.finds_iff, hspec.1, if_pos rfl]
    have hgen := (BoardState.finds_iff.mp hfinds).2
    exact ⟨rfl, ((EntryEdit.settleDigest _).generation_edit e).trans hgen⟩
  · intro i hi
    rw [hspec.1, if_neg hi]

/-- A digest that arrives when another transfer has the slot, and one that arrives when the
file has been noted as completed. -/
theorem late_digest_misses_the_next_entry :
    let request : EntryRequest :=
      { name := "a", path := some ⟨"a"⟩, kind := some .md5, expected := some "AB12" }
    let digester : Digester := fun _ _ => .ok "ab12"
    let start := (fresh (Surface.new 80 24) 0).run [.track request 0]
    let asked := start.finish ⟨0, 1⟩ 0
    let next : List BoardSection := [.track { name := "b" } 0]
    let noted : List BoardSection := [.register "a" ⟨"a"⟩ none]
    asked.digestJob? ⟨0, 1⟩ = some (.md5, ⟨"a"⟩) ∧
    (Dashboard.entry? (asked.run next) ⟨0, 1⟩ = none ∧
      (Dashboard.entry? (asked.run next) ⟨0, 2⟩).isSome ∧
      start.finishWithDigest digester (fun d => d.run next) ⟨0, 1⟩ 0 = asked.run next) ∧
    ∃ e e', entry? (asked.run noted) ⟨0, 1⟩ = some e ∧ e.Takes (.ok "ab12") e' ∧
      entry? (start.finishWithDigest digester (fun d => d.run noted) ⟨0, 1⟩ 0) ⟨0, 1⟩ =
        some e' := by
  intro request digester start asked next noted
  have hjob : asked.digestJob? ⟨0, 1⟩ = some (.md5, ⟨"a"⟩) := by decide +kernel
  -- the slot has been used again, under another number
  have hmisses : entry? (asked.run next) ⟨0, 1⟩ = none :=
    Option.isNone_iff_eq_none.mp (by decide +kernel)
  obtain ⟨e, hfinds⟩ : ∃ e, entry? (asked.run noted) ⟨0, 1⟩ = some e :=
    Option.isSome_iff_exists.mp (by decide +kernel)
  have hspec := fun others => (late_digest_goes_to_its_own_entry (Surface.new 80 24) 0
    [.track request 0] others digester ⟨0, 1⟩ 0).2 _ _ hjob
  obtain ⟨-, ⟨e', htakes, hfinds'⟩, -⟩ := (hspec noted).2 e hfinds
  exact ⟨hjob, ⟨hmisses, by decide +kernel, (hspec next).1 hmisses⟩, e, e', hfinds, htakes,
    hfinds'⟩

end Dashboard
end TransferBoard
