import TransferBoard.Board.Dashboard
import TransferBoard.Proofs.Board.Handles

/-!
# The dashboard as a sequence of sections

Everything that is done to the dashboard is done under its lock, one section at a
time.  Whatever threads there are and whatever they call, the dashboard goes through
the sections of all of them in the order in which they get the lock; so a statement
about every list of sections is a statement about every interleaving of calls.

## Main definitions

* `BoardSection`, `Dashboard.after` — one section, and the dashboard after it.
* `Dashboard.run` — the dashboard after a list of sections.
* `BoardSection.edit?` — the change of an entry that a section makes.
* `Dashboard.fresh` — a dashboard on which nothing has happened.

## Main results

* `create_eq_run`, `finish_eq_run`, `stop_eq_run`, `pressKey_eq_run`,
  `finishWithDigest_eq_run` — each call is a list of sections.
* `state_run` — on the state, a list of sections is a run of operations, so what
  holds of every run of operations holds of every dashboard.
* `slot?_after` — where an entry comes from that is there after a section.
-/

namespace TransferBoard

/-- What is done while the lock is held once. -/
inductive BoardSection where
  /-- An entry is made for a transfer. -/
  | track (request : EntryRequest) (now : Moment)
  /-- The file of a transfer is told. -/
  | setPath (h : Handle) (path : Path)
  /-- More bytes are told. -/
  | advance (h : Handle) (delta : UInt64) (hint : Float)
  /-- A transfer is marked as complete. -/
  | markFinished (h : Handle)
  /-- A transfer is marked as given up. -/
  | markStopped (h : Handle) (reason : String)
  /-- The outcome of a digest calculation is stored. -/
  | settleDigest (h : Handle) (result : Except DigestError String)
  /-- A file is noted as completed. -/
  | register (name : String) (path : Path) (expected : Option String)
  /-- A key takes its effect. -/
  | applyKey (key : Key)
  /-- The state is shown, unless that is too soon. -/
  | redraw (forced : Bool) (now : Moment)
  /-- Everything is forgotten and the terminal is given back. -/
  | teardown

namespace BoardSection

/-- The change of an entry that a section makes, and the handle it goes through. -/
def edit? : BoardSection → Option (Handle × EntryEdit)
  | setPath h path => some (h, .setPath path)
  | advance h delta hint => some (h, .advance delta hint)
  | markFinished h => some (h, .finish)
  | markStopped h reason => some (h, .stop reason)
  | settleDigest h result => some (h, .settleDigest result)
  | _ => none

/-- The keys that take their effect in a section. -/
def keys : BoardSection → List Key
  | applyKey key => [key]
  | _ => []

end BoardSection

/-- The change that the announcement of a transfer makes to its new entry. -/
def EntryRequest.edit (r : EntryRequest) : EntryEdit :=
  .announce r.path r.kind (r.expected.bind nonBlank?)

/-- The entry that the announcement of a transfer makes. -/
def EntryRequest.entry (r : EntryRequest) (slot generation : Nat) (now : Moment) : Entry :=
  r.edit.edit (Entry.new slot generation r.name r.initial r.total now)

namespace Dashboard

/-- The dashboard after a section. -/
def after (d : Dashboard) : BoardSection → Dashboard
  | .track request now => (d.track request now).2
  | .setPath h path => d.setPath h path
  | .advance h delta hint => d.advance h delta hint
  | .markFinished h => d.markFinished h
  | .markStopped h reason => d.markStopped h reason
  | .settleDigest h result => d.settleDigest h result
  | .register name path expected => (d.register name path expected).2
  | .applyKey key => (d.applyKey key).2
  | .redraw forced now => d.redraw forced now
  | .teardown => d.teardown

/-- The dashboard after a list of sections. -/
def run (d : Dashboard) (sections : List BoardSection) : Dashboard := sections.foldl after d

@[simp] theorem run_nil (d : Dashboard) : d.run [] = d := rfl

@[simp] theorem run_cons (d : Dashboard) (sec : BoardSection) (rest : List BoardSection) :
    d.run (sec :: rest) = (d.after sec).run rest := rfl

theorem run_append (d : Dashboard) (sections rest : List BoardSection) :
    d.run (sections ++ rest) = (d.run sections).run rest := List.foldl_append

theorem run_snoc (d : Dashboard) (sections : List BoardSection) (sec : BoardSection) :
    d.run (sections ++ [sec]) = (d.run sections).after sec := d.run_append sections [sec]

/-- A dashboard on which nothing has happened. -/
def fresh (surface : Surface) (redrawInterval : Nat) : Dashboard :=
  { surface := surface, redrawInterval := redrawInterval }

/-! ### Calls as sections -/

theorem create_eq_run (d : Dashboard) (r : EntryRequest) (now : Moment) :
    (d.create r now).2 = d.run [.track r now, .redraw true now] := rfl

theorem finish_eq_run (d : Dashboard) (h : Handle) (now : Moment) :
    d.finish h now = d.run [.markFinished h, .redraw true now] := rfl

/-- The sections of giving up: none when the handle finds nothing. -/
theorem stop_eq_run (d : Dashboard) (h : Handle) (reason : String) (now : Moment) :
    d.stop h reason now =
      d.run (if (d.entry? h).isSome then [.markStopped h reason, .redraw true now] else []) := by
  rw [stop]
  split <;> rfl

/-- A key that changes nothing leaves the dashboard. -/
theorem applyKey_of_unchanged {d : Dashboard} {key : Key} (h : (d.applyKey key).1 = false) :
    (d.applyKey key).2 = d := by
  unfold applyKey BoardState.applyKey Controls.apply at *
  cases haction : controlAction? key with
  | none => rfl
  | some action =>
    simp only [haction] at h ⊢
    cases action with
    | togglePause => exact absurd h (by simp [Controls.act])
    | cancel => exact absurd h (by simp [Controls.act])
    | scrollDown =>
      simp only [Controls.act, Controls.scrollDown] at h ⊢
      split at h
      · exact absurd h (by simp)
      · next hend => rw [if_neg hend]
    | scrollUp =>
      simp only [Controls.act, Controls.scrollUp] at h ⊢
      split at h
      · exact absurd h (by simp)
      · next hstart => rw [if_neg hstart]

/-- The sections of a key: a frame only when the key has changed anything. -/
theorem pressKey_eq_run (d : Dashboard) (key : Key) (now : Moment) :
    (d.pressKey key now).2 =
      d.run (.applyKey key :: if (d.applyKey key).1 then [.redraw true now] else []) := by
  rw [run_cons, after]
  unfold pressKey
  generalize d.applyKey key = pressed
  obtain ⟨changed, d'⟩ := pressed
  cases changed <;> rfl

/-- The sections of storing a digest: none when the handle finds nothing. -/
theorem showDigest_eq_run (d : Dashboard) (h : Handle) (result : Except DigestError String)
    (now : Moment) :
    d.showDigest h result now =
      d.run (if (d.entry? h).isSome then [.settleDigest h result, .redraw true now] else []) := by
  rw [showDigest]
  split <;> rfl

/-- The sections of finishing with a digest, with those of others in between. -/
theorem finishWithDigest_eq_run (d : Dashboard) (digester : Digester) (others : List BoardSection)
    (h : Handle) (now : Moment) :
    ∃ sections, d.finishWithDigest digester (fun d' => d'.run others) h now = d.run sections := by
  have hfinish : ∀ rest, (d.finish h now).run rest =
      d.run ([.markFinished h, .redraw true now] ++ rest) := by
    intro rest
    rw [run_append, finish_eq_run]
  rw [finishWithDigest]
  cases hjob : (d.finish h now).digestJob? h with
  | none => exact ⟨_, finish_eq_run d h now⟩
  | some job =>
    simp only [showDigest_eq_run]
    exact ⟨_, by rw [← run_append, hfinish]⟩

/-! ### The state as a run of operations -/

theorem state_modify (d : Dashboard) (h : Handle) (edit : EntryEdit) :
    (d.modify h edit.edit).state = d.state.run [.modify h edit] := rfl

/-- A section that changes an entry does so through its handle. -/
theorem after_of_edit? {sec : BoardSection} {h : Handle} {edit : EntryEdit}
    (hedit : sec.edit? = some (h, edit)) (d : Dashboard) :
    d.after sec = d.modify h edit.edit := by
  cases sec <;> simp only [BoardSection.edit?, Option.some.injEq, Prod.mk.injEq, reduceCtorEq]
    at hedit <;> obtain ⟨rfl, rfl⟩ := hedit <;> rfl

/-- What a section does to the state is done by operations on the state, with the keys that take
their effect in it. -/
theorem state_after_keys (d : Dashboard) (sec : BoardSection) :
    ∃ actions, (d.after sec).state = d.state.run actions ∧
      actions.filterMap BoardAction.key? = sec.keys := by
  cases sec with
  | track r now =>
    exact ⟨[.allocate r.name r.initial r.total now,
      .modify (d.state.allocate r.name r.initial r.total now).1 r.edit], rfl, rfl⟩
  | setPath h path => exact ⟨_, state_modify d h (.setPath path), rfl⟩
  | advance h delta hint => exact ⟨_, state_modify d h (.advance delta hint), rfl⟩
  | markFinished h => exact ⟨_, state_modify d h .finish, rfl⟩
  | markStopped h reason => exact ⟨_, state_modify d h (.stop reason), rfl⟩
  | settleDigest h result => exact ⟨_, state_modify d h (.settleDigest result), rfl⟩
  | register name path expected =>
    exact ⟨[.register (CompletedFile.expecting name path expected)], rfl, rfl⟩
  | applyKey key => exact ⟨[.key key], rfl, rfl⟩
  | redraw forced now =>
    -- a frame that is not composed leaves the offset of the scroll as well
    rw [after, redraw]
    split
    · exact ⟨[], rfl, rfl⟩
    · split
      · exact ⟨[], rfl, rfl⟩
      · exact ⟨[.render d.surface now], rfl, rfl⟩
  | teardown =>
    rw [after, teardown]
    split
    · exact ⟨[.clear, .act .cancel], rfl, rfl⟩
    · exact ⟨[], rfl, rfl⟩

theorem state_after (d : Dashboard) (sec : BoardSection) :
    ∃ actions, (d.after sec).state = d.state.run actions :=
  let ⟨actions, hstate, _⟩ := state_after_keys d sec
  ⟨actions, hstate⟩

/-- What a list of sections does to the state is done by operations on the state. -/
theorem state_run (sections : List BoardSection) :
    ∀ d : Dashboard, ∃ actions, (d.run sections).state = d.state.run actions := by
  induction sections with
  | nil => intro d; exact ⟨[], rfl⟩
  | cons sec rest ih =>
    intro d
    obtain ⟨actions, hfirst⟩ := state_after d sec
    obtain ⟨actions', hrest⟩ := ih (d.after sec)
    exact ⟨actions ++ actions', by rw [run_cons, hrest, hfirst, BoardState.run_append]⟩

/-- No dashboard has an entry for the detached handle. -/
theorem detached_finds_none_run (surface : Surface) (interval : Nat)
    (sections : List BoardSection) :
    entry? ((fresh surface interval).run sections) Handle.detached = none := by
  obtain ⟨actions, hstate⟩ := state_run sections (fresh surface interval)
  have hsound := BoardLog.sound_run actions BoardLog.sound_empty
  have hnone := hsound.detached_finds_none
  rw [BoardLog.board_run] at hnone
  unfold entry?
  rw [hstate]
  exact hnone

/-! ### Entries after a section -/

/-- Without a free slot an announcement makes no entry, and changes none. -/
theorem track_of_full {d : Dashboard} (hdetached : d.entry? Handle.detached = none)
    (hk : d.state.nextSlot? = none) (r : EntryRequest) (now : Moment) :
    (d.track r now).1 = Handle.detached ∧ (d.track r now).2.state = d.state := by
  have hfull := BoardState.allocate_eq_detached hk r.name r.initial r.total now
  refine ⟨congrArg Prod.fst hfull, ?_⟩
  -- what is told of the entry goes through the detached handle
  simp only [track, hfull]
  exact BoardState.modify_of_finds_none hdetached _

/-- An announcement puts its entry into one slot and leaves the others. -/
theorem slot?_track {d : Dashboard} {k : Nat} (hk : d.state.nextSlot? = some k) (r : EntryRequest)
    (now : Moment) (i : Nat) :
    (d.track r now).2.state.slot? i =
      if i = k then some (r.entry k (d.state.allocations + 1) now) else d.state.slot? i := by
  have hslot := BoardState.slot?_allocate hk r.name r.initial r.total now
  have hhandle := BoardState.allocate_fst hk r.name r.initial r.total now
  have hfinds : BoardState.entry? (d.state.allocate r.name r.initial r.total now).2
      ⟨k, d.state.allocations + 1⟩ =
        some (Entry.new k (d.state.allocations + 1) r.name r.initial r.total now) := by
    rw [BoardState.finds_iff, hslot]
    exact ⟨if_pos rfl, rfl⟩
  change ((d.state.allocate r.name r.initial r.total now).2.modify
    (d.state.allocate r.name r.initial r.total now).1 r.edit.edit).slot? i = _
  rw [hhandle, BoardState.slot?_modify hfinds, hslot]
  split <;> rfl

/-- The number of a new transfer has been given out then; one that is not tracked has none. -/
theorem generation_track_le (d : Dashboard) (r : EntryRequest) (now : Moment) :
    (d.track r now).1.generation ≤ (d.track r now).2.state.allocations := by
  cases hk : d.state.nextSlot? with
  | none =>
    have hdetached : (d.track r now).1 = Handle.detached :=
      congrArg Prod.fst (BoardState.allocate_eq_detached hk r.name r.initial r.total now)
    rw [hdetached]
    exact Nat.zero_le _
  | some k =>
    have hhandle : (d.track r now).1 = ⟨k, d.state.allocations + 1⟩ :=
      BoardState.allocate_fst hk r.name r.initial r.total now
    have hnumber : (d.track r now).2.state.allocations = d.state.allocations + 1 :=
      (BoardState.allocations_modify _ _ _).trans
        (BoardState.allocations_allocate hk r.name r.initial r.total now)
    exact Nat.le_of_eq ((congrArg Handle.generation hhandle).trans hnumber.symm)

/-- An entry that is there after a section was made by it, or changed by it, or was
there before. -/
theorem slot?_after {d : Dashboard} (hdetached : d.entry? Handle.detached = none)
    {sec : BoardSection} {i : Nat} {e : Entry} (h : (d.after sec).state.slot? i = some e) :
    (∃ r now, sec = .track r now ∧ d.state.nextSlot? = some i ∧
      e = r.entry i (d.state.allocations + 1) now) ∨
    (∃ hd edit e₀, sec.edit? = some (hd, edit) ∧ d.entry? hd = some e₀ ∧ i = hd.slot ∧
      e = edit.edit e₀) ∨
    d.state.slot? i = some e := by
  cases hedit : sec.edit? with
  | some change =>
    -- a change through a handle, which reaches the entry that it finds
    obtain ⟨hd, edit⟩ := change
    rw [after_of_edit? hedit, modify] at h
    cases hf : d.state.entry? hd with
    | none =>
      rw [BoardState.modify_of_finds_none hf] at h
      exact .inr (.inr h)
    | some e₀ =>
      rw [BoardState.slot?_modify hf] at h
      split at h
      · next hi => exact .inr (.inl ⟨hd, edit, e₀, rfl, hf, hi, (Option.some.inj h).symm⟩)
      · exact .inr (.inr h)
  | none =>
    cases sec with
    | track r now =>
      cases hk : d.state.nextSlot? with
      | none =>
        rw [after, (track_of_full hdetached hk r now).2] at h
        exact .inr (.inr h)
      | some k =>
        rw [after, slot?_track hk] at h
        split at h
        · next hi =>
          subst hi
          exact .inl ⟨r, now, rfl, rfl, (Option.some.inj h).symm⟩
        · exact .inr (.inr h)
    | register name path expected => exact .inr (.inr h)
    | applyKey key => exact .inr (.inr h)
    | redraw forced now =>
      rw [after, redraw] at h
      split at h
      · exact .inr (.inr h)
      · split at h
        · exact .inr (.inr h)
        · exact .inr (.inr h)
    | teardown =>
      rw [after, teardown] at h
      split at h
      · exact absurd h (by simp [BoardState.slot?, BoardState.clear])
      · exact .inr (.inr h)
    | _ => exact absurd hedit (by simp [BoardSection.edit?])

end Dashboard
end TransferBoard
