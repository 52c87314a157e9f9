import TransferBoard.Proofs.Board.Sections

/-!
# The flags

The user sets two flags: transfers are to wait, or they are to end.  A key sets them, and
the teardown does; whatever else is done to the dashboard leaves them alone.  Nothing takes
back that the end was asked for, not even the teardown, which forgets everything else.

## Main definitions

* `BoardSection.setsFlags` — the section is a key or the teardown.
* `BoardSection.asksForEnd` — the section is one after which transfers are to end.
* `Dashboard.SameFlags` — two dashboards have the same flags.

## Main results

* `sameFlags_after` — the other sections leave the flags.
* `flags_applyKey` — what a key does to the flags.
* `isCancelled_after`, `isCancelled_run` — the end that was asked for stays asked for.
* `isCancelled_of_asksForEnd` — a section that asks for the end sets the flag.
-/

namespace TransferBoard

namespace BoardSection

/-- The section is a key or the teardown: no other one sets a flag. -/
def setsFlags : BoardSection → Bool
  | applyKey _ | teardown => true
  | _ => false

/-- The section asks for the end: a key that does so, or the teardown. -/
def asksForEnd : BoardSection → Bool
  | applyKey key => key == .char 'c' || key == .char 'C' || key == .esc
  | teardown => true
  | _ => false

/-- The keys that ask for the end are those that mean it. -/
theorem asksForEnd_applyKey (key : Key) :
    (applyKey key).asksForEnd = true ↔ controlAction? key = some .cancel := by
  simp only [asksForEnd, Bool.or_eq_true, beq_iff_eq]
  constructor
  · rintro ((rfl | rfl) | rfl) <;> rfl
  · intro h
    unfold controlAction? at h
    split at h <;> simp_all

end BoardSection

namespace BoardState

/-- A change through a handle changes nothing but slots. -/
theorem modify_rest (s : BoardState) (h : Handle) (f : Entry → Entry) :
    (s.modify h f).controls = s.controls ∧ (s.modify h f).completed = s.completed := by
  rw [modify]
  split <;> exact ⟨rfl, rfl⟩

theorem allocate_rest (s : BoardState) (name : String) (initial total : UInt64) (now : Moment) :
    (s.allocate name initial total now).2.controls = s.controls ∧
      (s.allocate name initial total now).2.completed = s.completed := by
  rw [allocate]
  split <;> exact ⟨rfl, rfl⟩

end BoardState

namespace Dashboard

/-- Two dashboards have the same flags. -/
def SameFlags (d d' : Dashboard) : Prop :=
  d'.state.controls.paused = d.state.controls.paused ∧
    d'.state.controls.cancelled = d.state.controls.cancelled

theorem SameFlags.flow? {d d' : Dashboard} (h : d.SameFlags d') : d'.flow? = d.flow? := by
  rw [Dashboard.flow?, Dashboard.flow?, h.1, h.2]

theorem SameFlags.isCancelled {d d' : Dashboard} (h : d.SameFlags d') :
    d'.isCancelled = d.isCancelled := h.2

/-- A producer has to wait exactly while transfers are paused and not to end. -/
theorem flow?_eq_none_iff {d : Dashboard} :
    d.flow? = none ↔ d.state.controls.paused = true ∧ d.state.controls.cancelled = false := by
  unfold flow?
  cases d.state.controls.cancelled <;> cases d.state.controls.paused <;> simp

theorem flow?_eq_go_iff {d : Dashboard} :
    d.flow? = some .go ↔ d.state.controls.paused = false ∧ d.state.controls.cancelled = false := by
  unfold flow?
  cases d.state.controls.cancelled <;> cases d.state.controls.paused <;> simp

theorem flow?_eq_cancelled_iff {d : Dashboard} :
    d.flow? = some .cancelled ↔ d.isCancelled = true := by
  unfold flow? isCancelled
  cases d.state.controls.cancelled <;> cases d.state.controls.paused <;> simp

theorem isCancelled_eq_false_iff {d : Dashboard} :
    d.isCancelled = false ↔ d.flow? ≠ some .cancelled := by
  rw [Ne, flow?_eq_cancelled_iff, Bool.not_eq_true]

/-! ### Sections that leave the flags -/

theorem sameFlags_modify (d : Dashboard) (h : Handle) (f : Entry → Entry) :
    d.SameFlags (d.modify h f) := by
  have hrest := (d.state.modify_rest h f).1
  exact ⟨congrArg Controls.paused hrest, congrArg Controls.cancelled hrest⟩

theorem state_track_rest (d : Dashboard) (r : EntryRequest) (now : Moment) :
    (d.track r now).2.state.controls = d.state.controls ∧
      (d.track r now).2.state.completed = d.state.completed := by
  obtain ⟨hcontrols, hcompleted⟩ := d.state.allocate_rest r.name r.initial r.total now
  have hannounced := BoardState.modify_rest (d.state.allocate r.name r.initial r.total now).2
    (d.state.allocate r.name r.initial r.total now).1 r.edit.edit
  exact ⟨hannounced.1.trans hcontrols, hannounced.2.trans hcompleted⟩

theorem sameFlags_redraw (d : Dashboard) (forced : Bool) (now : Moment) :
    d.SameFlags (d.redraw forced now) := by
  rw [redraw]
  split
  · exact ⟨rfl, rfl⟩
  split
  · exact ⟨rfl, rfl⟩
  · exact ⟨rfl, rfl⟩

/-- **No section but a key or the teardown sets a flag.** -/
theorem sameFlags_after (d : Dashboard) {sec : BoardSection} (h : sec.setsFlags = false) :
    d.SameFlags (d.after sec) := by
  cases hedit : sec.edit? with
  | some change =>
    rw [after_of_edit? hedit]
    exact sameFlags_modify d _ _
  | none =>
    cases sec with
    | track r now =>
      have hrest := (d.state_track_rest r now).1
      exact ⟨congrArg Controls.paused hrest, congrArg Controls.cancelled hrest⟩
    | register name path expected => exact ⟨rfl, rfl⟩
    | redraw forced now => exact sameFlags_redraw d forced now
    | applyKey key => exact absurd h (by simp [BoardSection.setsFlags])
    | teardown => exact absurd h (by simp [BoardSection.setsFlags])
    | _ => exact absurd hedit (by simp [BoardSection.edit?])

/-- What a key does to the flags. -/
theorem flags_applyKey (d : Dashboard) (key : Key) :
    ((d.applyKey key).2.state.controls.paused = match controlAction? key with
      | some .togglePause => !d.state.controls.paused
      | some .cancel => false
      | _ => d.state.controls.paused) ∧
    ((d.applyKey key).2.state.controls.cancelled = match controlAction? key with
      | some .cancel => true
      | _ => d.state.controls.cancelled) := by
  simp only [applyKey, BoardState.applyKey, Controls.apply]
  cases controlAction? key with
  | none => exact ⟨rfl, rfl⟩
  | some action =>
    cases action with
    | togglePause => exact ⟨rfl, rfl⟩
    | cancel => exact ⟨rfl, rfl⟩
    | scrollDown =>
      simp only [Controls.act, Controls.scrollDown]
      split <;> exact ⟨rfl, rfl⟩
    | scrollUp =>
      simp only [Controls.act, Controls.scrollUp]
      split <;> exact ⟨rfl, rfl⟩

/-- A key that changes nothing leaves the flags. -/
theorem sameFlags_applyKey {d : Dashboard} {key : Key} (h : (d.applyKey key).1 = false) :
    d.SameFlags (d.applyKey key).2 := by
  rw [applyKey_of_unchanged h]
  exact ⟨rfl, rfl⟩

/-! ### The end -/

/-- A key does not take back the end. -/
theorem isCancelled_applyKey {d : Dashboard} (h : d.isCancelled = true) (key : Key) :
    (d.applyKey key).2.isCancelled = true := by
  rw [isCancelled, (d.flags_applyKey key).2]
  split
  · rfl
  · exact h

/-- **The end that was asked for stays asked for**, whatever is done to the dashboard. -/
theorem isCancelled_after {d : Dashboard} (h : d.isCancelled = true) (sec : BoardSection) :
    (d.after sec).isCancelled = true := by
  cases hflags : sec.setsFlags with
  | false => rw [(sameFlags_after d hflags).isCancelled, h]
  | true =>
    cases sec with
    | applyKey key => exact isCancelled_applyKey h key
    | teardown =>
      rw [after, teardown]
      split
      · rfl
      · exact h
    | _ => exact absurd hflags (by simp [BoardSection.setsFlags])

theorem isCancelled_run {d : Dashboard} (h : d.isCancelled = true) (sections : List BoardSection) :
    (d.run sections).isCancelled = true := by
  induction sections generalizing d with
  | nil => exact h
  | cons sec rest ih => exact ih (isCancelled_after h sec)

/-- A dashboard that has been torn down asks for the end. -/
def EndsWithSession (d : Dashboard) : Prop := d.live = false → d.isCancelled = true

theorem live_after {d : Dashboard} {sec : BoardSection} (h : sec ≠ .teardown) :
    (d.after sec).live = d.live := by
  cases sec with
  | redraw forced now =>
    rw [after, redraw]
    split
    · rfl
    split <;> rfl
  | teardown => exact absurd rfl h
  | _ => rfl

theorem endsWithSession_after {d : Dashboard} (h : d.EndsWithSession) (sec : BoardSection) :
    (d.after sec).EndsWithSession := by
  by_cases hsec : sec = .teardown
  · subst hsec
    intro _
    rw [after, teardown]
    split
    · rfl
    · next hlive => exact h (by simpa using hlive)
  · intro hlive
    rw [live_after hsec] at hlive
    exact isCancelled_after (h hlive) sec

theorem endsWithSession_run (surface : Surface) (interval : Nat) (sections : List BoardSection) :
    ((fresh surface interval).run sections).EndsWithSession := by
  suffices ∀ d : Dashboard, d.EndsWithSession → (d.run sections).EndsWithSession from
    this _ fun hlive => absurd hlive (by simp [fresh])
  induction sections with
  | nil => exact fun d h => h
  | cons sec rest ih => exact fun d h => ih _ (endsWithSession_after h sec)

/-- A section that asks for the end sets the flag. -/
theorem isCancelled_of_asksForEnd {d : Dashboard} (hd : d.EndsWithSession) {sec : BoardSection}
    (h : sec.asksForEnd = true) : (d.after sec).isCancelled = true := by
  cases sec with
  | applyKey key =>
    have hkey := (BoardSection.asksForEnd_applyKey key).mp h
    rw [after, isCancelled, (d.flags_applyKey key).2, hkey]
  | teardown =>
    rw [after, teardown]
    split
    · rfl
    · next hlive => exact hd (by simpa using hlive)
  | _ => exact absurd h (by simp [BoardSection.asksForEnd])

end Dashboard
end TransferBoard
