import TransferBoard.Proofs.Board.Sections

/-!
# The entry of a handle

A handle finds its own entry or nothing.  So what a list of sections has done to the entry that
it finds is what they have done through this handle, one after the other.

## Main definitions

* `BoardSection.editThrough h` — what a section does to the entry of a handle.

## Main results

* `entry?_after` — the entry that a handle finds after a section, from the one before.
* `entry?_edited` — the entry that a handle finds after a list of sections.
* `entry?_announced` — the entry that a handle finds when it is given out.
-/

namespace TransferBoard

/-- What a section does to the entry that a handle finds. -/
def BoardSection.editThrough (h : Handle) (sec : BoardSection) (e : Entry) : Entry :=
  match sec.edit? with
  | some (h', edit) => if h' = h then edit.edit e else e
  | none => e

/-- What goes through the handle is done to its entry. -/
theorem BoardSection.editThrough_self {sec : BoardSection} {h : Handle} {edit : EntryEdit}
    (hedit : sec.edit? = some (h, edit)) (e : Entry) : sec.editThrough h e = edit.edit e := by
  simp only [editThrough, hedit, if_true]

namespace Dashboard

variable {d : Dashboard} {h : Handle}

theorem allocations_le_after (d : Dashboard) (sec : BoardSection) :
    d.state.allocations ≤ (d.after sec).state.allocations := by
  obtain ⟨actions, hstate⟩ := state_after d sec
  rw [hstate]
  exact BoardState.allocations_le_run actions d.state

theorem detached_finds_none_after (hdetached : d.entry? Handle.detached = none)
    (sec : BoardSection) : entry? (d.after sec) Handle.detached = none := by
  obtain ⟨actions, hstate⟩ := state_after d sec
  unfold entry?
  rw [hstate]
  exact BoardState.finds_none_run actions (Nat.zero_le _) hdetached

/-- **A handle that finds an entry after a section has found it before**, and the section has
done to it what it does through this handle. -/
theorem entry?_after (hdetached : d.entry? Handle.detached = none)
    (hgiven : h.generation ≤ d.state.allocations) {sec : BoardSection} {e : Entry}
    (hfinds : entry? (d.after sec) h = some e) :
    ∃ e₀, d.entry? h = some e₀ ∧ e = sec.editThrough h e₀ := by
  obtain ⟨hslot, hgen⟩ := BoardState.finds_iff.mp hfinds
  rcases slot?_after hdetached hslot with
    ⟨r, now, rfl, hk, rfl⟩ | ⟨h', edit, e₀, hedit, hfinds₀, hsame, rfl⟩ | hslot₀
  · -- a new entry has a number that has not been given out before
    have hnew : d.state.allocations + 1 = h.generation := hgen
    omega
  · have hgen' : h'.generation = h.generation :=
      (BoardState.finds_iff.mp hfinds₀).2.symm.trans ((edit.generation_edit e₀).symm.trans hgen)
    obtain rfl : h' = h := by
      cases h; cases h'; cases hsame; cases hgen'; rfl
    exact ⟨e₀, hfinds₀, (sec.editThrough_self hedit e₀).symm⟩
  · have hfinds₀ : d.entry? h = some e := BoardState.finds_iff.mpr ⟨hslot₀, hgen⟩
    refine ⟨e, hfinds₀, ?_⟩
    unfold BoardSection.editThrough
    split
    · next h' edit hedit =>
      split
      · next heq =>
        subst heq
        -- the section goes through the handle after all, and has made no difference
        rw [after_of_edit? hedit] at hslot
        have hset := BoardState.slot?_modify hfinds₀ edit.edit h'.slot
        rw [if_pos rfl] at hset
        exact Option.some.inj (hslot.symm.trans hset)
      · rfl
    · rfl

/-- **A handle that finds an entry after a list of sections has found it before**, and each of
them has done to it what it does through this handle. -/
theorem entry?_edited (hdetached : d.entry? Handle.detached = none)
    (hgiven : h.generation ≤ d.state.allocations) {sections : List BoardSection} {e : Entry}
    (hfinds : entry? (d.run sections) h = some e) :
    ∃ e₀, d.entry? h = some e₀ ∧ e = sections.foldl (fun e sec => sec.editThrough h e) e₀ := by
  induction sections generalizing d with
  | nil => exact ⟨e, hfinds, rfl⟩
  | cons sec rest ih =>
    obtain ⟨e₁, hfinds₁, rfl⟩ := ih (detached_finds_none_after hdetached sec)
      (Nat.le_trans hgiven (allocations_le_after d sec)) hfinds
    obtain ⟨e₀, hfinds₀, rfl⟩ := entry?_after hdetached hgiven hfinds₁
    exact ⟨e₀, hfinds₀, rfl⟩

/-- **A handle that is given out finds the entry that was announced**, or nothing. -/
theorem entry?_announced (hdetached : d.entry? Handle.detached = none) (r : EntryRequest)
    (now : Moment) {e : Entry} (hfinds : entry? (d.track r now).2 (d.track r now).1 = some e) :
    ∃ slot generation, e = r.entry slot generation now := by
  cases hk : d.state.nextSlot? with
  | none =>
    rw [(track_of_full hdetached hk r now).1] at hfinds
    exact absurd (hfinds.symm.trans (detached_finds_none_after hdetached (.track r now)))
      (by simp)
  | some k =>
    have hhandle : (d.track r now).1 = ⟨k, d.state.allocations + 1⟩ :=
      BoardState.allocate_fst hk r.name r.initial r.total now
    rw [hhandle] at hfinds
    have hslot := (BoardState.finds_iff.mp hfinds).1
    rw [slot?_track hk, if_pos rfl] at hslot
    exact ⟨k, _, (Option.some.inj hslot).symm⟩

end Dashboard
end TransferBoard
