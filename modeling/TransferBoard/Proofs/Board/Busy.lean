import TransferBoard.Proofs.Board.Bytes

/-!
# Active entries

An announcement makes an active entry where none was, and the entry stays active until its
transfer is finished or stopped, through its own handle.  What else is done to the dashboard
leaves the number of active entries alone, up to the teardown, which leaves none.

## Main definitions

* `BoardSection.ends?` — the handle of the transfer that a section ends.
* `BoardSection.isQuiet` — the section announces and ends no transfer, and is not the teardown.
* `Dashboard.Keeps d d' h` — the handle finds as much on the second dashboard as on the first
  one.

## Main results

* `activeCount_track`, `activeCount_ends`, `activeCount_quiet`, `activeCount_teardown` — the
  number of active entries after a section.
* `keeps_after` — a section keeps what a handle finds, unless it ends that transfer.
-/

namespace TransferBoard

namespace BoardSection

/-- The transfer that a section ends. -/
def ends? : BoardSection → Option Handle
  | markFinished h | markStopped h _ => some h
  | _ => none

/-- The section announces and ends no transfer, and is not the teardown. -/
def isQuiet : BoardSection → Bool
  | track _ _ | markFinished _ | markStopped _ _ | teardown => false
  | _ => true

theorem ends?_of_isQuiet {sec : BoardSection} (h : sec.isQuiet = true) : sec.ends? = none := by
  cases sec with
  | markFinished h' => exact nomatch h
  | markStopped h' reason => exact nomatch h
  | _ => rfl

theorem ne_teardown_of_isQuiet {sec : BoardSection} (h : sec.isQuiet = true) :
    sec ≠ .teardown := by
  rintro rfl
  exact nomatch h

/-- What a section does through the handle of another transfer, or without ending it, leaves
the entry active or not. -/
theorem active_editThrough {h : Handle} {sec : BoardSection} (hends : sec.ends? ≠ some h)
    (e : Entry) : (sec.editThrough h e).active = e.active := by
  unfold editThrough
  cases sec with
  | markFinished h' =>
    have hne : h' ≠ h := fun heq => hends (heq ▸ rfl)
    simp only [edit?, if_neg hne]
  | markStopped h' reason =>
    have hne : h' ≠ h := fun heq => hends (heq ▸ rfl)
    simp only [edit?, if_neg hne]
  | setPath h' path => simp only [edit?]; split <;> rfl
  | advance h' delta hint => simp only [edit?]; split <;> rfl
  | settleDigest h' result =>
    simp only [edit?]
    split
    · cases result <;> rfl
    · rfl
  | _ => rfl

end BoardSection

namespace BoardState

variable {s : BoardState} {h : Handle} {e : Entry}

/-- The active entries are counted by their slots. -/
theorem activeCount_eq (s : BoardState) :
    s.activeCount = s.slots.countP fun slot => slot.any Entry.active := by
  rw [activeCount, entries, ← List.countP_eq_length_filter, List.countP_filterMap]
  refine List.countP_congr fun slot _ => ?_
  cases slot <;> simp

theorem activeCount_modify (hfinds : s.entry? h = some e) (f : Entry → Entry) :
    (s.modify h f).activeCount + (if e.active then 1 else 0) =
      s.activeCount + (if (f e).active then 1 else 0) := by
  have hslot := getElem?_of_finds hfinds
  obtain ⟨hlt, hget⟩ := List.getElem?_eq_some_iff.mp hslot
  have hmodified : (s.modify h f).slots = s.slots.set h.slot (some (f e)) := by
    rw [modify, hfinds]
  rw [activeCount_eq, activeCount_eq, hmodified, List.countP_set hlt, hget]
  simp only [Option.any_some]
  -- what is taken away is there
  have hcounted : (if e.active = true then 1 else 0) ≤
      s.slots.countP fun slot => slot.any Entry.active := by
    split
    · next hactive =>
      refine List.countP_pos_iff.mpr ⟨some e, List.mem_of_getElem? hslot, ?_⟩
      simpa using hactive
    · exact Nat.zero_le _
  omega

/-- A new entry goes to a slot in which no entry is active. -/
theorem inactive_of_nextSlot? {k : Nat} (hk : s.nextSlot? = some k) (he : s.slot? k = some e) :
    e.active = false := by
  unfold nextSlot? at hk
  split at hk
  · next i hi =>
    obtain rfl := Option.some.inj hk
    obtain ⟨hlt, hreusable, -⟩ := List.findIdx?_eq_some_iff_getElem.mp hi
    rw [slot?, List.getElem?_eq_getElem hlt, Option.join_some] at he
    rw [he] at hreusable
    simpa [reusable] using hreusable
  · split at hk
    · obtain rfl := Option.some.inj hk
      rw [slot?, List.getElem?_eq_none (Nat.le_refl _)] at he
      exact absurd he (by simp)
    · exact absurd hk (by simp)

theorem activeCount_allocate {k : Nat} (hk : s.nextSlot? = some k) (name : String)
    (initial total : UInt64) (now : Moment) :
    (s.allocate name initial total now).2.activeCount = s.activeCount + 1 := by
  have hslots : (s.allocate name initial total now).2.slots =
      placeEntry s.slots k (Entry.new k (s.allocations + 1) name initial total now) := by
    rw [allocate, hk]
  rw [activeCount_eq, activeCount_eq, hslots, placeEntry]
  split
  · next hlt =>
    -- what was in the slot before is not counted: nothing, or an entry that has ended
    have hold : Option.any Entry.active s.slots[k] = false := by
      cases hget : s.slots[k] with
      | none => rfl
      | some e =>
        refine inactive_of_nextSlot? hk ?_
        rw [slot?, List.getElem?_eq_getElem hlt, hget, Option.join_some]
    rw [List.countP_set hlt, hold]
    rfl
  · rw [List.countP_append]
    rfl

end BoardState

namespace Dashboard

variable {d : Dashboard} {h : Handle} {sec : BoardSection}

/-! ### The number of active entries -/

theorem activeCount_track (hdetached : d.entry? Handle.detached = none) (r : EntryRequest)
    (now : Moment) :
    (d.track r now).2.state.activeCount = d.state.activeCount +
        (if (Dashboard.entry? (d.track r now).2 (d.track r now).1).isSome then 1 else 0) ∧
      ∀ e, entry? (d.track r now).2 (d.track r now).1 = some e → e.active = true := by
  cases hk : d.state.nextSlot? with
  | none =>
    obtain ⟨hhandle, hsame⟩ := track_of_full hdetached hk r now
    have hnone : entry? (d.track r now).2 Handle.detached = none := by
      unfold entry?
      rw [hsame]
      exact hdetached
    rw [hhandle, hnone, hsame]
    exact ⟨rfl, fun e he => (nomatch he)⟩
  | some k =>
    have hhandle : (d.track r now).1 = ⟨k, d.state.allocations + 1⟩ :=
      BoardState.allocate_fst hk r.name r.initial r.total now
    have hfinds : entry? (d.track r now).2 ⟨k, d.state.allocations + 1⟩ =
        some (r.entry k (d.state.allocations + 1) now) := by
      refine BoardState.finds_iff.mpr ⟨?_, rfl⟩
      rw [slot?_track hk, if_pos rfl]
    -- the entry is made, and what is told of it does not end it
    have hmade : BoardState.entry? (d.state.allocate r.name r.initial r.total now).2
        ⟨k, d.state.allocations + 1⟩ =
          some (Entry.new k (d.state.allocations + 1) r.name r.initial r.total now) := by
      refine BoardState.finds_iff.mpr ⟨?_, rfl⟩
      rw [BoardState.slot?_allocate hk, if_pos rfl]
    have hcount : (d.track r now).2.state.activeCount = d.state.activeCount + 1 := by
      have htold := BoardState.activeCount_modify hmade r.edit.edit
      have hcounted := BoardState.activeCount_allocate hk r.name r.initial r.total now
      have hstate : (d.track r now).2.state =
          (d.state.allocate r.name r.initial r.total now).2.modify
            ⟨k, d.state.allocations + 1⟩ r.edit.edit := by
        rw [← BoardState.allocate_fst hk r.name r.initial r.total now]
        rfl
      rw [hstate, ← hcounted]
      exact Nat.add_right_cancel htold
    rw [hhandle, hfinds, hcount]
    refine ⟨rfl, fun e he => ?_⟩
    obtain rfl := Option.some.inj he
    rfl

/-- A new transfer has a number that has not been given out, or is not tracked. -/
theorem handle_track (d : Dashboard) (r : EntryRequest) (now : Moment) :
    (d.track r now).1 = Handle.detached ∨
      (d.track r now).1.generation = d.state.allocations + 1 := by
  cases hk : d.state.nextSlot? with
  | none =>
    left
    exact congrArg Prod.fst (BoardState.allocate_eq_detached hk r.name r.initial r.total now)
  | some k =>
    right
    exact congrArg Handle.generation (BoardState.allocate_fst hk r.name r.initial r.total now)

/-- A section that ends a transfer ends one active entry, or none. -/
theorem activeCount_ends (hends : sec.ends? = some h)
    (hactive : ∀ e, d.entry? h = some e → e.active = true) :
    (d.after sec).state.activeCount + (if (d.entry? h).isSome then 1 else 0) =
      d.state.activeCount := by
  obtain ⟨edit, hedit, hended⟩ : ∃ edit, sec.edit? = some (h, edit) ∧
      ∀ e, (edit.edit e).active = false := by
    cases sec with
    | markFinished h' => cases hends; exact ⟨_, rfl, Entry.active_finish⟩
    | markStopped h' reason => cases hends; exact ⟨_, rfl, fun _ => rfl⟩
    | _ => exact nomatch hends
  rw [after_of_edit? hedit, modify]
  cases hfinds : d.entry? h with
  | none => rw [BoardState.modify_of_finds_none hfinds]; rfl
  | some e =>
    have hcount := BoardState.activeCount_modify hfinds edit.edit
    rw [hended e, hactive e hfinds] at hcount
    simpa using hcount

theorem slots_of_edit?_none (hquiet : sec.isQuiet = true) (hedit : sec.edit? = none) :
    (d.after sec).state.slots = d.state.slots := by
  cases sec with
  | redraw forced now =>
    rw [after, redraw]
    split
    · rfl
    split <;> rfl
  | register name path expected => rfl
  | applyKey key => rfl
  | track r now => exact absurd hquiet (by simp [BoardSection.isQuiet])
  | teardown => exact absurd hquiet (by simp [BoardSection.isQuiet])
  | _ => exact absurd hedit (by simp [BoardSection.edit?])

theorem activeCount_quiet (d : Dashboard) (hquiet : sec.isQuiet = true) :
    (d.after sec).state.activeCount = d.state.activeCount := by
  cases hedit : sec.edit? with
  | none =>
    rw [BoardState.activeCount_eq, BoardState.activeCount_eq, slots_of_edit?_none hquiet hedit]
  | some change =>
    obtain ⟨h, edit⟩ := change
    have hends : sec.ends? ≠ some h := by
      rw [BoardSection.ends?_of_isQuiet hquiet]
      exact nofun
    rw [after_of_edit? hedit, modify]
    cases hfinds : d.state.entry? h with
    | none => rw [BoardState.modify_of_finds_none hfinds]
    | some e =>
      have hcount := BoardState.activeCount_modify hfinds edit.edit
      have hactive := BoardSection.active_editThrough hends e
      rw [BoardSection.editThrough_self hedit] at hactive
      rw [hactive] at hcount
      exact Nat.add_right_cancel hcount

theorem activeCount_teardown (hlive : d.live = true) :
    d.teardown.state.activeCount = 0 ∧ ∀ h, d.teardown.entry? h = none := by
  simp only [teardown, hlive, if_true]
  exact ⟨rfl, fun h => rfl⟩

/-! ### What handles find -/

/-- The handle finds as much on the second dashboard as on the first one. -/
structure Keeps (d d' : Dashboard) (h : Handle) : Prop where
  /-- What it finds later it has found before. -/
  found : ∀ e, d'.entry? h = some e → ∃ e₀, d.entry? h = some e₀ ∧ e.active = e₀.active
  /-- An active entry that it has found it finds later. -/
  finds : ∀ e₀, d.entry? h = some e₀ → e₀.active = true → (d'.entry? h).isSome = true

theorem Keeps.refl (d : Dashboard) (h : Handle) : d.Keeps d h where
  found e he := ⟨e, he, rfl⟩
  finds e₀ he _ := Option.isSome_iff_exists.mpr ⟨e₀, he⟩

/-- An active entry is not lost, but by the teardown. -/
theorem finds_after (hdetached : d.entry? Handle.detached = none) (hsec : sec ≠ .teardown)
    {e : Entry} (hfinds : d.entry? h = some e) (hactive : e.active = true) :
    (Dashboard.entry? (d.after sec) h).isSome = true := by
  obtain ⟨hslot, hgen⟩ := BoardState.finds_iff.mp hfinds
  have hfound : ∀ e', (d.after sec).state.slot? h.slot = some e' → e'.generation = h.generation →
      (Dashboard.entry? (d.after sec) h).isSome = true := fun e' hslot' hgen' =>
    Option.isSome_iff_exists.mpr ⟨e', BoardState.finds_iff.mpr ⟨hslot', hgen'⟩⟩
  cases hedit : sec.edit? with
  | some change =>
    obtain ⟨h', edit⟩ := change
    rw [after_of_edit? hedit, modify] at hfound ⊢
    cases hfinds' : d.state.entry? h' with
    | none =>
      rw [BoardState.modify_of_finds_none hfinds'] at hfound ⊢
      exact hfound e hslot hgen
    | some e₀ =>
      have hslots := BoardState.slot?_modify hfinds' edit.edit h.slot
      by_cases hsame : h.slot = h'.slot
      · -- the slot holds one entry
        have hslot₀ := (BoardState.finds_iff.mp hfinds').1
        rw [← hsame] at hslot₀
        obtain rfl := Option.some.inj (hslot₀.symm.trans hslot)
        rw [if_pos hsame] at hslots
        exact hfound _ hslots ((edit.generation_edit e₀).trans hgen)
      · rw [if_neg hsame] at hslots
        exact hfound e (hslots.trans hslot) hgen
  | none =>
    cases sec with
    | track r now =>
      cases hk : d.state.nextSlot? with
      | none =>
        refine hfound e ?_ hgen
        rw [after, (track_of_full hdetached hk r now).2]
        exact hslot
      | some k =>
        have hne : h.slot ≠ k := by
          rintro rfl
          exact absurd (BoardState.inactive_of_nextSlot? hk hslot) (by simp [hactive])
        refine hfound e ?_ hgen
        rw [after, slot?_track hk, if_neg hne]
        exact hslot
    | teardown => exact absurd rfl hsec
    | redraw forced now =>
      refine hfound e ?_ hgen
      rw [after, (state_redraw d forced now).1]
      exact hslot
    | register name path expected => exact hfound e hslot hgen
    | applyKey key => exact hfound e hslot hgen
    | _ => exact absurd hedit (by simp [BoardSection.edit?])

/-- **A section keeps what a handle finds**, unless it ends that transfer or everything. -/
theorem keeps_after (hdetached : d.entry? Handle.detached = none)
    (hgiven : h.generation ≤ d.state.allocations) (hsec : sec ≠ .teardown)
    (hends : sec.ends? ≠ some h) : d.Keeps (d.after sec) h where
  found e he := by
    obtain ⟨e₀, hfinds, rfl⟩ := entry?_after hdetached hgiven he
    exact ⟨e₀, hfinds, BoardSection.active_editThrough hends e₀⟩
  finds _ hfinds hactive := finds_after hdetached hsec hfinds hactive

/-- What a handle does not find it does not find later. -/
theorem keeps_of_finds_none (hdetached : d.entry? Handle.detached = none)
    (hgiven : h.generation ≤ d.state.allocations) (hnone : d.entry? h = none)
    (sec : BoardSection) : d.Keeps (d.after sec) h where
  found e he := by
    obtain ⟨e₀, hfinds, -⟩ := entry?_after hdetached hgiven he
    exact nomatch hnone.symm.trans hfinds
  finds e₀ hfinds := nomatch hnone.symm.trans hfinds

end Dashboard
end TransferBoard
