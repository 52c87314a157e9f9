import TransferBoard.Board.Frame

/-!
# What the operations do to the slots

Each operation on the state of the dashboard is described by the slot lookup
`slot?` and the number of allocations after it.  Everything about entries and
handles is derived from these equations.

## Main results

* `slot?_allocate`, `allocate_eq_detached` — a new entry goes to one slot, and
  without a free slot nothing happens.
* `slot?_modify`, `modify_of_finds_none` — a change through a handle reaches
  the entry of that handle, and without one nothing happens.
* `slot?_clear` — forgetting everything empties the slots.
-/

namespace TransferBoard
namespace BoardState

/-! ### Finding the entry of a handle -/

theorem finds_iff {s : BoardState} {h : Handle} {e : Entry} :
    s.entry? h = some e ↔ s.slot? h.slot = some e ∧ e.generation = h.generation := by
  unfold entry?
  simp only [Option.filter_eq_some_iff, Entry.isOf, beq_iff_eq]

theorem getElem?_of_finds {s : BoardState} {h : Handle} {e : Entry}
    (hfinds : s.entry? h = some e) : s.slots[h.slot]? = some (some e) :=
  Option.join_eq_some_iff.mp (finds_iff.mp hfinds).1

/-! ### Allocation -/

theorem nextSlot?_le {s : BoardState} {i : Nat} (h : s.nextSlot? = some i) :
    i ≤ s.slots.length := by
  unfold nextSlot? at h
  split at h
  · next j hj =>
    obtain ⟨hlt, -⟩ := List.findIdx?_eq_some_iff_getElem.mp hj
    have : j = i := Option.some.inj h
    omega
  · split at h
    · have : s.slots.length = i := Option.some.inj h
      omega
    · exact absurd h (by simp)

theorem getElem?_placeEntry {slots : List (Option Entry)} {k : Nat} (hk : k ≤ slots.length)
    (e : Entry) (i : Nat) :
    (placeEntry slots k e)[i]?.join = if i = k then some e else slots[i]?.join := by
  unfold placeEntry
  split
  · next hlt =>
    rw [List.getElem?_set]
    by_cases hi : k = i
    · subst hi; simp [hlt]
    · simp [hi, Ne.symm hi]
  · next hge =>
    -- the entry goes after the last one
    have hk : k = slots.length := by omega
    subst hk
    rw [List.getElem?_append]
    by_cases hi : i = slots.length
    · subst hi; simp
    · rcases Nat.lt_or_gt_of_ne hi with hlt | hgt
      · simp [hlt, hi]
      · have h1 : ¬ i < slots.length := by omega
        have h2 : i - slots.length ≠ 0 := by omega
        have h3 : slots[i]? = none := List.getElem?_eq_none (by omega)
        rw [if_neg h1, if_neg hi, h3]
        rw [List.getElem?_eq_none (by simp; omega)]

/-- Without a free slot an allocation changes nothing. -/
theorem allocate_eq_detached {s : BoardState} (h : s.nextSlot? = none) (name : String)
    (initial total : UInt64) (now : Moment) :
    s.allocate name initial total now = (Handle.detached, s) := by
  rw [allocate, h]

theorem allocate_fst {s : BoardState} {k : Nat} (h : s.nextSlot? = some k) (name : String)
    (initial total : UInt64) (now : Moment) :
    (s.allocate name initial total now).1 = ⟨k, s.allocations + 1⟩ := by
  rw [allocate, h]

theorem allocations_allocate {s : BoardState} {k : Nat} (h : s.nextSlot? = some k) (name : String)
    (initial total : UInt64) (now : Moment) :
    (s.allocate name initial total now).2.allocations = s.allocations + 1 := by
  rw [allocate, h]

/-- An allocation puts its entry into one slot and leaves the others. -/
theorem slot?_allocate {s : BoardState} {k : Nat} (h : s.nextSlot? = some k) (name : String)
    (initial total : UInt64) (now : Moment) (i : Nat) :
    (s.allocate name initial total now).2.slot? i =
      if i = k then some (Entry.new k (s.allocations + 1) name initial total now)
      else s.slot? i := by
  rw [allocate, h]
  exact getElem?_placeEntry (nextSlot?_le h) _ i

/-! ### Changes through a handle -/

/-- A handle that finds no entry changes nothing. -/
theorem modify_of_finds_none {s : BoardState} {h : Handle} (hnone : s.entry? h = none)
    (f : Entry → Entry) : s.modify h f = s := by
  rw [modify, hnone]

/-- A handle that finds an entry changes that one and no other. -/
theorem slot?_modify {s : BoardState} {h : Handle} {e : Entry} (hsome : s.entry? h = some e)
    (f : Entry → Entry) (i : Nat) :
    (s.modify h f).slot? i = if i = h.slot then some (f e) else s.slot? i := by
  have hslot := (finds_iff.mp hsome).1
  have hlt : h.slot < s.slots.length := by
    by_cases hlt : h.slot < s.slots.length
    · exact hlt
    · rw [slot?, List.getElem?_eq_none (by omega)] at hslot
      simp at hslot
  rw [modify, hsome]
  simp only [slot?, List.getElem?_set]
  by_cases hi : h.slot = i
  · subst hi; simp [hlt]
  · simp [hi, Ne.symm hi]

@[simp] theorem allocations_modify (s : BoardState) (h : Handle) (f : Entry → Entry) :
    (s.modify h f).allocations = s.allocations := by
  rw [modify]
  split <;> rfl

/-! ### Forgetting everything -/

@[simp] theorem slot?_clear (s : BoardState) (i : Nat) : s.clear.slot? i = none := rfl

end BoardState
end TransferBoard
