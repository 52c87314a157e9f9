import TransferBoard.Proofs.Board.Flags
import TransferBoard.Proofs.Board.FreeSlots

/-!
# Scrolling

Three values decide which entries are shown: the scroll offset, which the keys move, the number of
entries, which new transfers raise, and the number of entries that fit, which a frame takes over
from its surface.  Each of them changes without the other two, and yet the offset never leaves its
range: while there are more entries than fit, those from the offset on fill the screen.  So the
keys reach each end of the list and everything in between.

## Main definitions

* `BoardState.Reached` — a state that operations lead to, any change of an entry among them.
* `BoardState.InRange` — one entry fits at least, and the offset leaves no room unused.
* `BoardState.scrolledTo` — the state with another offset.
* `BoardAction.control?` — what an operation asks for, by a key or directly.

## Main results

* `entryCount_le_after` — no operation but the one that forgets everything takes an entry away.
* `inRange_after`, `inRange_of_reached` — the offset stays in its range.
* `run_scrollDown`, `run_scrollUp` — where a number of steps down or up leads to.
* `every_entry_can_be_scrolled_to` — the range, the steps, and that they reach every entry.
-/

namespace TransferBoard

/-- What an operation asks for, by a key or directly. -/
def BoardAction.control? : BoardAction → Option ControlAction
  | .key pressed => controlAction? pressed
  | .act action => some action
  | _ => none

namespace BoardState

/-- The state with another scroll offset. -/
def scrolledTo (s : BoardState) (offset : Nat) : BoardState :=
  { s with controls := { s.controls with scrollOffset := offset } }

/-- A state that operations on the empty one lead to, among them any change at all of the entry of
a handle, also of what the operations of producers leave alone. -/
inductive Reached : BoardState → Prop
  /-- Nothing has happened. -/
  | start : Reached {}
  /-- There was an operation. -/
  | after {s : BoardState} (a : BoardAction) : Reached s → Reached (s.after a)
  /-- The entry of a handle was changed in some way. -/
  | modify {s : BoardState} (h : Handle) (f : Entry → Entry) : Reached s → Reached (s.modify h f)

/-- One entry fits on the screen at least, and the scroll offset is at most the largest one at
which the entries fill the screen. -/
structure InRange (s : BoardState) : Prop where
  /-- One entry fits at least. -/
  capacity : 1 ≤ s.controls.visibleCapacity
  /-- The offset leaves no room unused. -/
  offset : s.controls.scrollOffset ≤ s.entryCount - s.controls.visibleCapacity

variable {s : BoardState}

/-! ### The number of entries -/

theorem entryCount_eq (s : BoardState) : s.entryCount = s.slots.countP Option.isSome :=
  List.length_filterMap_eq_countP

/-- An entry that is put into a slot adds to the entries, or takes the place of one. -/
theorem countP_le_set (slots : List (Option Entry)) (i : Nat) (e : Entry) :
    slots.countP Option.isSome ≤ (slots.set i (some e)).countP Option.isSome := by
  by_cases hi : i < slots.length
  · rw [List.countP_set hi]
    simp only [Option.isSome_some, if_true]
    split <;> omega
  · rw [List.set_eq_of_length_le (Nat.not_lt.mp hi)]

theorem countP_le_placeEntry (slots : List (Option Entry)) (k : Nat) (e : Entry) :
    slots.countP Option.isSome ≤ (placeEntry slots k e).countP Option.isSome := by
  unfold placeEntry
  split
  · exact countP_le_set slots k e
  · rw [List.countP_append]
    exact Nat.le_add_right _ _

/-- **No operation takes an entry away**, but the one that forgets everything. -/
theorem entryCount_le_after {a : BoardAction} (ha : a ≠ .clear) :
    s.entryCount ≤ (s.after a).entryCount := by
  rw [entryCount_eq, entryCount_eq]
  rcases slots_after_cases s a with hsame | ⟨k, e, -, hplaced, -⟩ | ⟨i, e, hset⟩ | ⟨hclear, -⟩
  · rw [hsame]
  · rw [hplaced]
    exact countP_le_placeEntry s.slots k e
  · rw [hset]
    exact countP_le_set s.slots i e
  · exact absurd hclear ha

theorem entryCount_le_modify (s : BoardState) (h : Handle) (f : Entry → Entry) :
    s.entryCount ≤ (s.modify h f).entryCount := by
  rw [entryCount_eq, entryCount_eq]
  unfold modify
  split
  · exact countP_le_set s.slots _ _
  · exact Nat.le_refl _

/-! ### The range of the offset -/

/-- More entries leave the offset in its range. -/
theorem InRange.of_more {s' : BoardState} (h : s.InRange) (hcontrols : s'.controls = s.controls)
    (hcount : s.entryCount ≤ s'.entryCount) : s'.InRange where
  capacity := hcontrols ▸ h.capacity
  offset := by
    have hoffset := h.offset
    rw [hcontrols]
    omega

theorem inRange_clampScroll (hcapacity : 1 ≤ s.controls.visibleCapacity) :
    s.clampScroll.InRange where
  capacity := hcapacity
  offset := Nat.min_le_right _ _

/-- A frame leaves the offset in its range, whatever the size of the screen. -/
theorem inRange_fitTo (s : BoardState) (height : Nat) :
    (s.fitTo (visibleCapacity height)).InRange :=
  inRange_clampScroll (Nat.le_max_right _ _)

/-- What is asked for is done to the controls, over the entries that there are. -/
theorem act_eq (s : BoardState) (action : ControlAction) : s.act action =
    ((s.controls.act s.entryCount action).1,
      { s with controls := (s.controls.act s.entryCount action).2 }) := rfl

theorem inRange_act (h : s.InRange) (action : ControlAction) : (s.act action).2.InRange := by
  obtain ⟨hcapacity, hoffset⟩ := h
  rw [act_eq]
  cases action with
  | togglePause => exact ⟨hcapacity, hoffset⟩
  | cancel => exact ⟨hcapacity, hoffset⟩
  | scrollDown =>
    rw [Controls.act, Controls.scrollDown]
    split
    · next hmore =>
      refine ⟨hcapacity, ?_⟩
      show s.controls.scrollOffset + 1 ≤ s.entryCount - s.controls.visibleCapacity
      omega
    · exact ⟨hcapacity, hoffset⟩
  | scrollUp =>
    rw [Controls.act, Controls.scrollUp]
    split
    · exact ⟨hcapacity, Nat.le_trans (Nat.sub_le _ 1) hoffset⟩
    · exact ⟨hcapacity, hoffset⟩

/-- A key does what it asks for. -/
theorem applyKey_of_controlAction? {key : Key} {action : ControlAction}
    (hkey : controlAction? key = some action) : s.applyKey key = s.act action := by
  unfold applyKey Controls.apply
  rw [hkey]
  rfl

theorem after_of_control? {a : BoardAction} {action : ControlAction}
    (ha : a.control? = some action) : s.after a = (s.act action).2 := by
  cases a with
  | key key => rw [after, applyKey_of_controlAction? ha]
  | act action' =>
    obtain rfl := Option.some.inj ha
    rfl
  | _ => exact absurd ha (by simp [BoardAction.control?])

theorem inRange_key (h : s.InRange) (key : Key) : (s.applyKey key).2.InRange := by
  cases hkey : controlAction? key with
  | none =>
    unfold applyKey Controls.apply
    rw [hkey]
    exact h
  | some action =>
    rw [applyKey_of_controlAction? hkey]
    exact inRange_act h action

/-- **Every operation leaves the offset in its range.** -/
theorem inRange_after (h : s.InRange) (a : BoardAction) : (s.after a).InRange := by
  cases a with
  | allocate name initial total now =>
    exact h.of_more (s.allocate_rest name initial total now).1
      (entryCount_le_after (a := .allocate name initial total now) BoardAction.noConfusion)
  | modify hd edit => exact h.of_more (s.modify_rest hd edit.edit).1 (s.entryCount_le_modify _ _)
  | key key => exact inRange_key h key
  | act action => exact inRange_act h action
  | clampScroll => exact inRange_clampScroll h.capacity
  | render surface now => exact s.inRange_fitTo surface.height
  | register file => exact h.of_more rfl (Nat.le_refl _)
  | clear => exact ⟨Nat.le_refl 1, Nat.zero_le _⟩

theorem reached_run (h : s.Reached) (actions : List BoardAction) : (s.run actions).Reached := by
  induction actions generalizing s with
  | nil => exact h
  | cons a actions ih => exact ih (.after a h)

/-- **The offset is always in its range.** -/
theorem inRange_of_reached (h : s.Reached) : s.InRange := by
  induction h with
  | start => exact ⟨Nat.le_refl 1, Nat.zero_le _⟩
  | after a _ ih => exact inRange_after ih a
  | modify hd f _ ih => exact ih.of_more (modify_rest _ hd f).1 (entryCount_le_modify _ hd f)

/-! ### Steps down and up -/

/-- A step down, unless the offset is the largest one. -/
theorem act_scrollDown (h : s.InRange) : (s.act .scrollDown).2 =
    s.scrolledTo (min (s.controls.scrollOffset + 1) s.maxScroll) := by
  have hoffset := h.offset
  have hmax : s.maxScroll = s.entryCount - s.controls.visibleCapacity := rfl
  rw [act_eq, Controls.act, Controls.scrollDown]
  split
  · next hmore =>
    rw [Nat.min_eq_left (by omega)]
    rfl
  · next hend =>
    have hstays : min (s.controls.scrollOffset + 1) s.maxScroll = s.controls.scrollOffset := by
      omega
    rw [hstays]
    rfl

/-- A step up, unless the list is shown from its start. -/
theorem act_scrollUp (s : BoardState) :
    (s.act .scrollUp).2 = s.scrolledTo (s.controls.scrollOffset - 1) := by
  rw [act_eq, Controls.act, Controls.scrollUp]
  split
  · rfl
  · next hstart =>
    have hstays : s.controls.scrollOffset - 1 = s.controls.scrollOffset := by omega
    rw [hstays]
    rfl

/-- **A number of steps down** leads that much further, but not beyond the largest offset. -/
theorem run_scrollDown (h : s.InRange) {downs : List BoardAction}
    (hdowns : ∀ a ∈ downs, a.control? = some .scrollDown) : s.run downs =
      s.scrolledTo (min (s.controls.scrollOffset + downs.length) s.maxScroll) := by
  induction downs generalizing s with
  | nil =>
    have hoffset : s.controls.scrollOffset ≤ s.maxScroll := h.offset
    rw [List.length_nil, Nat.add_zero, Nat.min_eq_left hoffset]
    rfl
  | cons a downs ih =>
    have hstep : s.after a = s.scrolledTo (min (s.controls.scrollOffset + 1) s.maxScroll) := by
      rw [after_of_control? (hdowns a List.mem_cons_self), act_scrollDown h]
    have hrest := ih (s := s.after a) (inRange_after h a)
      fun b hb => hdowns b (List.mem_cons_of_mem _ hb)
    -- one step and then the others are as many steps, also when the end is reached in between
    have hsteps : min (min (s.controls.scrollOffset + 1) s.maxScroll + downs.length) s.maxScroll =
        min (s.controls.scrollOffset + (downs.length + 1)) s.maxScroll := by omega
    rw [hstep] at hrest
    show (s.after a).run downs = _
    rw [hstep, hrest, List.length_cons, ← hsteps]
    rfl

/-- **A number of steps up** leads that much back, but not beyond the start. -/
theorem run_scrollUp {ups : List BoardAction} (hups : ∀ a ∈ ups, a.control? = some .scrollUp) :
    s.run ups =
      s.scrolledTo (s.controls.scrollOffset - min ups.length s.controls.scrollOffset) := by
  induction ups generalizing s with
  | nil =>
    rw [List.length_nil, Nat.zero_min, Nat.sub_zero]
    rfl
  | cons a ups ih =>
    have hstep : s.after a = s.scrolledTo (s.controls.scrollOffset - 1) := by
      rw [after_of_control? (hups a List.mem_cons_self), act_scrollUp]
    have hrest := ih (s := s.after a) fun b hb => hups b (List.mem_cons_of_mem _ hb)
    have hsteps : s.controls.scrollOffset - 1 - min ups.length (s.controls.scrollOffset - 1) =
        s.controls.scrollOffset - min (ups.length + 1) s.controls.scrollOffset := by omega
    rw [hstep] at hrest
    show (s.after a).run ups = _
    rw [hstep, hrest, List.length_cons, ← hsteps]
    rfl

/-- A step tells whether it has moved the list. -/
theorem act_fst_iff {action : ControlAction} (ha : action = .scrollDown ∨ action = .scrollUp) :
    (s.act action).1 = true ↔
      (s.act action).2.controls.scrollOffset ≠ s.controls.scrollOffset := by
  rcases ha with rfl | rfl
  · rw [act_eq, Controls.act, Controls.scrollDown]
    split <;> simp
  · rw [act_eq, Controls.act, Controls.scrollUp]
    split
    · next hmore =>
      simp only [ne_eq, true_iff]
      omega
    · simp

/-! ### Every entry can be reached -/

/-- The entries from the offset on are shown, as many as fit. -/
theorem mem_visible {i : Nat} {e : Entry} (he : s.entries[i]? = some e)
    (hfirst : s.controls.scrollOffset ≤ i)
    (hlast : i < s.controls.scrollOffset + s.controls.visibleCapacity) : e ∈ Frame.visible s := by
  refine List.mem_of_getElem? (i := i - s.controls.scrollOffset) ?_
  rw [Frame.visible, List.getElem?_take_of_lt (by omega), List.getElem?_drop,
    Nat.add_sub_cancel' hfirst]
  exact he

/-- One of the two cursor keys brings an entry on the screen, when it is pressed often enough. -/
theorem exists_presses (h : s.InRange) {i : Nat} (hi : i < s.entryCount) :
    ∃ key n offset, (key = Key.down ∨ key = Key.up) ∧
      s.run (List.replicate n (.key key)) = s.scrolledTo offset ∧
      offset ≤ i ∧ i < offset + s.controls.visibleCapacity := by
  obtain ⟨hcapacity, hoffset⟩ := h
  have hmax : s.maxScroll = s.entryCount - s.controls.visibleCapacity := rfl
  have hkeys : ∀ {key action} (n : Nat), controlAction? key = some action →
      ∀ a ∈ List.replicate n (BoardAction.key key), a.control? = some action := by
    intro key action n hkey a ha
    rw [List.eq_of_mem_replicate ha]
    exact hkey
  by_cases hbefore : i < s.controls.scrollOffset
  · -- up, until the entry is the first one shown
    refine ⟨.up, s.controls.scrollOffset - i, _, .inr rfl, run_scrollUp (hkeys _ rfl), ?_⟩
    rw [List.length_replicate]
    omega
  · -- down, until the entry is the last one shown, unless it is shown already
    refine ⟨.down, i + 1 - s.controls.visibleCapacity - s.controls.scrollOffset, _, .inl rfl,
      run_scrollDown ⟨hcapacity, hoffset⟩ (hkeys _ rfl), ?_⟩
    rw [List.length_replicate]
    omega

/-- **Every entry can be scrolled to.**  In every state that operations on the empty dashboard lead
to — new transfers, changes of entries, keys, scrolling, frames on screens of whatever sizes, and
that everything is forgotten, in any order — one entry fits at least, and the scroll offset is at
most the number of entries less the number that fits.  From there

* any number of steps down, by whichever keys or directly, lead that much further, but to the
  largest offset at most, and change nothing else;
* any number of steps up lead that much back, but to the start at most, and change nothing else;
* a step tells whether it has moved the list, also when it is made by a key;
* each entry is on the screen after one of the cursor keys has been pressed often enough. -/
theorem every_entry_can_be_scrolled_to (h : s.Reached) :
    1 ≤ s.controls.visibleCapacity ∧
    s.controls.scrollOffset ≤ s.entryCount - s.controls.visibleCapacity ∧
    (∀ downs : List BoardAction, (∀ a ∈ downs, a.control? = some .scrollDown) →
      s.run downs = s.scrolledTo (min (s.controls.scrollOffset + downs.length) s.maxScroll)) ∧
    (∀ ups : List BoardAction, (∀ a ∈ ups, a.control? = some .scrollUp) → s.run ups =
      s.scrolledTo (s.controls.scrollOffset - min ups.length s.controls.scrollOffset)) ∧
    (∀ key action, controlAction? key = some action → s.applyKey key = s.act action) ∧
    (∀ action, action = .scrollDown ∨ action = .scrollUp → ((s.act action).1 = true ↔
      (s.act action).2.controls.scrollOffset ≠ s.controls.scrollOffset)) ∧
    ∀ i e, s.entries[i]? = some e → ∃ key n, (key = Key.down ∨ key = Key.up) ∧
      let s' := s.run (List.replicate n (.key key))
      s'.entries = s.entries ∧ s'.controls.scrollOffset ≤ i ∧
        i < s'.controls.scrollOffset + s'.controls.visibleCapacity ∧ e ∈ Frame.visible s' := by
  have hrange := inRange_of_reached h
  refine ⟨hrange.capacity, hrange.offset, fun downs => run_scrollDown hrange,
    fun ups => run_scrollUp, fun key action => applyKey_of_controlAction?,
    fun action => act_fst_iff, fun i e he => ?_⟩
  have hi : i < s.entryCount := (List.getElem?_eq_some_iff.mp he).1
  -- the entry is below what is shown, or above it, or shown already
  obtain ⟨key, n, offset, hkey, hrun, hfirst, hlast⟩ := exists_presses hrange hi
  refine ⟨key, n, hkey, ?_⟩
  rw [hrun]
  exact ⟨rfl, hfirst, hlast, mem_visible he hfirst hlast⟩

/-- Three entries on a screen with room for two, scrolled to the end; then the screen is too low
for more than one, and the last entry is told another slot number.  The first entry is two steps
up. -/
theorem first_entry_is_two_steps_up :
    let s := (BoardState.run {} [.allocate "a" 0 1 0, .allocate "b" 0 1 0, .allocate "c" 0 1 0,
      .render (Surface.new 40 13) 1, .key (.char 'j'), .render (Surface.new 40 9) 2,
      .act .scrollDown]).modify ⟨2, 3⟩ fun e => { e with slot := 7 }
    s.Reached ∧ s.controls.scrollOffset = 2 ∧ s.controls.visibleCapacity = 1 ∧
      s.controls.scrollOffset ≤ s.entryCount - s.controls.visibleCapacity ∧
      s.run [.key (.char 'K'), .act .scrollUp, .key .up] = s.scrolledTo 0 := by
  intro s
  have hreached : s.Reached := .modify _ _ (reached_run .start _)
  obtain ⟨-, hoffset, -, hups, -⟩ := every_entry_can_be_scrolled_to hreached
  exact ⟨hreached, by decide, by decide, hoffset,
    hups [.key (.char 'K'), .act .scrollUp, .key .up] (by decide)⟩

end BoardState
end TransferBoard
