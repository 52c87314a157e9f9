import TransferBoard.Proofs.Board.Slots

/-!
# Runs of the state of the dashboard

A run is a list of operations on the state, in the order in which they are made.
An entry is changed only in ways that leave its identity alone, that is its slot
and the number of its allocation.

## Main definitions

* `EntryEdit` — a change of an entry that leaves its identity alone, with the
  changes that producers make.
* `BoardAction`, `BoardState.after` — one operation, and the state after it.
* `BoardState.run` — the state after a list of operations.
* `BoardState.identity?` — which entry is in a slot.

## Main results

* `identity?_allocate`, `identity?_modify` — which entry is in a slot after an
  allocation, and after a change through a handle.
* `finds_none_run` — a handle that was given out and finds nothing never finds
  anything again.
-/

namespace TransferBoard

/-- A change of an entry that leaves its identity alone. -/
structure EntryEdit where
  /-- The entry after the change. -/
  edit : Entry → Entry
  /-- The slot stays. -/
  slot_edit : ∀ e, (edit e).slot = e.slot
  /-- The number of the allocation stays. -/
  generation_edit : ∀ e, (edit e).generation = e.generation

namespace EntryEdit

/-- More bytes were transferred. -/
def advance (delta : UInt64) (hint : Float) : EntryEdit where
  edit e := e.advance delta hint
  slot_edit _ := rfl
  generation_edit _ := rfl

/-- The file of the transfer is told. -/
def setPath (path : Path) : EntryEdit where
  edit e := { e with path := some path }
  slot_edit _ := rfl
  generation_edit _ := rfl

/-- The file, the kind of digest and the expected digest are told. -/
def announce (path : Option Path) (kind : Option DigestKind) (expected : Option String) :
    EntryEdit where
  edit e := { e with path := path, kind := kind, expected := expected }
  slot_edit _ := rfl
  generation_edit _ := rfl

/-- The transfer is complete. -/
def finish : EntryEdit where
  edit := Entry.finish
  slot_edit e := by unfold Entry.finish; split <;> rfl
  generation_edit e := by unfold Entry.finish; split <;> rfl

/-- The producer has given up. -/
def stop (reason : String) : EntryEdit where
  edit e := e.stop reason
  slot_edit _ := rfl
  generation_edit _ := rfl

/-- The outcome of a digest calculation is stored. -/
def settleDigest (result : Except DigestError String) : EntryEdit where
  edit e := e.settleDigest result
  slot_edit e := by cases result <;> rfl
  generation_edit e := by cases result <;> rfl

end EntryEdit

/-- An operation on the state of the dashboard. -/
inductive BoardAction where
  /-- An entry is made for a transfer. -/
  | allocate (name : String) (initial total : UInt64) (now : Moment)
  /-- The entry of a handle is changed. -/
  | modify (h : Handle) (edit : EntryEdit)
  /-- A key is pressed. -/
  | key (key : Key)
  /-- The pause, the cancel or the scrolling is asked for directly. -/
  | act (action : ControlAction)
  /-- The offset is brought back into its range. -/
  | clampScroll
  /-- A frame is drawn on a surface. -/
  | render (surface : Surface) (now : Moment)
  /-- A file is noted as completed. -/
  | register (file : CompletedFile)
  /-- Everything is forgotten. -/
  | clear

/-- The key that is pressed. -/
def BoardAction.key? : BoardAction → Option Key
  | .key pressed => some pressed
  | _ => none

namespace BoardState

/-- The state after an operation. -/
def after (s : BoardState) : BoardAction → BoardState
  | .allocate name initial total now => (s.allocate name initial total now).2
  | .modify h edit => s.modify h edit.edit
  | .key key => (s.applyKey key).2
  | .act action => (s.act action).2
  | .clampScroll => s.clampScroll
  | .render surface now => (s.render surface now).1
  | .register file => { s with completed := (s.completed.register file).2 }
  | .clear => s.clear

/-- The state after a list of operations. -/
def run (s : BoardState) (actions : List BoardAction) : BoardState := actions.foldl after s

theorem run_append (s : BoardState) (actions actions' : List BoardAction) :
    s.run (actions ++ actions') = (s.run actions).run actions' := List.foldl_append

/-! ### The identity of the entry in a slot -/

/-- The slot and the number that the entry in a slot carries. -/
def identity? (s : BoardState) (i : Nat) : Option Handle :=
  (s.slot? i).map fun e => ⟨e.slot, e.generation⟩

theorem identity?_of_slot? {s : BoardState} {i : Nat} {e : Entry} (h : s.slot? i = some e) :
    s.identity? i = some ⟨e.slot, e.generation⟩ := by
  rw [identity?, h, Option.map_some]

/-- Whether a handle finds an entry is a matter of identities. -/
theorem finds_iff_identity {s : BoardState} {h : Handle} :
    (s.entry? h).isSome ↔ ∃ k, s.identity? h.slot = some ⟨k, h.generation⟩ := by
  simp only [Option.isSome_iff_exists, finds_iff, identity?, Option.map_eq_some_iff,
    Handle.mk.injEq]
  constructor
  · rintro ⟨e, he, hgen⟩
    exact ⟨e.slot, e, he, rfl, hgen⟩
  · rintro ⟨k, e, he, -, hgen⟩
    exact ⟨e, he, hgen⟩

theorem identity?_allocate {s : BoardState} {k : Nat} (h : s.nextSlot? = some k) (name : String)
    (initial total : UInt64) (now : Moment) (i : Nat) :
    (s.allocate name initial total now).2.identity? i =
      if i = k then some ⟨k, s.allocations + 1⟩ else s.identity? i := by
  rw [identity?, slot?_allocate h]
  split <;> rfl

/-- A change through a handle leaves all identities alone. -/
theorem identity?_modify (s : BoardState) (h : Handle) (edit : EntryEdit) (i : Nat) :
    (s.modify h edit.edit).identity? i = s.identity? i := by
  cases hf : s.entry? h with
  | none => rw [modify_of_finds_none hf]
  | some e =>
    rw [identity?, slot?_modify hf]
    split
    · next hi =>
      subst hi
      rw [identity?_of_slot? (finds_iff.mp hf).1, Option.map_some, edit.slot_edit,
        edit.generation_edit]
    · rfl

/-! ### Handles that find nothing -/

theorem allocations_le_after (s : BoardState) (a : BoardAction) :
    s.allocations ≤ (s.after a).allocations := by
  cases a with
  | allocate name initial total now =>
    cases hk : s.nextSlot? with
    | none => simp [after, allocate_eq_detached hk]
    | some k => rw [after, allocations_allocate hk]; omega
  | modify hd edit => simp [after]
  | key key => exact Nat.le_refl _
  | act action => exact Nat.le_refl _
  | clampScroll => exact Nat.le_refl _
  | render surface now => exact Nat.le_refl _
  | register file => exact Nat.le_refl _
  | clear => exact Nat.le_refl _

theorem allocations_le_run (actions : List BoardAction) :
    ∀ s : BoardState, s.allocations ≤ (s.run actions).allocations := by
  induction actions with
  | nil => intro s; exact Nat.le_refl _
  | cons a actions ih => intro s; exact Nat.le_trans (allocations_le_after s a) (ih (s.after a))

/-- A handle that was given out and finds nothing finds nothing after an operation
either: a new entry has a number that no handle has yet. -/
theorem finds_none_after {s : BoardState} {h : Handle} (hle : h.generation ≤ s.allocations)
    (hnone : s.entry? h = none) (a : BoardAction) : entry? (s.after a) h = none := by
  -- an entry that the handle finds afterwards was not there before, so it is new
  suffices hnew : ∀ k, (s.after a).identity? h.slot = some ⟨k, h.generation⟩ →
      s.identity? h.slot = some ⟨k, h.generation⟩ by
    rw [← Option.not_isSome_iff_eq_none] at hnone ⊢
    intro hsome
    obtain ⟨k, hk⟩ := finds_iff_identity.mp hsome
    exact hnone (finds_iff_identity.mpr ⟨k, hnew k hk⟩)
  intro k hk
  cases a with
  | allocate name initial total now =>
    cases hn : s.nextSlot? with
    | none => rwa [after, allocate_eq_detached hn] at hk
    | some j =>
      rw [after, identity?_allocate hn] at hk
      split at hk
      · simp only [Option.some.injEq, Handle.mk.injEq] at hk
        omega
      · exact hk
  | modify hd edit => rwa [after, identity?_modify] at hk
  | clear => exact absurd hk (by simp [after, identity?])
  | _ => exact hk

/-- What a handle does not find it never finds again. -/
theorem finds_none_run {h : Handle} (actions : List BoardAction) :
    ∀ {s : BoardState}, h.generation ≤ s.allocations → s.entry? h = none →
      entry? (s.run actions) h = none := by
  induction actions with
  | nil => intro s _ hnone; exact hnone
  | cons a actions ih =>
    intro s hle hnone
    exact ih (Nat.le_trans hle (allocations_le_after s a)) (finds_none_after hle hnone a)

end BoardState
end TransferBoard
