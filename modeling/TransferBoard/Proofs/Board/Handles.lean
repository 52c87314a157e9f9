import TransferBoard.Proofs.Board.Actions

/-!
# Handles stay with their entries

A slot is used for one transfer after another, and a handle outlives its transfer.
Whether a handle finds an entry is decided by comparing two numbers; what it ought
to find is the entry that its own allocation made.  To say that, a run is recorded:
the log notes, beside the state, the handle that each allocation gave out and, for
each slot, which allocation made the entry that is there.  The log does not look at
the numbers.

## Main definitions

* `BoardLog`, `BoardLog.after`, `BoardLog.run` — a run with its record.
* `BoardLog.Sound` — the invariant: the numbers on handles and entries agree with
  the record.

## Main results

* `sound_run` — every run keeps the invariant.
* `handles_find_their_own_entries` — the safety of handles over whole runs.
-/

namespace TransferBoard

/-- The state of the dashboard with a record of the allocations that led to it. -/
structure BoardLog where
  /-- The state. -/
  board : BoardState := {}
  /-- The handles given out, in the order of the allocations. -/
  handles : List Handle := []
  /-- For each slot, which allocation made the entry that is there. -/
  maker : Nat → Option Nat := fun _ => none

namespace BoardLog

/-- The record of a run after one more operation. -/
def after (l : BoardLog) (a : BoardAction) : BoardLog where
  board := l.board.after a
  handles :=
    match a with
    | .allocate name initial total now =>
      l.handles ++ [(l.board.allocate name initial total now).1]
    | _ => l.handles
  maker :=
    match a with
    | .allocate _ _ _ _ =>
      match l.board.nextSlot? with
      | some k => fun i => if i = k then some l.handles.length else l.maker i
      | none => l.maker
    | .clear => fun _ => none
    | _ => l.maker

@[simp] theorem board_after (l : BoardLog) (a : BoardAction) :
    (l.after a).board = l.board.after a := rfl

/-- The record after a list of operations. -/
def run (l : BoardLog) (actions : List BoardAction) : BoardLog := actions.foldl after l

@[simp] theorem run_nil (l : BoardLog) : l.run [] = l := rfl

@[simp] theorem run_cons (l : BoardLog) (a : BoardAction) (actions : List BoardAction) :
    l.run (a :: actions) = (l.after a).run actions := rfl

/-- The record does not influence the state. -/
theorem board_run (actions : List BoardAction) :
    ∀ l : BoardLog, (l.run actions).board = l.board.run actions := by
  induction actions with
  | nil => intro l; rfl
  | cons a actions ih => intro l; exact ih (l.after a)

/-! ### The invariant -/

/-- The numbers on handles and entries agree with the record. -/
structure Sound (l : BoardLog) : Prop where
  /-- An entry carries its slot, and a number that was given to an allocation. -/
  identity : ∀ i h, l.board.identity? i = some h →
    h.slot = i ∧ 0 < h.generation ∧ h.generation ≤ l.board.allocations
  /-- Different entries carry different numbers. -/
  distinct : ∀ i j h h', l.board.identity? i = some h → l.board.identity? j = some h' →
    h.generation = h'.generation → i = j
  /-- The allocation that made an entry gave out the handle with its identity. -/
  made : ∀ i h, l.board.identity? i = some h →
    ∃ n, l.maker i = some n ∧ l.handles[n]? = some h
  /-- Where no entry is, none was made. -/
  unmade : ∀ i, l.board.identity? i = none → l.maker i = none
  /-- A handle carries a number that was given to an allocation, or zero. -/
  given : ∀ h ∈ l.handles, h.generation ≤ l.board.allocations
  /-- Different allocations gave out different numbers. -/
  injective : ∀ (m n : Nat) (h h' : Handle), l.handles[m]? = some h → l.handles[n]? = some h' →
    h.generation = h'.generation → h.generation ≠ 0 → m = n
  /-- No number was given out without an allocation. -/
  counted : l.board.allocations ≤ l.handles.length

theorem sound_empty : Sound {} where
  identity i h hi := absurd hi (by simp [BoardState.identity?, BoardState.slot?])
  distinct i j h h' hi := absurd hi (by simp [BoardState.identity?, BoardState.slot?])
  made i h hi := absurd hi (by simp [BoardState.identity?, BoardState.slot?])
  unmade _ _ := rfl
  given h hh := absurd hh (by simp)
  injective m n h h' hm := absurd hm (by simp)
  counted := Nat.le_refl _

/-- One more handle with the next number keeps the handles apart. -/
theorem injective_append {handles : List Handle} {g : Handle} {allocations : Nat}
    (hgiven : ∀ h ∈ handles, h.generation ≤ allocations)
    (hg : g.generation = allocations + 1 ∨ g.generation = 0)
    (hinj : ∀ (m n : Nat) (h h' : Handle), handles[m]? = some h → handles[n]? = some h' →
      h.generation = h'.generation → h.generation ≠ 0 → m = n) :
    ∀ (m n : Nat) (h h' : Handle), (handles ++ [g])[m]? = some h → (handles ++ [g])[n]? = some h' →
      h.generation = h'.generation → h.generation ≠ 0 → m = n := by
  -- each of the two handles is an old one or the new one
  have hcases : ∀ (m : Nat) (h : Handle), (handles ++ [g])[m]? = some h →
      handles[m]? = some h ∧ h.generation ≤ allocations ∨ m = handles.length ∧ h = g := by
    intro m h hm
    rw [List.getElem?_append] at hm
    split at hm
    · exact .inl ⟨hm, hgiven h (List.mem_of_getElem? hm)⟩
    · obtain ⟨hlt, hget⟩ := List.getElem?_eq_some_iff.mp hm
      simp only [List.length_singleton] at hlt
      exact .inr ⟨by omega, by simpa using hget.symm⟩
  intro m n h h' hm hn heq hne
  rcases hcases m h hm with ⟨hm, hle⟩ | ⟨rfl, rfl⟩ <;>
    rcases hcases n h' hn with ⟨hn, hle'⟩ | ⟨rfl, rfl⟩
  · exact hinj m n h h' hm hn heq hne
  · omega
  · omega
  · rfl

/-- Without a free slot there is nothing but one more handle that finds nothing. -/
theorem sound_allocate_of_full {l : BoardLog} (hl : l.Sound) (hk : l.board.nextSlot? = none)
    (name : String) (initial total : UInt64) (now : Moment) :
    (l.after (.allocate name initial total now)).Sound := by
  have hafter : l.after (.allocate name initial total now) =
      { l with handles := l.handles ++ [Handle.detached] } := by
    simp only [after, BoardState.after, BoardState.allocate_eq_detached hk, hk]
  rw [hafter]
  refine ⟨hl.identity, hl.distinct, ?made, hl.unmade, ?given, ?injective, ?counted⟩
  case made =>
    intro i h hi
    obtain ⟨n, hn, hget⟩ := hl.made i h hi
    exact ⟨n, hn, List.getElem?_append_left (List.getElem?_eq_some_iff.mp hget).1 ▸ hget⟩
  case given =>
    intro h hh
    rcases List.mem_append.mp hh with hh | hh
    · exact hl.given h hh
    · obtain rfl := List.mem_singleton.mp hh
      exact Nat.zero_le _
  case injective => exact injective_append hl.given (.inr rfl) hl.injective
  case counted =>
    have := hl.counted
    simp only [List.length_append, List.length_singleton]
    omega

/-- A free slot has the next number then, and no other entry has it. -/
theorem sound_allocate_of_free {l : BoardLog} (hl : l.Sound) {k : Nat}
    (hk : l.board.nextSlot? = some k) (name : String) (initial total : UInt64) (now : Moment) :
    (l.after (.allocate name initial total now)).Sound := by
  have hid := BoardState.identity?_allocate hk name initial total now
  have hnum := BoardState.allocations_allocate hk name initial total now
  have hhandles : (l.after (.allocate name initial total now)).handles =
      l.handles ++ [⟨k, l.board.allocations + 1⟩] := by
    simp only [after, BoardState.allocate_fst hk]
  have hmaker : ∀ i, (l.after (.allocate name initial total now)).maker i =
      if i = k then some l.handles.length else l.maker i := by
    intro i
    simp only [after, hk]
  -- one field of the invariant after the other; in each of them the new entry or an old one
  refine ⟨?identity, ?distinct, ?made, ?unmade, ?given, ?injective, ?counted⟩
  case identity =>
    intro i h hi
    rw [board_after, BoardState.after, hid] at hi
    rw [board_after, BoardState.after, hnum]
    split at hi
    · next hik => obtain rfl := Option.some.inj hi; exact ⟨hik.symm, by simp, by simp⟩
    · obtain ⟨h1, h2, h3⟩ := hl.identity i h hi
      exact ⟨h1, h2, by omega⟩
  case distinct =>
    intro i j h h' hi hj heq
    rw [board_after, BoardState.after, hid] at hi hj
    split at hi <;> split at hj
    · next hik hjk => rw [hik, hjk]
    · -- the new number is larger than any that was given before
      obtain rfl := Option.some.inj hi
      have := (hl.identity j h' hj).2.2
      simp only at heq
      omega
    · obtain rfl := Option.some.inj hj
      have := (hl.identity i h hi).2.2
      simp only at heq
      omega
    · exact hl.distinct i j h h' hi hj heq
  case made =>
    intro i h hi
    rw [board_after, BoardState.after, hid] at hi
    rw [hmaker, hhandles]
    split at hi
    · next hik => obtain rfl := Option.some.inj hi; exact ⟨_, if_pos hik, by simp⟩
    · next hik =>
      obtain ⟨n, hn, hget⟩ := hl.made i h hi
      refine ⟨n, by rw [if_neg hik, hn], ?_⟩
      rw [List.getElem?_append_left (List.getElem?_eq_some_iff.mp hget).1, hget]
  case unmade =>
    intro i hi
    rw [board_after, BoardState.after, hid] at hi
    rw [hmaker]
    split at hi
    · exact absurd hi (by simp)
    · next hik => rw [if_neg hik]; exact hl.unmade i hi
  case given =>
    intro h hh
    rw [board_after, BoardState.after, hnum]
    rw [hhandles] at hh
    rcases List.mem_append.mp hh with hh | hh
    · exact Nat.le_succ_of_le (hl.given h hh)
    · obtain rfl := List.mem_singleton.mp hh
      exact Nat.le_refl _
  case injective =>
    rw [hhandles]
    exact injective_append hl.given (.inl rfl) hl.injective
  case counted =>
    have := hl.counted
    rw [hhandles, board_after, BoardState.after, hnum]
    simp only [List.length_append, List.length_singleton]
    omega

theorem sound_allocate {l : BoardLog} (hl : l.Sound) (name : String) (initial total : UInt64)
    (now : Moment) : (l.after (.allocate name initial total now)).Sound := by
  cases hk : l.board.nextSlot? with
  | none => exact sound_allocate_of_full hl hk name initial total now
  | some k => exact sound_allocate_of_free hl hk name initial total now

/-- An operation that keeps identities, numbers and the record keeps the invariant. -/
theorem Sound.of_eq {l l' : BoardLog} (hl : l.Sound)
    (hid : ∀ i, l'.board.identity? i = l.board.identity? i)
    (hnum : l'.board.allocations = l.board.allocations) (hhandles : l'.handles = l.handles)
    (hmaker : l'.maker = l.maker) : l'.Sound where
  identity i h hi := by rw [hid] at hi; rw [hnum]; exact hl.identity i h hi
  distinct i j h h' hi hj := by rw [hid] at hi hj; exact hl.distinct i j h h' hi hj
  made i h hi := by rw [hid] at hi; rw [hmaker, hhandles]; exact hl.made i h hi
  unmade i hi := by rw [hid] at hi; rw [hmaker]; exact hl.unmade i hi
  given h hh := by rw [hhandles] at hh; rw [hnum]; exact hl.given h hh
  injective := by rw [hhandles]; exact hl.injective
  counted := by rw [hhandles, hnum]; exact hl.counted

theorem sound_clear {l : BoardLog} (hl : l.Sound) : (l.after .clear).Sound := by
  have hnone : ∀ i, (l.after .clear).board.identity? i = none := fun _ => rfl
  refine ⟨?_, ?_, ?_, fun _ _ => rfl, hl.given, hl.injective, hl.counted⟩
  · intro i h hi
    exact absurd (hnone i ▸ hi) (by simp)
  · intro i j h h' hi
    exact absurd (hnone i ▸ hi) (by simp)
  · intro i h hi
    exact absurd (hnone i ▸ hi) (by simp)

/-- One operation keeps the invariant. -/
theorem Sound.after {l : BoardLog} (hl : l.Sound) (a : BoardAction) : (l.after a).Sound := by
  cases a with
  | allocate name initial total now => exact sound_allocate hl name initial total now
  | modify h edit =>
    exact hl.of_eq (BoardState.identity?_modify l.board h edit)
      (BoardState.allocations_modify l.board h edit.edit) rfl rfl
  | clear => exact sound_clear hl
  | _ => exact hl.of_eq (fun _ => rfl) rfl rfl rfl

/-- Every run keeps the invariant. -/
theorem sound_run (actions : List BoardAction) :
    ∀ {l : BoardLog}, l.Sound → (l.run actions).Sound := by
  induction actions with
  | nil => intro l hl; exact hl
  | cons a actions ih => intro l hl; exact ih (hl.after a)

/-! ### What handles find -/

/-- A handle finds an entry exactly when its own allocation made what is in its slot. -/
theorem Sound.finds_iff_maker {l : BoardLog} (hl : l.Sound) {n : Nat} {h : Handle}
    (hn : l.handles[n]? = some h) : (l.board.entry? h).isSome ↔ l.maker h.slot = some n := by
  rw [BoardState.finds_iff_identity]
  constructor
  · rintro ⟨k, hk⟩
    obtain ⟨m, hm, hget⟩ := hl.made _ _ hk
    have hpos := (hl.identity _ _ hk).2.1
    rw [hm, hl.injective m n _ _ hget hn rfl (by simp only at hpos ⊢; omega)]
  · intro hmaker
    cases hid : l.board.identity? h.slot with
    | none => rw [hl.unmade _ hid] at hmaker; exact absurd hmaker (by simp)
    | some h' =>
      obtain ⟨m, hm, hget⟩ := hl.made _ _ hid
      rw [hmaker] at hm
      obtain rfl := Option.some.inj hm
      rw [hn] at hget
      obtain rfl := Option.some.inj hget
      exact ⟨_, rfl⟩

/-- The handle of a transfer that is not tracked finds nothing. -/
theorem Sound.detached_finds_none {l : BoardLog} (hl : l.Sound) :
    l.board.entry? Handle.detached = none := by
  rw [← Option.not_isSome_iff_eq_none, BoardState.finds_iff_identity]
  rintro ⟨k, hk⟩
  have := (hl.identity _ _ hk).2.1
  simp [Handle.detached] at this

/-- **The safety of handles over whole runs.**  After any operations `past` on an empty
dashboard: every entry carries its own slot and a number of its own, and no more numbers
have been given out than there were allocations, so a 64-bit counter holds them as long
as there were fewer than `2 ^ 64`; a handle finds an entry exactly when its own allocation
made what is in its slot, and the entry found is the one in that slot; a handle that finds
nothing finds nothing after any further operations `future`; and a change through a handle
reaches the entry that it finds and nothing else, so that through one that finds nothing,
such as the detached one, nothing at all changes. -/
theorem handles_find_their_own_entries (past future : List BoardAction) :
    let l := BoardLog.run {} past
    (∀ i e, l.board.slot? i = some e →
      e.slot = i ∧ 0 < e.generation ∧ e.generation ≤ l.board.allocations ∧
        ∀ j e', l.board.slot? j = some e' → e'.generation = e.generation → j = i) ∧
    l.board.allocations ≤ l.handles.length ∧
    (∀ (n : Nat) (h : Handle), l.handles[n]? = some h →
      ((l.board.entry? h).isSome ↔ l.maker h.slot = some n) ∧
        ∀ e, l.board.entry? h = some e → l.board.slot? h.slot = some e) ∧
    (∀ h ∈ l.handles, l.board.entry? h = none → BoardState.entry? (l.run future).board h = none) ∧
    l.board.entry? Handle.detached = none ∧
    (∀ h edit, l.board.entry? h = none → l.board.after (.modify h edit) = l.board) ∧
    (∀ h edit e, l.board.entry? h = some e → ∀ i,
      (l.board.after (.modify h edit)).slot? i =
        if i = h.slot then some (edit.edit e) else l.board.slot? i) := by
  intro l
  have hl : l.Sound := sound_run past sound_empty
  refine ⟨?_, hl.counted, ?_, ?_, hl.detached_finds_none, ?_, ?_⟩
  · intro i e he
    have hid := BoardState.identity?_of_slot? he
    obtain ⟨hslot, hpos, hle⟩ := hl.identity i _ hid
    refine ⟨hslot, hpos, hle, ?_⟩
    intro j e' he' heq
    exact hl.distinct j i _ _ (BoardState.identity?_of_slot? he') hid heq
  · intro n h hn
    exact ⟨hl.finds_iff_maker hn, fun e he => (BoardState.finds_iff.mp he).1⟩
  · intro h hh hnone
    rw [board_run]
    -- no later entry gets a number that was given before
    exact BoardState.finds_none_run future (hl.given h hh) hnone
  · intro h edit hnone
    exact BoardState.modify_of_finds_none hnone edit.edit
  · intro h edit e hsome i
    exact BoardState.slot?_modify hsome edit.edit i

end BoardLog
end TransferBoard
