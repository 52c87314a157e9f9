import Mathlib.Data.List.Induction
import Mathlib.Order.Bounds.Basic
import TransferBoard.Proofs.Board.Busy

/-!
# Which slot a new entry takes

A new entry goes to the first slot whose transfer has ended, and a slot is added only when
there is none.  So slots are added only while all transfers are going on, and until everything
is forgotten the number of slots is the largest number of transfers that were going on at a
time.

## Main definitions

* `EntryEdit.setActive` — a transfer is marked as going on, or as ended.
* `BoardState.TakesFreeSlot` — a new entry has gone to the first slot that was free.

## Main results

* `slots_after_cases` — what an operation does to the slots.
* `length_after` — the number of slots after an operation.
* `filled_run`, `length_run_le`, `isGreatest_run` — what holds of the slots after every run.
* `first_free_slot_is_taken` — the policy over whole runs.
-/

namespace TransferBoard

/-- A transfer is marked as going on, or as ended. -/
def EntryEdit.setActive (active : Bool) : EntryEdit where
  edit e := { e with active := active }
  slot_edit _ := rfl
  generation_edit _ := rfl

namespace BoardState

variable {s : BoardState}

/-! ### Free slots -/

theorem reusable_eq_false_iff {slot : Option Entry} :
    reusable slot = false ↔ ∃ e, slot = some e ∧ e.active = true := by
  cases slot <;> simp [reusable]

theorem activeCount_le_length (s : BoardState) : s.activeCount ≤ s.slots.length := by
  rw [activeCount_eq]
  exact List.countP_le_length

/-- No slot is free exactly when as many transfers are going on as there are slots. -/
theorem activeCount_eq_length_iff :
    s.activeCount = s.slots.length ↔ s.slots.findIdx? reusable = none := by
  rw [activeCount_eq, List.countP_eq_length, List.findIdx?_eq_none_iff]
  refine forall₂_congr fun slot _ => ?_
  cases slot <;> simp [reusable]

theorem nextSlot?_eq_some_iff {k : Nat} : s.nextSlot? = some k ↔
    s.slots.findIdx? reusable = some k ∨
      s.activeCount = s.slots.length ∧ s.slots.length < maxEntries ∧ k = s.slots.length := by
  unfold nextSlot?
  rw [activeCount_eq_length_iff]
  cases s.slots.findIdx? reusable with
  | some i => simp
  | none => simp [eq_comm]

/-- A new entry finds no slot exactly when as many transfers are going on as are tracked at
most. -/
theorem nextSlot?_eq_none_iff (hle : s.slots.length ≤ maxEntries) :
    s.nextSlot? = none ↔ s.activeCount = maxEntries := by
  have hactive := s.activeCount_le_length
  have hbusy := s.activeCount_eq_length_iff
  unfold nextSlot?
  cases hfree : s.slots.findIdx? reusable with
  | some i =>
    have hne : s.activeCount ≠ s.slots.length := fun heq => by simp [hfree] at hbusy; omega
    simp only [reduceCtorEq, false_iff]
    omega
  | none =>
    have heq : s.activeCount = s.slots.length := hbusy.mpr hfree
    simp only [ite_eq_right_iff, reduceCtorEq, imp_false]
    omega

/-- Before the slot of a new entry all transfers are going on. -/
theorem busy_of_lt_nextSlot? {k : Nat} (hk : s.nextSlot? = some k) {i : Nat} (hi : i < k) :
    ∃ e, s.slot? i = some e ∧ e.active = true := by
  have hlt : i < s.slots.length := Nat.lt_of_lt_of_le hi (nextSlot?_le hk)
  have hbusy : reusable s.slots[i] = false := by
    rcases nextSlot?_eq_some_iff.mp hk with hfound | ⟨hall, -, -⟩
    · obtain ⟨_, _, hbefore⟩ := List.findIdx?_eq_some_iff_getElem.mp hfound
      exact eq_false_of_ne_true (hbefore i hi)
    · have hnone := activeCount_eq_length_iff.mp hall
      exact List.findIdx?_eq_none_iff.mp hnone _ (List.getElem_mem hlt)
  obtain ⟨e, he, hactive⟩ := reusable_eq_false_iff.mp hbusy
  exact ⟨e, by rw [slot?, List.getElem?_eq_getElem hlt, Option.join_some, he], hactive⟩

theorem nextSlot?_lt {k : Nat} (hle : s.slots.length ≤ maxEntries) (hk : s.nextSlot? = some k) :
    k < maxEntries := by
  rcases nextSlot?_eq_some_iff.mp hk with hfound | ⟨-, hlt, rfl⟩
  · exact Nat.lt_of_lt_of_le (List.findIdx?_eq_some_iff_getElem.mp hfound).1 hle
  · exact hlt

theorem length_placeEntry {slots : List (Option Entry)} {k : Nat} (hk : k ≤ slots.length)
    (e : Entry) : (placeEntry slots k e).length = max slots.length (k + 1) := by
  unfold placeEntry
  split
  · rw [List.length_set]
    omega
  · rw [List.length_append, List.length_singleton]
    omega

theorem mem_placeEntry {slots : List (Option Entry)} {k : Nat} {e : Entry} {slot : Option Entry}
    (h : slot ∈ placeEntry slots k e) : slot ∈ slots ∨ slot = some e := by
  unfold placeEntry at h
  split at h
  · exact List.mem_or_eq_of_mem_set h
  · simpa using h

/-! ### What an operation does to the slots -/

/-- **An operation leaves the slots, puts a new entry into a free one, changes what is in one of
them, or forgets everything.** -/
theorem slots_after_cases (s : BoardState) (a : BoardAction) :
    (s.after a).slots = s.slots ∨
    (∃ k e, s.nextSlot? = some k ∧ (s.after a).slots = placeEntry s.slots k e ∧
      (s.after a).activeCount = s.activeCount + 1) ∨
    (∃ i e, (s.after a).slots = s.slots.set i (some e)) ∨
    a = .clear ∧ (s.after a).slots = [] := by
  cases a with
  | allocate name initial total now =>
    -- a new entry takes a slot when one is left
    cases hk : s.nextSlot? with
    | none => exact .inl (by rw [after, allocate_eq_detached hk])
    | some k =>
      have hslots : (s.after (.allocate name initial total now)).slots =
          placeEntry s.slots k (Entry.new k (s.allocations + 1) name initial total now) := by
        rw [after, allocate, hk]
      exact .inr (.inl ⟨k, _, rfl, hslots, activeCount_allocate hk name initial total now⟩)
  | modify h edit =>
    cases hfinds : s.entry? h with
    | none => exact .inl (by rw [after, modify_of_finds_none hfinds])
    | some e => exact .inr (.inr (.inl ⟨h.slot, edit.edit e, by rw [after, modify, hfinds]⟩))
  | clear => exact .inr (.inr (.inr ⟨rfl, rfl⟩))
  | _ => exact .inl rfl

theorem filled_after (hfilled : ∀ slot ∈ s.slots, slot.isSome = true) (a : BoardAction) :
    ∀ slot ∈ (s.after a).slots, slot.isSome = true := by
  intro slot hslot
  rcases slots_after_cases s a with hsame | ⟨k, e, -, hplaced, -⟩ | ⟨i, e, hset⟩ | ⟨-, hnone⟩
  · exact hfilled slot (hsame ▸ hslot)
  · rw [hplaced] at hslot
    rcases mem_placeEntry hslot with hmem | rfl
    · exact hfilled slot hmem
    · rfl
  · rw [hset] at hslot
    rcases List.mem_or_eq_of_mem_set hslot with hmem | rfl
    · exact hfilled slot hmem
    · rfl
  · rw [hnone] at hslot
    exact absurd hslot (by simp)

theorem length_after_le (hle : s.slots.length ≤ maxEntries) (a : BoardAction) :
    (s.after a).slots.length ≤ maxEntries := by
  rcases slots_after_cases s a with hsame | ⟨k, e, hk, hplaced, -⟩ | ⟨i, e, hset⟩ | ⟨-, hnone⟩
  · rwa [hsame]
  · have hlt := nextSlot?_lt hle hk
    rw [hplaced, length_placeEntry (nextSlot?_le hk)]
    omega
  · rwa [hset, List.length_set]
  · rw [hnone]
    exact Nat.zero_le _

/-- **The number of slots after an operation** that forgets nothing: a slot is added only for
one more transfer than there are slots. -/
theorem length_after {a : BoardAction} (hclear : a ≠ .clear) :
    (s.after a).slots.length = max (s.after a).activeCount s.slots.length := by
  have hactive := (s.after a).activeCount_le_length
  rcases slots_after_cases s a with
    hsame | ⟨k, e, hk, hplaced, hcount⟩ | ⟨i, e, hset⟩ | ⟨hclear', -⟩
  · rw [hsame] at hactive ⊢
    omega
  · rw [hplaced, length_placeEntry (nextSlot?_le hk)] at hactive ⊢
    rcases nextSlot?_eq_some_iff.mp hk with hfound | ⟨hall, -, rfl⟩
    · have hlt := (List.findIdx?_eq_some_iff_getElem.mp hfound).1
      omega
    · omega
  · rw [hset, List.length_set] at hactive ⊢
    omega
  · exact absurd hclear' hclear

/-! ### What holds of the slots after every run -/

theorem run_snoc (s : BoardState) (actions : List BoardAction) (a : BoardAction) :
    s.run (actions ++ [a]) = (s.run actions).after a := s.run_append actions [a]

/-- No slot is ever empty. -/
theorem filled_run (actions : List BoardAction) :
    ∀ slot ∈ (BoardState.run {} actions).slots, slot.isSome = true := by
  induction actions using List.reverseRecOn with
  | nil => intro slot hslot; exact absurd hslot (by simp [run])
  | append_singleton actions a ih =>
    rw [run_snoc]
    exact filled_after ih a

theorem length_run_le (actions : List BoardAction) :
    (BoardState.run {} actions).slots.length ≤ maxEntries := by
  induction actions using List.reverseRecOn with
  | nil => exact Nat.zero_le _
  | append_singleton actions a ih =>
    rw [run_snoc]
    exact length_after_le ih a

/-- Without an empty slot there are as many entries as slots. -/
theorem entryCount_run (actions : List BoardAction) :
    (BoardState.run {} actions).entryCount = (BoardState.run {} actions).slots.length :=
  List.filterMap_length_eq_length.mpr (filled_run actions)

/-- **The number of slots is a high-water mark**: while nothing is forgotten, it is the largest
number of transfers that were going on at a time. -/
theorem isGreatest_run {actions : List BoardAction} (hclear : .clear ∉ actions) :
    IsGreatest {n | ∃ past, past <+: actions ∧ (BoardState.run {} past).activeCount = n}
      (BoardState.run {} actions).slots.length := by
  induction actions using List.reverseRecOn with
  | nil =>
    refine ⟨⟨[], List.nil_prefix, rfl⟩, ?_⟩
    rintro n ⟨past, hpast, rfl⟩
    obtain rfl := List.prefix_nil.mp hpast
    exact Nat.le_refl _
  | append_singleton actions a ih =>
    have hclear' : .clear ∉ actions := fun hmem => hclear (List.mem_append_left _ hmem)
    have ha : a ≠ .clear := by
      rintro rfl
      exact hclear (by simp)
    -- one more state has been passed through
    have hstates :
        {n | ∃ past, past <+: actions ++ [a] ∧ (BoardState.run {} past).activeCount = n} =
          insert ((BoardState.run {} actions).after a).activeCount
            {n | ∃ past, past <+: actions ∧ (BoardState.run {} past).activeCount = n} := by
      ext n
      simp only [List.prefix_concat_iff, or_and_right, exists_or, exists_eq_left, run_snoc,
        Set.mem_ofPred_eq, Set.mem_insert_iff, eq_comm (a := n)]
    rw [run_snoc, hstates, length_after ha]
    exact (ih hclear').insert _

/-! ### The policy -/

/-- A new entry has gone, under the handle `h`, to the first slot that was free. -/
structure TakesFreeSlot (s : BoardState) (h : Handle) (e : Entry) (s' : BoardState) : Prop where
  /-- In the slots before it transfers are going on. -/
  before : ∀ i < h.slot, ∃ e', s.slot? i = some e' ∧ e'.active = true
  /-- What was in the slot has ended. -/
  free : ∀ e', s.slot? h.slot = some e' → e'.active = false
  /-- The slot is one that there was, or the one after the last. -/
  within : h.slot ≤ s.slots.length
  /-- No other slot is added. -/
  length : s'.slots.length = max s.slots.length (h.slot + 1)
  /-- The entry is in its slot, and in the other slots is what was there. -/
  slots : ∀ i, s'.slot? i = if i = h.slot then some e else s.slot? i
  /-- Nothing else has changed. -/
  rest : s'.completed = s.completed ∧ s'.controls = s.controls

theorem takesFreeSlot {k : Nat} (hk : s.nextSlot? = some k) (name : String)
    (initial total : UInt64) (now : Moment) :
    s.TakesFreeSlot ⟨k, s.allocations + 1⟩ (Entry.new k (s.allocations + 1) name initial total now)
      (s.allocate name initial total now).2 where
  before _ hi := busy_of_lt_nextSlot? hk hi
  free _ he := inactive_of_nextSlot? hk he
  within := nextSlot?_le hk
  length := by
    rw [allocate, hk]
    exact length_placeEntry (nextSlot?_le hk) _
  slots := slot?_allocate hk name initial total now
  rest := by rw [allocate, hk]; exact ⟨rfl, rfl⟩

theorem fst_allocate_eq_detached_iff (name : String) (initial total : UInt64) (now : Moment) :
    (s.allocate name initial total now).1 = Handle.detached ↔ s.nextSlot? = none := by
  cases hk : s.nextSlot? with
  | none => simp [allocate_eq_detached hk]
  | some k => simp [allocate_fst hk, Handle.detached]

/-- **The first free slot is taken.**  After any operations on an empty dashboard that do not
forget everything, among them any changes of entries through their handles, such as that a
transfer has ended or is going on again: no slot is empty; a new transfer is refused, and then
nothing changes, exactly when the largest number of transfers is going on; otherwise its entry
goes to the first slot in which no transfer is going on, and to a new slot after the last one
only when there is none; and there are as many slots as transfers were ever going on at a
time. -/
theorem first_free_slot_is_taken (actions : List BoardAction) (hclear : .clear ∉ actions)
    (name : String) (initial total : UInt64) (now : Moment) :
    let s := BoardState.run {} actions
    let h := (s.allocate name initial total now).1
    let s' := (s.allocate name initial total now).2
    (∀ slot ∈ s.slots, slot.isSome = true) ∧
    (h = Handle.detached ↔ s.activeCount = maxEntries) ∧
    (h = Handle.detached → s' = s) ∧
    (h ≠ Handle.detached →
      s.TakesFreeSlot h (Entry.new h.slot h.generation name initial total now) s') ∧
    IsGreatest {n | ∃ past, past <+: actions ∧ (BoardState.run {} past).activeCount = n}
      s.slots.length ∧
    s.activeCount ≤ s.entryCount ∧ s.entryCount = s.slots.length ∧
      s.slots.length ≤ maxEntries := by
  intro s h s'
  have hle : s.slots.length ≤ maxEntries := length_run_le actions
  have hentries : s.entryCount = s.slots.length := entryCount_run actions
  have hactive : s.activeCount ≤ s.entryCount := hentries ▸ s.activeCount_le_length
  -- the handle is the detached one exactly when no slot is left
  have hrefused : h = Handle.detached ↔ s.nextSlot? = none :=
    fst_allocate_eq_detached_iff name initial total now
  refine ⟨filled_run actions, hrefused.trans (nextSlot?_eq_none_iff hle), ?_, ?_,
    isGreatest_run hclear, hactive, hentries, hle⟩
  · intro hdetached
    exact congrArg Prod.snd (allocate_eq_detached (hrefused.mp hdetached) name initial total now)
  · intro hne
    -- any other handle has a slot, the first free one
    obtain ⟨k, hk⟩ := Option.ne_none_iff_exists'.mp (mt hrefused.mpr hne)
    have hhandle : h = ⟨k, s.allocations + 1⟩ := allocate_fst hk name initial total now
    rw [hhandle]
    exact takesFreeSlot hk name initial total now

/-- Three transfers are announced, two of them end, and one of these is taken up again: the
fourth transfer takes the first slot, and there are three slots, for there were three transfers
going on at the start. -/
theorem ended_transfer_makes_room :
    let actions : List BoardAction := [.allocate "a" 0 1 0, .allocate "b" 0 1 0,
      .allocate "c" 0 1 0, .modify ⟨1, 2⟩ (.setActive false), .modify ⟨0, 1⟩ (.setActive false),
      .modify ⟨1, 2⟩ (.setActive true)]
    let s := BoardState.run {} actions
    let made := s.allocate "d" 0 1 0
    .clear ∉ actions ∧ made.1 = ⟨0, 4⟩ ∧ made.1 ≠ Handle.detached ∧
      s.TakesFreeSlot made.1 (Entry.new 0 4 "d" 0 1 0) made.2 ∧
      IsGreatest {n | ∃ past, past <+: actions ∧ (BoardState.run {} past).activeCount = n} 3 := by
  intro actions s made
  have hclear : .clear ∉ actions := by simp [actions]
  have hmade : made.1 = ⟨0, 4⟩ := rfl
  have hne : made.1 ≠ Handle.detached := by simp [hmade, Handle.detached]
  obtain ⟨-, -, -, htakes, hgreatest, -⟩ := first_free_slot_is_taken actions hclear "d" 0 1 0
  exact ⟨hclear, hmade, hne, htakes hne, hgreatest⟩

end BoardState
end TransferBoard
