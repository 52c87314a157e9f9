import TransferBoard.Proofs.Board.Frames

/-!
# What is behind the screen

A frame is drawn under the same lock as everything else, and notes how many entries fit on the
screen.  So the size of the screen and its failures are part of the dashboard.  Leave them out,
with what is kept for drawing only; what remains does not depend on them.

The clocks of two dashboards may differ as well.  Then the times are left out too.

## Main definitions

* `seen timed x blank` — a time that counts, or a blank.
* `Entry.behind`, `BoardState.behind`, `Dashboard.behind` — what is behind the screen, with its
  times or without.
* `BoardSection.behind` — a section with its time or without.
* `ControlAction.isScroll` — the action moves over the list of entries.

## Main results

* `behind_redraw` — a frame changes nothing behind the screen.
* `behind_after` — **a section sees nothing but what is behind the screen.**
* `behind_track`, `behind_register`, `BoardState.behind_applyKey` — nor is anything else told of it.
-/

namespace TransferBoard

/-- A time that counts, or a blank in its place. -/
def seen {α : Type} (timed : Bool) (x blank : α) : α := if timed then x else blank

@[simp] theorem seen_seen {α : Type} (timed : Bool) (x blank : α) :
    seen timed (seen timed x blank) blank = seen timed x blank := by
  cases timed <;> rfl

section

variable (timed : Bool)

/-- The entry, with the times that its figures are made of or without. -/
def Entry.behind (e : Entry) : Entry :=
  { e with started := seen timed e.started 0, elapsedHint := seen timed e.elapsedHint none }

/-- The flags, without what is shown of the list. -/
def Controls.behind (c : Controls) : Controls := { paused := c.paused, cancelled := c.cancelled }

/-- The state behind the screen. -/
def BoardState.behind (s : BoardState) : BoardState :=
  { s with slots := s.slots.map (Option.map (Entry.behind timed)), controls := s.controls.behind }

/-- The dashboard behind the screen. -/
def Dashboard.behind (d : Dashboard) : Dashboard :=
  { state := d.state.behind timed, surface := .new 0 0, live := d.live }

/-- A section with its time or without. -/
def BoardSection.behind : BoardSection → BoardSection
  | track request now => track request (seen timed now 0)
  | advance h delta hint => advance h delta (seen timed hint 0)
  | redraw forced now => redraw forced (seen timed now 0)
  | sec => sec

/-- The action moves over the list of entries. -/
def ControlAction.isScroll : ControlAction → Bool
  | scrollDown | scrollUp => true
  | _ => false

end

-- whether the times count
variable {t : Bool}

/-! ### Entries -/

namespace Entry

@[simp] theorem behind_behind (e : Entry) : (e.behind t).behind t = e.behind t := by
  simp [behind]

theorem behind_new (slot generation : Nat) (name : String) (initial total : UInt64)
    (now : Moment) :
    (new slot generation name initial total now).behind t =
      (new slot generation name initial total (seen t now 0)).behind t := by
  cases t <;> rfl

/-- A running time that does not count is not told. -/
theorem behind_advance (e : Entry) (delta : UInt64) (hint : Float) :
    (e.advance delta hint).behind t =
      ((e.behind t).advance delta (seen t hint 0)).behind t := by
  cases t <;> rfl

theorem behind_finish (e : Entry) :
    e.finish.behind t = ((e.behind t).finish).behind t := by
  unfold finish
  show (if e.total = 0 then _ else _ : Entry).behind t =
    (if e.total = 0 then _ else _ : Entry).behind t
  split <;> simp [behind]

theorem behind_settleDigest (e : Entry) (result : Except DigestError String) :
    (e.settleDigest result).behind t =
      ((e.behind t).settleDigest result).behind t := by
  cases result <;> cases t <;> rfl

end Entry

/-! ### The state -/

/-- The slots, with the times of the entries in them or without. -/
abbrev behindSlots (t : Bool) (slots : List (Option Entry)) : List (Option Entry) :=
  slots.map (Option.map (Entry.behind t))

theorem behindSlots_behindSlots (slots : List (Option Entry)) :
    behindSlots t (behindSlots t slots) = behindSlots t slots := by
  simp [behindSlots, Function.comp_def]

namespace BoardState

variable (s : BoardState)

@[simp] theorem behind_behind : (s.behind t).behind t = s.behind t :=
  congrArg (fun slots => { s with slots := slots, controls := s.controls.behind })
    (behindSlots_behindSlots s.slots)

theorem slot?_behind (i : Nat) : (s.behind t).slot? i = (s.slot? i).map (Entry.behind t) := by
  show ((behindSlots t s.slots)[i]?).join = _
  rw [List.getElem?_map, slot?]
  cases s.slots[i]? <;> rfl

theorem entry?_behind (h : Handle) :
    BoardState.entry? (s.behind t) h = (s.entry? h).map (Entry.behind t) := by
  unfold entry?
  rw [slot?_behind, Option.filter_map]
  rfl

theorem isSome_entry?_behind (h : Handle) :
    (BoardState.entry? (s.behind t) h).isSome = (s.entry? h).isSome := by
  rw [entry?_behind, Option.isSome_map]

theorem nextSlot?_behind : (s.behind t).nextSlot? = s.nextSlot? := by
  have hreusable : reusable ∘ Option.map (Entry.behind t) = reusable := by
    funext slot
    cases slot <;> rfl
  have hfind : (behindSlots t s.slots).findIdx? reusable = s.slots.findIdx? reusable := by
    rw [List.findIdx?_map, hreusable]
  have hlength : (behindSlots t s.slots).length = s.slots.length := List.length_map _
  simp only [nextSlot?, behind, hfind, hlength]

theorem entries_behind : (s.behind t).entries = s.entries.map (Entry.behind t) := by
  show (behindSlots t s.slots).filterMap id = _
  rw [List.filterMap_map, entries, List.map_filterMap]
  rfl

theorem entryCount_behind : (s.behind t).entryCount = s.entryCount := by
  rw [entryCount, entries_behind, List.length_map, entryCount]

theorem activeCount_behind : (s.behind t).activeCount = s.activeCount := by
  rw [activeCount, entries_behind, List.filter_map, List.length_map]
  rfl

/-- What the slots become decides what the state becomes. -/
theorem behind_set_slots {slots slots' : List (Option Entry)}
    (h : behindSlots t slots = behindSlots t slots') (allocations : Nat) :
    behind t { s with slots := slots, allocations := allocations } =
      behind t { s.behind t with slots := slots', allocations := allocations } :=
  congrArg (fun slots => { s with
    slots := slots, controls := s.controls.behind, allocations := allocations }) h

theorem behindSlots_set {slots : List (Option Entry)} {e e' : Entry}
    (h : e.behind t = e'.behind t) (i : Nat) :
    behindSlots t (slots.set i (some e)) =
      behindSlots t ((behindSlots t slots).set i (some e')) := by
  rw [behindSlots, behindSlots, List.map_set, List.map_set, Option.map_some, Option.map_some, h]
  exact congrArg (List.set · i _) (behindSlots_behindSlots slots).symm

theorem behindSlots_snoc {slots : List (Option Entry)} {e e' : Entry}
    (h : e.behind t = e'.behind t) :
    behindSlots t (slots ++ [some e]) =
      behindSlots t (behindSlots t slots ++ [some e']) := by
  simp only [behindSlots, List.map_append, List.map_cons, List.map_nil, Option.map_some, h]
  exact congrArg (· ++ [some (e'.behind t)]) (behindSlots_behindSlots slots).symm

/-- A change that sees nothing but what is behind the screen, in every entry, does so in the
state. -/
theorem behind_modify {f g : Entry → Entry}
    (hfg : ∀ e, (f e).behind t = (g (e.behind t)).behind t) (h : Handle) :
    (s.modify h f).behind t = ((s.behind t).modify h g).behind t := by
  have hfinds' := s.entry?_behind (t := t) h
  cases hfinds : s.entry? h with
  | none =>
    rw [hfinds] at hfinds'
    rw [modify_of_finds_none hfinds, modify_of_finds_none hfinds', behind_behind]
  | some e =>
    rw [hfinds] at hfinds'
    have hmodify : s.modify h f = { s with slots := s.slots.set h.slot (some (f e)) } := by
      rw [modify, hfinds]
    have hmodify' : (s.behind t).modify h g =
        { s.behind t with
          slots := (s.behind t).slots.set h.slot (some (g (e.behind t))) } := by
      rw [modify, hfinds']
      rfl
    rw [hmodify, hmodify']
    exact s.behind_set_slots (behindSlots_set (hfg e) h.slot) s.allocations

theorem behind_modify_congr {s s' : BoardState} (hs : s.behind t = s'.behind t)
    {f : Entry → Entry} (hf : ∀ e, (f e).behind t = (f (e.behind t)).behind t)
    (h : Handle) : (s.modify h f).behind t = (s'.modify h f).behind t := by
  rw [s.behind_modify hf, s'.behind_modify hf, hs]

/-- A new entry goes to the same slot, with the same handle. -/
theorem behind_allocate (name : String) (initial total : UInt64) (now : Moment) :
    ((s.behind t).allocate name initial total (seen t now 0)).1 =
        (s.allocate name initial total now).1 ∧
      (s.allocate name initial total now).2.behind t =
        ((s.behind t).allocate name initial total (seen t now 0)).2.behind t := by
  rw [allocate, allocate, nextSlot?_behind]
  cases s.nextSlot? with
  | none => exact ⟨rfl, (s.behind_behind).symm⟩
  | some slot =>
    refine ⟨rfl, s.behind_set_slots ?_ _⟩
    have hnew := Entry.behind_new (t := t) slot (s.allocations + 1) name initial total now
    have hlength : (s.behind t).slots.length = s.slots.length := List.length_map _
    rw [placeEntry, placeEntry, hlength]
    split
    · exact behindSlots_set hnew slot
    · exact behindSlots_snoc hnew

/-- A control action has the same effect on the flags, over a list of any length. -/
theorem behind_act (c : Controls) (count : Nat) (action : ControlAction) :
    (c.act count action).2.behind = (c.behind.act count action).2.behind ∧
      (action.isScroll = false → (c.act count action).1 = (c.behind.act count action).1) := by
  cases action with
  | togglePause => exact ⟨rfl, fun _ => rfl⟩
  | cancel => exact ⟨rfl, fun _ => rfl⟩
  | scrollDown =>
    refine ⟨?_, fun hscroll => absurd hscroll (by simp [ControlAction.isScroll])⟩
    simp only [Controls.act, Controls.scrollDown]
    split <;> split <;> rfl
  | scrollUp =>
    refine ⟨?_, fun hscroll => absurd hscroll (by simp [ControlAction.isScroll])⟩
    simp only [Controls.act, Controls.scrollUp]
    split <;> split <;> rfl

theorem behind_applyKey (key : Key) :
    (s.applyKey key).2.behind t = ((s.behind t).applyKey key).2.behind t ∧
      ((controlAction? key).elim false ControlAction.isScroll = false →
        ((s.behind t).applyKey key).1 = (s.applyKey key).1) := by
  -- what the controls look like behind the screen does not depend on the scroll
  have hcontrols : (s.controls.apply s.entryCount key).2.behind =
      (s.controls.behind.apply s.entryCount key).2.behind ∧
        ((controlAction? key).elim false ControlAction.isScroll = false →
          (s.controls.behind.apply s.entryCount key).1 =
            (s.controls.apply s.entryCount key).1) := by
    rw [Controls.apply, Controls.apply]
    cases controlAction? key with
    | none => exact ⟨rfl, fun _ => rfl⟩
    | some action =>
      obtain ⟨hflags, hchanged⟩ := behind_act s.controls s.entryCount action
      exact ⟨hflags, fun h => (hchanged h).symm⟩
  have hkey : (s.behind t).applyKey key =
      ((s.controls.behind.apply s.entryCount key).1,
        { s.behind t with controls := (s.controls.behind.apply s.entryCount key).2 }) := by
    rw [applyKey, entryCount_behind]
    rfl
  rw [hkey]
  refine ⟨?_, hcontrols.2⟩
  show BoardState.mk (behindSlots t s.slots) s.completed _ s.allocations =
    BoardState.mk (behindSlots t (behindSlots t s.slots)) s.completed _ s.allocations
  -- the slots are not touched by a key
  rw [behindSlots_behindSlots]
  exact congrArg (fun controls => BoardState.mk _ s.completed controls s.allocations) hcontrols.1

end BoardState

/-! ### The dashboard -/

namespace Dashboard

variable (d : Dashboard)

@[simp] theorem behind_behind : (d.behind t).behind t = d.behind t := by
  simp [behind]

/-- **A frame changes nothing behind the screen.** -/
@[simp] theorem behind_redraw (forced : Bool) (now : Moment) :
    (d.redraw forced now).behind t = d.behind t := by
  rw [redraw_eq]
  split <;> rfl

theorem behind_modify {f g : Entry → Entry}
    (hfg : ∀ e, (f e).behind t = (g (e.behind t)).behind t) (h : Handle) :
    (d.modify h f).behind t = ((d.behind t).modify h g).behind t :=
  congrArg (fun state => Dashboard.mk state (.new 0 0) none d.live 0)
    (d.state.behind_modify hfg h)

theorem behind_track (r : EntryRequest) (now : Moment) :
    ((d.behind t).track r (seen t now 0)).1 = (d.track r now).1 ∧
      (d.track r now).2.behind t =
        ((d.behind t).track r (seen t now 0)).2.behind t := by
  obtain ⟨hhandle, hstate⟩ := d.state.behind_allocate (t := t) r.name r.initial r.total now
  refine ⟨hhandle, ?_⟩
  have hedit : ∀ e, (r.edit.edit e).behind t = (r.edit.edit (e.behind t)).behind t :=
    fun e => by simp [EntryRequest.edit, EntryEdit.announce, Entry.behind]
  have htold := BoardState.behind_modify_congr hstate hedit
    (d.state.allocate r.name r.initial r.total now).1
  refine congrArg (fun state => Dashboard.mk state (.new 0 0) none d.live 0) (htold.trans ?_)
  rw [← hhandle]
  rfl

theorem behind_register (name : String) (path : Path) (expected : Option String) :
    ((d.behind t).register name path expected).1 = (d.register name path expected).1 ∧
      (d.register name path expected).2.behind t =
        ((d.behind t).register name path expected).2.behind t := by
  refine ⟨rfl, ?_⟩
  let completed := (d.state.completed.register (CompletedFile.expecting name path expected)).2
  exact congrArg (fun slots => Dashboard.mk
    (BoardState.mk slots completed d.state.controls.behind d.state.allocations) (.new 0 0) none
    d.live 0) (behindSlots_behindSlots d.state.slots).symm

/-- **A section sees nothing but what is behind the screen.** -/
theorem behind_after (sec : BoardSection) :
    (d.after sec).behind t = ((d.behind t).after (sec.behind t)).behind t := by
  cases sec with
  -- the changes of an entry look at the entry alone
  | track r now => exact (d.behind_track r now).2
  | setPath h path =>
    exact d.behind_modify (f := fun e => { e with path := some path })
      (g := fun e => { e with path := some path }) (fun _ => by simp [Entry.behind]) h
  | advance h delta hint => exact d.behind_modify (fun e => e.behind_advance delta hint) h
  | markFinished h => exact d.behind_modify Entry.behind_finish h
  | markStopped h reason => exact d.behind_modify (fun _ => by simp [Entry.stop, Entry.behind]) h
  | settleDigest h result => exact d.behind_modify (fun e => e.behind_settleDigest result) h
  | register name path expected => exact (d.behind_register name path expected).2
  | applyKey key =>
    exact congrArg (fun state => Dashboard.mk state (.new 0 0) none d.live 0)
      (d.state.behind_applyKey key).1
  | redraw forced now =>
    -- the frames of the two may differ, and are not behind the screen
    show (d.redraw forced now).behind t =
      ((d.behind t).redraw forced (seen t now 0)).behind t
    rw [behind_redraw, behind_redraw, behind_behind]
  | teardown =>
    show d.teardown.behind t = (d.behind t).teardown.behind t
    rw [teardown, teardown]
    show (if d.live then _ else _ : Dashboard).behind t =
      (if d.live then _ else _ : Dashboard).behind t
    split
    · rfl
    · exact d.behind_behind.symm

end Dashboard
end TransferBoard
