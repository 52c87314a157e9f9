import TransferBoard.Board.Controls
import TransferBoard.Board.Entry
import TransferBoard.Verify.CompletedFile

/-!
# The state of the dashboard

The slots with their entries, the completed files, and what the user has set.

## Main definitions

* `BoardState` — the state; `BoardState.entries` lists the entries in slot order.
* `BoardState.allocate` — makes an entry in the first slot that is free.
* `BoardState.entry?`, `BoardState.modify` — finds or changes the entry of a handle.
* `BoardState.applyKey`, `clampScroll` — the controls over the entries there are.
* `BoardState.clear` — forgets everything but the number of allocations.
-/

namespace TransferBoard

/-- The most entries that are tracked at a time. -/
def maxEntries : Nat := 1024

/-- The state of the dashboard. -/
structure BoardState where
  /-- The slots with the entries in them. -/
  slots : List (Option Entry) := []
  /-- The files that transfers have completed. -/
  completed : CompletedFiles := {}
  /-- What the user has set. -/
  controls : Controls := {}
  /-- The number of allocations so far. -/
  allocations : Nat := 0

namespace BoardState

/-- A slot that a new entry may take: an empty one, or one with an entry whose
transfer has ended. -/
def reusable : Option Entry → Bool
  | none => true
  | some e => !e.active

/-- The slot that the next entry goes to, if there is one: the first reusable
slot, or a new one after the last. -/
def nextSlot? (s : BoardState) : Option Nat :=
  match s.slots.findIdx? reusable with
  | some i => some i
  | none => if s.slots.length < maxEntries then some s.slots.length else none

/-- The slots with an entry put into a slot or after the last one. -/
def placeEntry (slots : List (Option Entry)) (slot : Nat) (e : Entry) : List (Option Entry) :=
  if slot < slots.length then slots.set slot (some e) else slots ++ [some e]

/-- Makes an entry for a transfer that starts now. Without a free slot the
transfer is not tracked. -/
def allocate (s : BoardState) (name : String) (initial total : UInt64) (now : Moment) :
    Handle × BoardState :=
  match s.nextSlot? with
  | none => (Handle.detached, s)
  | some slot =>
    let generation := s.allocations + 1
    let e := Entry.new slot generation name initial total now
    (⟨slot, generation⟩,
      { s with slots := placeEntry s.slots slot e, allocations := generation })

/-- What is in a slot. -/
def slot? (s : BoardState) (i : Nat) : Option Entry := (s.slots[i]?).join

/-- The entry that a handle was given for, while it is there. -/
def entry? (s : BoardState) (h : Handle) : Option Entry :=
  (s.slot? h.slot).filter fun e => e.isOf h

/-- Changes the entry that a handle was given for. Without one nothing changes. -/
def modify (s : BoardState) (h : Handle) (f : Entry → Entry) : BoardState :=
  match s.entry? h with
  | some e => { s with slots := s.slots.set h.slot (some (f e)) }
  | none => s

/-- The entries in the order of their slots. -/
def entries (s : BoardState) : List Entry := s.slots.filterMap id

/-- The number of entries. -/
def entryCount (s : BoardState) : Nat := s.entries.length

/-- The number of entries whose transfer is going on. -/
def activeCount (s : BoardState) : Nat := (s.entries.filter fun e => e.active).length

/-- The largest offset at which the entries fill the screen. -/
def maxScroll (s : BoardState) : Nat := s.controls.maxScroll s.entryCount

/-- Moves the offset back to the largest one when it is beyond. -/
def clampScroll (s : BoardState) : BoardState :=
  { s with controls := s.controls.clampScroll s.entryCount }

/-- Does what the user asked for. Tells whether anything has changed. -/
def act (s : BoardState) (action : ControlAction) : Bool × BoardState :=
  let (changed, controls) := s.controls.act s.entryCount action
  (changed, { s with controls := controls })

/-- The effect of a key. Tells whether anything has changed. -/
def applyKey (s : BoardState) (key : Key) : Bool × BoardState :=
  let (changed, controls) := s.controls.apply s.entryCount key
  (changed, { s with controls := controls })

/-- Takes over that the given number of entries fit on the screen. -/
def fitTo (s : BoardState) (capacity : Nat) : BoardState :=
  clampScroll { s with controls := { s.controls with visibleCapacity := capacity } }

/-- Forgets the entries, the completed files and the flags. Allocations are counted
on, so that no handle of before finds an entry of after. -/
def clear (s : BoardState) : BoardState := { allocations := s.allocations }

end BoardState

end TransferBoard
