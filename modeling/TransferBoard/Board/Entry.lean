import TransferBoard.Board.Clock
import TransferBoard.Digest.OfFile
import TransferBoard.Number.Saturating

/-!
# Entries of the dashboard

An entry stands for one transfer. Its producer addresses it by a handle: the slot
that the entry is in and the number of its allocation. A slot is used again after
its transfer has ended; a handle to the earlier entry then finds nothing.

## Main definitions

* `Handle`, `Handle.detached` — how entries are addressed, and the handle of a
  transfer that is not tracked.
* `Entry`, `Entry.new` — one transfer.
* `Entry.fraction`, `percent`, `elapsed`, `rate`, `remaining` — its figures.
* `Entry.advance`, `finish`, `stop`, `settleDigest` — what producers do to it.
-/

namespace TransferBoard

/-- How a producer addresses its entry. -/
structure Handle where
  /-- The slot of the entry. -/
  slot : Nat
  /-- The number of its allocation; zero for none. -/
  generation : Nat
  deriving DecidableEq, Repr

namespace Handle

/-- The handle of a transfer that is not tracked: the largest slot number, and no
allocation. -/
def detached : Handle := ⟨0xFFFFFFFFFFFFFFFF, 0⟩

/-- The handle is of no allocation. -/
def isDetached (h : Handle) : Bool := h.generation == 0

end Handle

/-- One transfer. -/
structure Entry where
  /-- The slot that the entry is in. -/
  slot : Nat
  /-- The number of its allocation. -/
  generation : Nat
  /-- The name that is shown. -/
  name : String
  /-- The file that the transfer makes. -/
  path : Option Path := none
  /-- The size of the whole transfer; zero when it is unknown. -/
  total : UInt64
  /-- The bytes transferred so far. -/
  current : UInt64
  /-- When the transfer started. -/
  started : Moment
  /-- The latest running time that the producer told, in seconds. -/
  elapsedHint : Option Float := none
  /-- The transfer is going on. -/
  active : Bool := true
  /-- The kind of digest to calculate at the end. -/
  kind : Option DigestKind := none
  /-- The digest, once there is one. -/
  digest : Option String := none
  /-- The digest that the file should have, if that is known. -/
  expected : Option String := none
  /-- The digest is the expected one. -/
  verified : Bool := false
  /-- There is a digest. -/
  computed : Bool := false
  /-- Why there is no digest. -/
  digestError : Option String := none
  /-- Why the producer gave up before the last byte. -/
  stopped : Option String := none

namespace Entry

/-- The entry of a transfer that starts now. -/
def new (slot generation : Nat) (name : String) (initial total : UInt64) (now : Moment) : Entry :=
  { slot := slot, generation := generation, name := name, total := total
    current := initial, started := now }

/-- The part that is done, at most one; nothing when the size is unknown. -/
def fraction (e : Entry) : Float :=
  if e.total = 0 then 0.0
  else
    let part := e.current.toFloat / e.total.toFloat
    if part < 1.0 then part else 1.0

/-- The part that is done, in percent. -/
def percent (e : Entry) : Float := e.fraction * 100.0

/-- The running time: what the producer told, if that is positive, and the time on
the clock otherwise. -/
def elapsed (e : Entry) (now : Moment) : Float :=
  match e.elapsedHint with
  | some hint => if 0.0 < hint then hint else secondsBetween e.started now
  | none => secondsBetween e.started now

/-- Bytes per second; none before any time has passed. -/
def rate (e : Entry) (now : Moment) : Float :=
  let t := e.elapsed now
  if t ≤ 0.0 then 0.0 else e.current.toFloat / t

/-- The seconds that remain at the present rate, when the size is known and
anything has been transferred. -/
def remaining (e : Entry) (now : Moment) : Option Float :=
  if e.total = 0 then none
  else
    let r := e.rate now
    if r ≤ 0.0 then none else some ((subSaturating e.total e.current).toFloat / r)

/-- The entry is the one that a handle was given for. -/
def isOf (e : Entry) (h : Handle) : Bool := e.generation == h.generation

/-! ### What producers do -/

/-- More bytes have been transferred, perhaps with a running time told. -/
def advance (e : Entry) (delta : UInt64) (hint : Float) : Entry :=
  { e with
    current := addSaturating e.current delta
    elapsedHint := if 0.0 < hint then some hint else e.elapsedHint }

/-- The transfer is complete: what was transferred is the whole of it. -/
def finish (e : Entry) : Entry :=
  if e.total = 0 then { e with active := false, total := e.current }
  else { e with active := false, current := e.total }

/-- The producer has given up. -/
def stop (e : Entry) (reason : String) : Entry :=
  { e with active := false, stopped := some reason }

/-- The digest and the file that a finished entry needs it for. -/
def digestJob? (e : Entry) : Option (DigestKind × Path) :=
  match e.kind, e.path with
  | some kind, some path => some (kind, path)
  | _, _ => none

/-- Stores the outcome of the digest calculation. A digest settles whether the
entry is verified. -/
def settleDigest (e : Entry) : Except DigestError String → Entry
  | .ok digest =>
    { e with
      verified := match e.expected with
        | some expected => digestsMatch digest expected
        | none => false
      computed := true
      digestError := none
      digest := some digest }
  | .error cause =>
    { e with computed := false, digest := none, digestError := some cause.message }

end Entry

end TransferBoard
