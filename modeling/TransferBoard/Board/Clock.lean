/-!
# Times

A moment is a number of nanoseconds since some origin.

## Main definitions

* `Moment` — a point in time.
* `secondsBetween earlier later` — the seconds from one moment to a later one.
-/

namespace TransferBoard

/-- A point in time, in nanoseconds. -/
abbrev Moment := Nat

/-- The nanoseconds in a second. -/
def nanosPerSecond : Nat := 1000000000

/-- The nanoseconds in a millisecond. -/
def nanosPerMilli : Nat := 1000000

/-- A span of nanoseconds in seconds: the whole seconds and the rest, each
rounded to a binary64 number before they are added. -/
def secondsOf (nanos : Nat) : Float :=
  Float.ofNat (nanos / nanosPerSecond) + Float.ofNat (nanos % nanosPerSecond) / 1000000000.0

/-- The seconds from a moment to a later one; none when the other is not later. -/
def secondsBetween (earlier later : Moment) : Float := secondsOf (later - earlier)

end TransferBoard
