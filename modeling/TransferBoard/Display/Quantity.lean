import TransferBoard.Number.FixedPlaces

/-!
# Sizes, rates, remaining times and bars

How the dashboard writes the figures of a transfer.

## Main definitions

* `sizeText n` — a byte count, in bytes below 1 KiB and with two places above.
* `rateText r` — a rate in bytes per second, in the largest unit it reaches.
* `remainingText s` — seconds as `HH:MM:SS`; the hours grow past two digits.
* `barText fraction width` — a bar of `width` cells, brackets included.
-/

namespace TransferBoard

/-- Bytes in a KiB. -/
def kib : Float := 1024.0

/-- Bytes in a MiB. -/
def mib : Float := 1048576.0

/-- Bytes in a GiB. -/
def gib : Float := 1073741824.0

/-- A byte count: whole bytes below one KiB, otherwise two places in the largest
of the units KiB, MiB and GiB that the count reaches. -/
def sizeText (bytes : UInt64) : String :=
  let b := bytes.toFloat
  if gib ≤ b then fixedPlaces 2 (b / gib) ++ " GiB"
  else if mib ≤ b then fixedPlaces 2 (b / mib) ++ " MiB"
  else if kib ≤ b then fixedPlaces 2 (b / kib) ++ " KiB"
  else toString bytes.toNat ++ " B"

/-- A rate with two places in the largest unit it reaches; a rate that reaches
none, such as one that is no number, is written in bytes per second. -/
def rateText (bytesPerSecond : Float) : String :=
  if gib ≤ bytesPerSecond then fixedPlaces 2 (bytesPerSecond / gib) ++ " GiB/s"
  else if mib ≤ bytesPerSecond then fixedPlaces 2 (bytesPerSecond / mib) ++ " MiB/s"
  else if kib ≤ bytesPerSecond then fixedPlaces 2 (bytesPerSecond / kib) ++ " KiB/s"
  else fixedPlaces 2 bytesPerSecond ++ " B/s"

/-- The whole part of a number of seconds, cut to the range of 64-bit words;
negative times and times that are no number count as zero. -/
def wholeSeconds (seconds : Float) : Nat := seconds.toUInt64.toNat

/-- Two digits at least. -/
def twoDigits (n : Nat) : String := padStart 2 '0' (toString n)

/-- A remaining time as hours, minutes and seconds. -/
def remainingText (seconds : Float) : String :=
  let total := wholeSeconds seconds
  twoDigits (total / 3600) ++ ":" ++ twoDigits (total % 3600 / 60) ++ ":" ++ twoDigits (total % 60)

/-- The fraction moved into the range from zero to one. A fraction that is no
number stays what it is. -/
def clampUnit (x : Float) : Float :=
  if x < 0.0 then 0.0 else if 1.0 < x then 1.0 else x

/-- How many of `cells` cells a fraction fills, the last one only when it is
filled completely. -/
def filledCells (fraction : Float) (cells : Nat) : Nat :=
  (clampUnit fraction * Float.ofNat cells).toUInt64.toNat

/-- A progress bar of `width` cells: filled and empty cells between brackets. -/
def barText (fraction : Float) (width : Nat) : String :=
  let inner := width - 2
  let filled := filledCells fraction inner
  "[" ++ String.ofList (List.replicate filled '#')
    ++ String.ofList (List.replicate (inner - filled) ' ') ++ "]"

end TransferBoard
