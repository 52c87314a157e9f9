/-!
# Numbers with a fixed number of places

A binary64 number is written with a given number of places after the point, from
its exact value: the nearest such decimal is chosen, and of two equally near ones
the one with the even last digit.

## Main definitions

* `roundDiv num den` — the integer nearest to a quotient, ties to even.
* `Magnitude.ofFloat x` — the exact value of `|x|`, `mantissa · 2 ^ exponent`.
* `fixedPlaces places x` — the text of `x` with `places` digits after the point.
* `padStart`, `padEnd` — a text filled up with a character to a given width.
-/

namespace TransferBoard

/-- The integer nearest to `num / den`; a half goes to the even neighbour. -/
def roundDiv (num den : Nat) : Nat :=
  let q := num / den
  let r := num % den
  if 2 * r < den then q
  else if den < 2 * r then q + 1
  else if q % 2 = 0 then q else q + 1

/-- The rounded quotient is within half a unit of the exact one. -/
theorem roundDiv_near (num den : Nat) (h : 0 < den) :
    2 * num ≤ 2 * (roundDiv num den * den) + den ∧
      2 * (roundDiv num den * den) ≤ 2 * num + den := by
  have hr : num % den < den := Nat.mod_lt _ h
  have hq : num / den * den + num % den = num := by
    rw [Nat.mul_comm]; exact Nat.div_add_mod num den
  have hs : (num / den + 1) * den = num / den * den + den := by rw [Nat.add_mul, Nat.one_mul]
  simp only [roundDiv]
  split
  · omega
  · split
    · rw [hs]; omega
    · split
      · omega
      · rw [hs]; omega

/-- The absolute value of a binary64 number. -/
inductive Magnitude where
  /-- Not a number. -/
  | nan
  /-- Beyond every finite number. -/
  | infinite
  /-- The value `mantissa · 2 ^ exponent`. -/
  | finite (mantissa : Nat) (exponent : Int)
  deriving DecidableEq

/-- Reads the fields of a binary64 number: 52 bits of fraction under 11 bits of
biased exponent; the least exponent has no hidden bit. -/
def Magnitude.ofFloat (x : Float) : Magnitude :=
  let bits : Nat := x.toBits.toNat
  let fraction : Nat := bits % 0x10000000000000
  let biased : Nat := bits / 0x10000000000000 % 0x800
  if biased = 0x7FF then (if fraction = 0 then .infinite else .nan)
  else if biased = 0 then .finite fraction (-1074)
  else .finite (fraction + 0x10000000000000) ((biased : Int) - 1075)

/-- The sign bit of a binary64 number. -/
def signBit (x : Float) : Bool := 0x8000000000000000 ≤ x.toBits

/-- The text with fill characters before it, up to the width given. -/
def padStart (width : Nat) (fill : Char) (s : String) : String :=
  String.ofList (List.replicate (width - s.length) fill) ++ s

/-- The text with fill characters after it, up to the width given. -/
def padEnd (width : Nat) (fill : Char) (s : String) : String :=
  s ++ String.ofList (List.replicate (width - s.length) fill)

/-- The value `mantissa · 2 ^ exponent` in units of the last place, rounded. -/
def scaled (places mantissa : Nat) (exponent : Int) : Nat :=
  match exponent with
  | .ofNat e => mantissa * Nat.pow 2 e * Nat.pow 10 places
  | .negSucc e => roundDiv (mantissa * Nat.pow 10 places) (Nat.pow 2 (e + 1))

/-- The decimal with `places` digits after the point whose units of the last
place are `units`. -/
def decimalText (places units : Nat) : String :=
  let whole := toString (units / Nat.pow 10 places)
  if places = 0 then whole
  else whole ++ "." ++ padStart places '0' (toString (units % Nat.pow 10 places))

/-- The text of a binary64 number with a fixed number of places. The sign of zero
is kept. -/
def fixedPlaces (places : Nat) (x : Float) : String :=
  let sign := if signBit x then "-" else ""
  match Magnitude.ofFloat x with
  | .nan => "NaN"
  | .infinite => sign ++ "inf"
  | .finite m e => sign ++ decimalText places (scaled places m e)

end TransferBoard
