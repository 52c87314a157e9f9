/-!
# Bytes and hexadecimal digits

## Main definitions

* `Bytes` — a sequence of bytes: the contents of a file, or a raw digest.
* `hexText bytes` — two lower-case hexadecimal digits for each byte.
-/

namespace TransferBoard

/-- A sequence of bytes. -/
abbrev Bytes := Array UInt8

/-- The lower-case hexadecimal digit of a number below sixteen. -/
def hexDigit (n : Nat) : Char :=
  if n < 10 then Char.ofNat (48 + n) else Char.ofNat (87 + n)

/-- The two hexadecimal digits of a byte, the high one first. -/
def hexByte (b : UInt8) : List Char :=
  [hexDigit (b.toNat / 16), hexDigit (b.toNat % 16)]

/-- The hexadecimal text of a sequence of bytes. -/
def hexText (bytes : List UInt8) : String :=
  String.ofList (bytes.flatMap hexByte)

/-- The text has two digits for each byte. -/
theorem length_hexText (bytes : List UInt8) : (hexText bytes).length = 2 * bytes.length := by
  unfold hexText
  rw [String.length_ofList]
  induction bytes with
  | nil => rfl
  | cons b r ih => simp only [List.flatMap_cons, List.length_append, ih, hexByte,
      List.length_cons, List.length_nil]; omega

end TransferBoard
