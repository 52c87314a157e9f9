import TransferBoard.Text.Blank

/-!
# Kinds of digests

## Main definitions

* `DigestKind` — MD5 or SHA-256.
* `DigestKind.label` — the name shown to the user.
* `DigestKind.hexLength`, `DigestKind.ofHexLength?` — the number of hexadecimal
  digits of a digest, and the kind that a number of digits tells.
* `DigestKind.ofName` — the kind that a name given by the user stands for.
* `digestsMatch` — two digests are the same up to case and surrounding blanks.
-/

namespace TransferBoard

/-- The digest algorithms. -/
inductive DigestKind where
  /-- The 128-bit digest that older download pages give. -/
  | md5
  /-- The 256-bit digest of the second secure hash family. -/
  | sha256
  deriving DecidableEq, Repr, Inhabited

namespace DigestKind

/-- The name of the kind as it is shown. -/
def label : DigestKind → String
  | md5 => "MD5"
  | sha256 => "SHA256"

/-- The name of the kind in settings and reports. -/
def word : DigestKind → String
  | md5 => "md5"
  | sha256 => "sha256"

/-- The number of hexadecimal digits in a digest of this kind. -/
def hexLength : DigestKind → Nat
  | md5 => 32
  | sha256 => 64

/-- The kind whose digests have the given number of hexadecimal digits. -/
def ofHexLength? (n : Nat) : Option DigestKind :=
  if n = 32 then some md5 else if n = 64 then some sha256 else none

/-- The length of a digest tells its kind. -/
@[simp] theorem ofHexLength?_hexLength (k : DigestKind) : ofHexLength? k.hexLength = some k := by
  cases k <;> rfl

/-- The text with its ASCII letters in lower case. -/
def lowerAscii (s : String) : String := s.map Char.toLower

/-- Reads the name of a kind, in any mixture of cases. A name that stands for no
kind is handed back in lower case. -/
def ofName (name : String) : Except String DigestKind :=
  match lowerAscii name with
  | "md5" => .ok md5
  | "sha256" => .ok sha256
  | "sha-256" => .ok sha256
  | other => .error other

end DigestKind

/-- Two texts are equal up to the case of ASCII letters. -/
def sameUpToCase (a b : String) : Bool :=
  a.toList.map Char.toLower == b.toList.map Char.toLower

/-- Compares a computed digest with an expected one: case and surrounding blanks
do not matter. -/
def digestsMatch (computed expected : String) : Bool :=
  sameUpToCase (trimBlank computed) (trimBlank expected)

end TransferBoard
