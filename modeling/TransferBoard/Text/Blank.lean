/-!
# Blank and control characters

What counts as blank space around an entry, a digest or a row of the screen, and
which characters a line prompt refuses.

## Main definitions

* `isBlank c` — `c` has the Unicode property `White_Space`.
* `isControl c` — `c` is of the Unicode category `Cc`.
* `trimBlank s` — `s` without the blanks around it.
* `nonBlank? s` — the trimmed text, unless nothing is left.
-/

namespace TransferBoard

/-- The code points with the Unicode property `White_Space`. -/
def isBlank (c : Char) : Bool :=
  let n := c.toNat
  (9 ≤ n && n ≤ 13) || n == 0x20 || n == 0x85 || n == 0xA0 || n == 0x1680
    || (0x2000 ≤ n && n ≤ 0x200A) || n == 0x2028 || n == 0x2029 || n == 0x202F
    || n == 0x205F || n == 0x3000

/-- The control characters: the C0 block, delete, and the C1 block. -/
def isControl (c : Char) : Bool :=
  c.toNat < 0x20 || (0x7F ≤ c.toNat && c.toNat ≤ 0x9F)

/-- Drops the blanks at the end of a list of characters. -/
def dropBlankEnd (cs : List Char) : List Char :=
  (cs.reverse.dropWhile isBlank).reverse

/-- The text without the blanks at its two ends. -/
def trimBlank (s : String) : String :=
  String.ofList (dropBlankEnd (s.toList.dropWhile isBlank))

/-- The trimmed text, or nothing when only blanks were given. -/
def nonBlank? (s : String) : Option String :=
  let t := trimBlank s
  if t = "" then none else some t

end TransferBoard
