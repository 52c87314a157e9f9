/-!
# Blanks, comments and quoted texts of a settings file

A settings file is read from the front. A reader takes what it knows off the front of the
characters, or refuses them.

## Main definitions

* `Reader` — takes a value off the front.
* `Toml.skipSpace`, `lineEnd`, `skipLines` — what stands between the parts of a line and
  between lines.
* `Toml.quoted` — a text between quotes of one of the four forms.
-/

namespace TransferBoard

/-- Takes a value off the front of some characters, or refuses them. -/
abbrev Reader (α : Type) := List Char → Option (α × List Char)

namespace Toml

/-- A space or a tab. -/
def isSpace (c : Char) : Bool := c == ' ' || c == '\t'

/-- A character that may stand in a comment and in a text: a tab, or any that is not a
control character of ASCII. -/
def isPlain (c : Char) : Bool := c == '\t' || (0x20 ≤ c.toNat && c.toNat != 0x7F)

/-- Drops spaces and tabs. -/
def skipSpace (cs : List Char) : List Char := cs.dropWhile isSpace

/-- Takes a line break: a line feed, perhaps after a carriage return. -/
def lineBreak? : List Char → Option (List Char)
  | '\n' :: rest => some rest
  | '\r' :: '\n' :: rest => some rest
  | _ => none

/-- Drops a comment, if there is one. -/
def skipComment : List Char → List Char
  | '#' :: rest => rest.dropWhile isPlain
  | cs => cs

/-- Takes the rest of a line: spaces, perhaps a comment, and the line break or the end of
the file. -/
def lineEnd (cs : List Char) : Option (List Char) :=
  match skipComment (skipSpace cs) with
  | [] => some []
  | rest => lineBreak? rest

/-- Drops spaces, line breaks and comments, the given number of lines at most. A comment
that no line break ends is refused. -/
def skipLines : Nat → List Char → Option (List Char)
  | 0, cs => some cs
  | n + 1, cs =>
    match skipSpace cs with
    | '#' :: rest => (lineBreak? (rest.dropWhile isPlain)).bind (skipLines n)
    | rest =>
      match lineBreak? rest with
      | some after => skipLines n after
      | none => some rest

/-- Drops spaces and line breaks. -/
def skipBreaks : List Char → List Char
  | '\r' :: '\n' :: rest => skipBreaks rest
  | c :: rest => if isSpace c || c == '\n' then skipBreaks rest else c :: rest
  | [] => []

/-! ### Escapes -/

/-- The value of a hexadecimal digit. -/
def hexDigit? (c : Char) : Option Nat :=
  if c.isDigit then some (c.toNat - '0'.toNat)
  else if 'a' ≤ c ∧ c ≤ 'f' then some (c.toNat - 'a'.toNat + 10)
  else if 'A' ≤ c ∧ c ≤ 'F' then some (c.toNat - 'A'.toNat + 10)
  else none

/-- The number that hexadecimal digits stand for. -/
def hexValue? (cs : List Char) : Option Nat :=
  cs.foldlM (fun n c => (hexDigit? c).map (16 * n + ·)) 0

/-- The character with a code; the surrogates have none, and there is an end to the
codes. -/
def charOfCode? (n : Nat) : Option Char := if n.isValidChar then some (Char.ofNat n) else none

/-- Takes a code of the given number of hexadecimal digits. -/
def codeEscape (digits : Nat) : Reader Char := fun cs =>
  if cs.length < digits then none
  else ((hexValue? (cs.take digits)).bind charOfCode?).map fun c => (c, cs.drop digits)

/-- Takes what follows the backslash of an escape. -/
def escape : Reader Char
  | '"' :: rest => some ('"', rest)
  | '\\' :: rest => some ('\\', rest)
  | 'b' :: rest => some (Char.ofNat 8, rest)
  | 'f' :: rest => some (Char.ofNat 12, rest)
  | 'n' :: rest => some ('\n', rest)
  | 'r' :: rest => some ('\r', rest)
  | 't' :: rest => some ('\t', rest)
  | 'u' :: rest => codeEscape 4 rest
  | 'U' :: rest => codeEscape 8 rest
  | _ => none

/-! ### Quoted texts -/

/-- Puts a character in front of what a reader has taken. -/
def consChar (c : Char) (r : Option (List Char × List Char)) : Option (List Char × List Char) :=
  r.map fun p => (c :: p.1, p.2)

/-- Takes a text up to its double quote. The number bounds the characters of the text. -/
def basicBody : Nat → Reader (List Char)
  | 0, _ => none
  | n + 1, cs =>
    match cs with
    | [] => none
    | '"' :: rest => some ([], rest)
    | '\\' :: rest => (escape rest).bind fun p => consChar p.1 (basicBody n p.2)
    | c :: rest => if isPlain c then consChar c (basicBody n rest) else none

/-- Takes a text up to its single quote. Nothing is escaped in it. -/
def literalBody : Reader (List Char)
  | [] => none
  | '\'' :: rest => some ([], rest)
  | c :: rest => if isPlain c then consChar c (literalBody rest) else none

/-- Takes three quotes that end a text over several lines. One or two more in front of
them belong to the text. -/
def closing (quote : Char) (cs : List Char) : Option (List Char × List Char) :=
  let run := (cs.takeWhile (· == quote)).length
  if run < 3 then none
  else
    let own := min (run - 3) 2
    some (List.replicate own quote, cs.drop (own + 3))

/-- What follows a backslash at the end of a line: blanks up to the next text. -/
def continuedLine? (cs : List Char) : Option (List Char) :=
  (lineBreak? (skipSpace cs)).map skipBreaks

/-- Takes a text over several lines up to its three double quotes. The number bounds the
characters of the text. -/
def basicLines : Nat → Reader (List Char)
  | 0, _ => none
  | n + 1, cs =>
    match closing '"' cs with
    | some found => some found
    | none =>
      match cs with
      | [] => none
      | '\\' :: rest =>
        match continuedLine? rest with
        | some after => basicLines n after
        | none => (escape rest).bind fun p => consChar p.1 (basicLines n p.2)
      | c :: rest =>
        match lineBreak? cs with
        | some after => consChar '\n' (basicLines n after)
        | none => if isPlain c then consChar c (basicLines n rest) else none

/-- Takes a text over several lines up to its three single quotes. The number bounds the
characters of the text. -/
def literalLines : Nat → Reader (List Char)
  | 0, _ => none
  | n + 1, cs =>
    match closing '\'' cs with
    | some found => some found
    | none =>
      match lineBreak? cs, cs with
      | some after, _ => consChar '\n' (literalLines n after)
      | none, [] => none
      | none, c :: rest => if isPlain c then consChar c (literalLines n rest) else none

/-- Drops the line break right after the quotes that open a text over several lines. -/
def dropFirstBreak (cs : List Char) : List Char := (lineBreak? cs).getD cs

/-- The characters taken as a text. -/
def asText (r : Option (List Char × List Char)) : Option (String × List Char) :=
  r.map fun p => (String.ofList p.1, p.2)

/-- Takes a text in double or single quotes on one line. -/
def shortQuoted : Reader String
  | '"' :: rest => asText (basicBody (rest.length + 1) rest)
  | '\'' :: rest => asText (literalBody rest)
  | _ => none

/-- Takes a text in quotes of any form. -/
def quoted : Reader String
  | '"' :: '"' :: '"' :: rest =>
    let rest := dropFirstBreak rest
    asText (basicLines (rest.length + 1) rest)
  | '\'' :: '\'' :: '\'' :: rest =>
    let rest := dropFirstBreak rest
    asText (literalLines (rest.length + 1) rest)
  | cs => shortQuoted cs

end Toml

end TransferBoard
