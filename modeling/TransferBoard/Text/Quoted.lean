import TransferBoard.Text.Shown

/-!
# Quoted texts

A text between double quotes, in which every character can be seen. A character that
cannot is written by its code, so that two different texts never look the same.

## Main definitions

* `escapedChar c` — how a character is written between the quotes.
* `quotedText text` — the text between its quotes.
-/

namespace TransferBoard

/-- A code point in hexadecimal digits. -/
def codeText (n : Nat) : String := String.ofList (Nat.toDigits 16 n)

/-- How a character is written between double quotes: the usual short forms, itself
if it can be seen on its own, and its code otherwise. -/
def escapedChar (c : Char) : String :=
  match c with
  | '\t' => "\\t"
  | '\r' => "\\r"
  | '\n' => "\\n"
  | '"' => "\\\""
  | '\\' => "\\\\"
  | c =>
    if c.toNat = 0 then "\\0"
    else if isShown c then c.toString
    else "\\u\x7b" ++ codeText c.toNat ++ "\x7d"

/-- A text between double quotes. -/
def quotedText (text : String) : String :=
  "\"" ++ String.join (text.toList.map escapedChar) ++ "\""

end TransferBoard
