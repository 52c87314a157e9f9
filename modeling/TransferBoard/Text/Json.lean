import TransferBoard.Number.FixedPlaces

/-!
# JSON texts

Values and their layout over several lines: two spaces for each level, an entry on
each line, nothing between the brackets of an empty value.

## Main definitions

* `JsonValue` — the values that reports are made of.
* `quoted s` — a text in quotes, with what must not stand there escaped.
* `JsonValue.pretty v` — the value over several lines.
-/

namespace TransferBoard

/-- The values that reports are made of. -/
inductive JsonValue where
  /-- No value. -/
  | null
  /-- A truth value. -/
  | bool (b : Bool)
  /-- A number. -/
  | num (n : Nat)
  /-- A text. -/
  | str (s : String)
  /-- Values in order. -/
  | arr (items : List JsonValue)
  /-- Named values in order. -/
  | obj (fields : List (String × JsonValue))

/-- A text, or no value. -/
def JsonValue.ofText? : Option String → JsonValue
  | some s => .str s
  | none => .null

/-- The four hexadecimal digits of a code point below 65536. -/
def hexFour (n : Nat) : List Char :=
  (padStart 4 '0' (String.ofList (Nat.toDigits 16 n))).toList

/-- A character of a quoted text. Quotes and backslashes are escaped, and control
characters of the C0 block, the common ones by a letter. -/
def quotedChar (c : Char) : List Char :=
  if c = '"' then ['\\', '"']
  else if c = '\\' then ['\\', '\\']
  else if c = '\n' then ['\\', 'n']
  else if c = '\r' then ['\\', 'r']
  else if c = '\t' then ['\\', 't']
  else if c.toNat = 8 then ['\\', 'b']
  else if c.toNat = 12 then ['\\', 'f']
  else if c.toNat < 32 then '\\' :: 'u' :: hexFour c.toNat
  else [c]

/-- A text in quotes. -/
def quoted (s : String) : String := "\"" ++ String.ofList (s.toList.flatMap quotedChar) ++ "\""

/-- The blanks before a line at the given level. -/
def indentation (level : Nat) : String := String.ofList (List.replicate (2 * level) ' ')

/-- Lines between two brackets, one level further in, with commas between them. -/
def bracketed (left right : String) (level : Nat) (lines : List String) : String :=
  if lines = [] then left ++ right
  else
    left ++ "\n"
      ++ ",\n".intercalate (lines.map fun line => indentation (level + 1) ++ line)
      ++ "\n" ++ indentation level ++ right

namespace JsonValue

mutual

/-- The value laid out at a level. -/
def prettyAt (level : Nat) : JsonValue → String
  | null => "null"
  | bool b => if b then "true" else "false"
  | num n => toString n
  | str s => quoted s
  | arr items => bracketed "[" "]" level (prettyItems (level + 1) items)
  | obj fields => bracketed "\x7b" "\x7d" level (prettyFields (level + 1) fields)

/-- The items of an array, each laid out at a level. -/
def prettyItems (level : Nat) : List JsonValue → List String
  | [] => []
  | v :: rest => prettyAt level v :: prettyItems level rest

/-- The fields of an object, each laid out at a level. -/
def prettyFields (level : Nat) : List (String × JsonValue) → List String
  | [] => []
  | (name, v) :: rest => (quoted name ++ ": " ++ prettyAt level v) :: prettyFields level rest

end

/-- The value over several lines. -/
def pretty (v : JsonValue) : String := prettyAt 0 v

end JsonValue

end TransferBoard
