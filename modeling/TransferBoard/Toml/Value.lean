import TransferBoard.Toml.Number

/-!
# Values of a settings file

A value is a text, a number, a date, a list, or a table of values under keys. Tables come
about in several ways, and it depends on the way who may add to them later: a table that
a header or braces have declared is closed to keys with dots, one that was implied by a
header below it may still be declared, and one made by keys with dots takes more of
these.

## Main definitions

* `TableOrigin`, `Toml`, `TomlEntries` — how tables come about, the values, and keys with
  their values.
* `TomlEntries.find?`, `TomlEntries.set`, `TomlEntries.insertAt` — looking up, replacing, and adding
  under a key with dots.
* `Toml.key`, `Toml.value` — the readers of keys and values.
-/

namespace TransferBoard

/-- How a table came about. -/
inductive TableOrigin where
  /-- By a header of its own. -/
  | declared
  /-- By a header below it. -/
  | implied
  /-- By keys with dots. -/
  | dotted
  deriving DecidableEq, Repr

/-- A value. What no setting is made of is checked, but not kept. -/
inductive Toml where
  /-- A text. -/
  | text (value : String)
  /-- A whole number. -/
  | whole (value : Int)
  /-- Any other number. -/
  | fraction
  /-- A truth value. -/
  | truth (value : Bool)
  /-- A date, a time of the day, or both. -/
  | moment
  /-- A list of values. -/
  | list (items : List Toml)
  /-- A table in braces. -/
  | braces (entries : List (String × Toml))
  /-- A table of lines. -/
  | table (origin : TableOrigin) (entries : List (String × Toml))
  /-- A list of tables of lines; the last one is still open. -/
  | tables (earlier : List (List (String × Toml))) (last : List (String × Toml))

/-- Keys with their values, in the order in which they came. -/
abbrev TomlEntries := List (String × Toml)

namespace TomlEntries

/-- The value under a key. -/
def find? (entries : TomlEntries) (key : String) : Option Toml :=
  (List.find? (fun e => e.1 == key) entries).map Prod.snd

/-- The entries with a value under a key, in the place of the one before. -/
def set (entries : TomlEntries) (key : String) (value : Toml) : TomlEntries :=
  if entries.any fun e => e.1 == key then
    entries.map fun e => if e.1 == key then (key, value) else e
  else entries ++ [(key, value)]

/-- Adds a value under a key, which is given with the keys of the tables on the way to
it. The key must be free, and no table on the way be closed. A table takes the value
itself only if it is `taking`: the one that the key starts from, or one made by keys
with dots. -/
def insertAt (taking : Bool) (entries : TomlEntries) : List String → Toml → Option TomlEntries
  | [], _ => none
  | [key], value =>
    if !taking || (find? entries key).isSome then none else some (set entries key value)
  | key :: rest, value =>
    match find? entries key with
    | none => (insertAt true [] rest value).map fun inner => set entries key (.table .dotted inner)
    | some (.table .dotted inner) =>
      (insertAt true inner rest value).map fun inner => set entries key (.table .dotted inner)
    | some (.table .implied inner) =>
      (insertAt false inner rest value).map fun inner => set entries key (.table .implied inner)
    | some (.tables earlier last) =>
      (insertAt false last rest value).map fun last => set entries key (.tables earlier last)
    | some _ => none

end TomlEntries

namespace Toml

/-! ### Keys -/

/-- A character of a key without quotes. -/
def isKeyChar (c : Char) : Bool := c.isAlphanum || c == '_' || c == '-'

/-- Takes a key without dots. -/
def simpleKey : Reader String := fun cs =>
  match cs with
  | '"' :: _ => shortQuoted cs
  | '\'' :: _ => shortQuoted cs
  | _ =>
    let letters := cs.takeWhile isKeyChar
    if letters.isEmpty then none else some (String.ofList letters, cs.dropWhile isKeyChar)

/-- Takes the parts of a key, with spaces around each; the number bounds them. -/
def keyParts : Nat → Reader (List String)
  | 0, _ => none
  | n + 1, cs => do
    let (part, cs) ← simpleKey (skipSpace cs)
    match skipSpace cs with
    | '.' :: rest => do
      let (parts, rest) ← keyParts n rest
      some (part :: parts, rest)
    | rest => some ([part], rest)

/-- One more than the number of levels that values, and keys with dots, may have. -/
def levelEnd : Nat := 80

/-- Takes a key with all its parts. -/
def key : Reader (List String) := keyParts (levelEnd - 1)

/-- Takes a key and the value after its equals sign. -/
def keyAndValue (value : Reader Toml) : Reader (List String × Toml) := fun cs => do
  let (path, cs) ← key cs
  let cs ← expect '=' cs
  let (v, cs) ← value (skipSpace cs)
  some ((path, v), cs)

/-! ### Values -/

/-- Takes the values of a list after its bracket. A comma may follow the last one. The
number bounds the values. -/
def listItems (value : Reader Toml) : Nat → Reader (List Toml)
  | 0, _ => none
  | n + 1, cs => do
    let cs ← skipLines cs.length cs
    match cs with
    | ']' :: rest => some ([], rest)
    | cs => do
      let (item, cs) ← value cs
      let cs ← skipLines cs.length cs
      match cs with
      | ']' :: rest => some ([item], rest)
      | ',' :: rest => do
        let (items, rest) ← listItems value n rest
        some (item :: items, rest)
      | _ => none

/-- Takes the keys and values of a table in braces, of which there is one at least. No
comma may follow the last one. The number bounds them. -/
def bracedItems (value : Reader Toml) : Nat → TomlEntries → Reader TomlEntries
  | 0, _, _ => none
  | n + 1, entries, cs => do
    let ((path, v), cs) ← keyAndValue value cs
    let entries ← entries.insertAt true path v
    match skipSpace cs with
    | '}' :: rest => some (entries, rest)
    | ',' :: rest => bracedItems value n entries rest
    | _ => none

/-- Takes a table in braces after the opening one. -/
def braced (value : Reader Toml) : Reader TomlEntries := fun cs =>
  match skipSpace cs with
  | '}' :: rest => some ([], rest)
  | rest => bracedItems value (rest.length + 1) [] rest

/-- A number as a value. -/
def ofNumeral : Numeral → Toml
  | .whole n => .whole n
  | .fraction => .fraction

/-- Takes a value without parts. -/
def scalar : Reader Toml := fun cs =>
  match cs with
  | '"' :: _ => (quoted cs).map fun p => (.text p.1, p.2)
  | '\'' :: _ => (quoted cs).map fun p => (.text p.1, p.2)
  | 't' :: 'r' :: 'u' :: 'e' :: rest => some (.truth true, rest)
  | 'f' :: 'a' :: 'l' :: 's' :: 'e' :: rest => some (.truth false, rest)
  | _ =>
    if startsDate cs || startsTime cs then (dateTime cs).map fun rest => (.moment, rest)
    else (numeral cs).map fun p => (ofNumeral p.1, p.2)

/-- Takes a value with the given number of levels at most. -/
def valueWithin : Nat → Reader Toml
  | 0, cs =>
    match cs with
    | '[' :: _ => none
    | '{' :: _ => none
    | cs => scalar cs
  | levels + 1, cs =>
    match cs with
    | '[' :: rest =>
      (listItems (valueWithin levels) (rest.length + 1) rest).map fun p => (.list p.1, p.2)
    | '{' :: rest =>
      (braced (valueWithin levels) rest).map fun p => (.braces p.1, p.2)
    | cs => scalar cs

/-- Takes a value. -/
def value : Reader Toml := valueWithin (levelEnd - 1)

end Toml

end TransferBoard
