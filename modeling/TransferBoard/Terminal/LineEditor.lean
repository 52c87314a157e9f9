import TransferBoard.Terminal.Key
import TransferBoard.Text.Blank

/-!
# Line prompts

A line is typed key by key, and shown again after every edit.

## Main definitions

* `LineEdit`, `lineEdit key` — what a key does at a line prompt.
* `readLine echo` — reads a line. Enter delivers it; escape and the end of input
  give it up.
-/

namespace TransferBoard

/-- What a key does at a line prompt. -/
inductive LineEdit where
  /-- The line is given up. -/
  | giveUp
  /-- The line is complete. -/
  | accept
  /-- The line has changed. -/
  | edit (f : List Char → List Char)
  /-- Nothing happens. -/
  | ignore

/-- What a key does at a line prompt. The text is held with its last character
first. -/
def lineEdit : Key → LineEdit
  | .esc => .giveUp
  | .enter => .accept
  | .backspace => .edit List.tail
  | .char c => if isControl c then .ignore else .edit (c :: ·)
  | _ => .ignore

/-- Reads a line. `typed` is the text so far, its last character first; `echo`
shows the text after every edit. Gives back the keys that are left. -/
def readLine {σ : Type} (echo : String → σ → Except OsError Unit × σ) (typed : List Char) :
    List KeyEvent → σ → Except OsError (Option String) × List KeyEvent × σ
  | [], s => (.ok none, [], s)
  | .failure e :: rest, s => (.error e, rest, s)
  | .crash :: rest, s => (.error brokenSource, rest, s)
  | .press key :: rest, s =>
    match lineEdit key with
    | .giveUp => (.ok none, rest, s)
    | .accept => (.ok (some (String.ofList typed.reverse)), rest, s)
    | .ignore => readLine echo typed rest s
    | .edit f =>
      match echo (String.ofList (f typed).reverse) s with
      | (.error e, s') => (.error e, rest, s')
      | (.ok (), s') => readLine echo (f typed) rest s'

end TransferBoard
