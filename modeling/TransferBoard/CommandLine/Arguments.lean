import TransferBoard.CommandLine.Draft

/-!
# Arguments

The arguments of the program are a command and then its options and operands in any
order. Long options may carry their value after an equals sign; short ones may be
written together, and the last of them may have its value attached. After a double
dash there are operands only.

A value that is given in an argument of its own is taken over when the next slot
starts, or at the end; a fault in it is found no earlier.

## Main definitions

* `Argument`, `Argument.ofText` — the forms of an argument.
* `Reading`, `Reading.step` — what is known after some arguments, and one more.
* `Request.ofArguments` — the request that the arguments make.
-/

namespace TransferBoard

/-- The forms of an argument. -/
inductive Argument where
  /-- The double dash: operands follow. -/
  | divider
  /-- A long option, perhaps with a value after an equals sign. -/
  | long (name : String) (value : Option String)
  /-- Short options written together. -/
  | short (letters : List Char)
  /-- Anything else: an operand or a value. -/
  | word (text : String)
  deriving DecidableEq, Repr

/-- Splits at the first equals sign. -/
def splitEquals : List Char → List Char × Option (List Char)
  | [] => ([], none)
  | '=' :: rest => ([], some rest)
  | c :: rest =>
    let (before, after) := splitEquals rest
    (c :: before, after)

/-- The form of an argument. A single dash is a word. -/
def Argument.ofText (text : String) : Argument :=
  match text.toList with
  | ['-', '-'] => .divider
  | '-' :: '-' :: rest =>
    let (name, value) := splitEquals rest
    .long (String.ofList name) (value.map String.ofList)
  | ['-'] => .word text
  | '-' :: letters => .short letters
  | _ => .word text

/-- What is known after some arguments. -/
structure Reading where
  /-- What has been taken over. -/
  draft : Draft := {}
  /-- The slot that is being filled, with its values so far. -/
  pending : Option (Slot × List String) := none
  /-- The slot is an option that waits for its value. -/
  awaiting : Bool := false
  /-- The number of operands. -/
  operands : Nat := 0
  /-- There are only operands from here on. -/
  divided : Bool := false

namespace Reading

/-- Takes over the slot that is being filled. -/
def settle (r : Reading) : Except UsageError Reading :=
  match r.pending with
  | none => .ok { r with awaiting := false }
  | some (slot, values) => do
    let draft ← r.draft.store slot values
    return { r with draft := draft, pending := none, awaiting := false }

/-- Takes over a slot that is complete. -/
def accept (r : Reading) (slot : Slot) (values : List String) : Except UsageError Reading := do
  let r ← r.settle
  let draft ← r.draft.store slot values
  return { r with draft := draft }

/-- Starts an option whose value is the next argument. -/
def await (r : Reading) (slot : Slot) : Except UsageError Reading := do
  let r ← r.settle
  return { r with pending := some (slot, []), awaiting := true }

/-- The values of the operands so far, if operands are being gathered. -/
def gathered? (r : Reading) (slot : Slot) : Option (List String) :=
  match r.pending with
  | some (s, values) => if s = slot then some values else none
  | none => none

/-- Takes an operand, if there is room for it. Operands that follow each other are
taken over together. -/
def takeOperand (c : Command) (r : Reading) (text : String) : Except UsageError Reading :=
  if c.operandLimit.any fun limit => limit ≤ r.operands then .error .unknownArgument
  else
    match r.gathered? c.operand with
    | some values =>
      .ok { r with pending := some (c.operand, values ++ [text]), operands := r.operands + 1 }
    | none => do
      let r ← r.settle
      return { r with pending := some (c.operand, [text]), operands := r.operands + 1 }

/-- Takes the value that an option waits for. -/
def takeValue (r : Reading) (text : String) : Reading :=
  { r with pending := r.pending.map fun p => (p.1, p.2 ++ [text]), awaiting := false }

/-- Takes a long option. -/
def takeLong (c : Command) (r : Reading) (name : String) (value : Option String) :
    Except UsageError Reading :=
  match c.longSlot? name, value with
  | none, _ => .error .unknownArgument
  | some slot, some v => if slot.takesValue then r.accept slot [v] else .error .unneededValue
  | some slot, none => if slot.takesValue then r.await slot else r.accept slot []

/-- Takes short options written together. What follows one that takes a value is its
value, with or without an equals sign in front. -/
def takeShort (c : Command) (r : Reading) : List Char → Except UsageError Reading
  | [] => .ok r
  | letter :: rest =>
    match c.shortSlot? letter with
    | none => .error .unknownArgument
    | some slot =>
      if slot.takesValue then
        match rest with
        | [] => r.await slot
        | '=' :: value => r.accept slot [String.ofList value]
        | value => r.accept slot [String.ofList value]
      else do
        let r ← r.accept slot []
        takeShort c r rest

/-- One more argument. -/
def step (c : Command) (r : Reading) (text : String) : Except UsageError Reading :=
  if r.divided then r.takeOperand c text
  else
    match Argument.ofText text with
    | .divider => .ok { r with divided := true }
    | .long name value => r.takeLong c name value
    | .short letters => r.takeShort c letters
    | .word word => if r.awaiting then .ok (r.takeValue word) else r.takeOperand c word

end Reading

/-- The request that the arguments after the name of a command make. -/
def Command.read (c : Command) (arguments : List String) : Except UsageError Request := do
  let r ← arguments.foldlM (Reading.step c) {}
  let r ← r.settle
  r.draft.request c

/-- The name of a command, or the word that asks for a description. -/
def isCommandWord (word : String) : Bool := word == "help" || (Command.ofWord? word).isSome

/-- What is said when a description is asked for: commands have no commands of their
own to describe. -/
def helpOn : List String → UsageError
  | [] => .help
  | [word] => if isCommandWord word then .help else .unknownCommand
  | _ => .unknownCommand

/-- What is said when a double dash comes before the command. -/
def afterDivider : List String → UsageError
  | [] => .missingCommand
  | word :: _ => if isCommandWord word then .unknownArgument else .unknownCommand

/-- The request that the arguments make. -/
def Request.ofArguments : List String → Except UsageError Request
  | [] => .error .missingCommand
  | first :: rest =>
    match Argument.ofText first with
    | .divider => .error (afterDivider rest)
    | .long "help" none => .error .help
    | .long "help" (some _) => .error .unneededValue
    | .long _ _ => .error .unknownArgument
    | .short ('h' :: _) => .error .help
    | .short _ => .error .unknownArgument
    | .word "help" => .error (helpOn rest)
    | .word word =>
      match Command.ofWord? word with
      | some c => c.read rest
      | none => .error .unknownCommand

end TransferBoard
