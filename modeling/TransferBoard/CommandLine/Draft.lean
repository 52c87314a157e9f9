import TransferBoard.CommandLine.Request

/-!
# Requests in the making

While the arguments are read, what they ask for is gathered slot by slot: a slot is an
option or an operand of a command.

## Main definitions

* `UsageError` — why arguments are no request.
* `Command`, `Slot` — the commands, and the options and operands that they have.
* `Command.longSlot?`, `shortSlot?`, `operand`, `operandLimit` — which slots a
  command has.
* `Draft`, `Draft.store` — what has been gathered, and one more slot.
* `Draft.request` — the request, once nothing is missing.
-/

namespace TransferBoard

/-- Why arguments are no request. -/
inductive UsageError where
  /-- The description of the program was asked for. -/
  | help
  /-- No command was given. -/
  | missingCommand
  /-- There is no such command. -/
  | unknownCommand
  /-- There is no such option, or no room for an operand. -/
  | unknownArgument
  /-- An option came without the value that it needs, or with an empty one. -/
  | missingValue
  /-- A value is none of those that there are to choose from. -/
  | unknownChoice
  /-- A value cannot be read. -/
  | malformedValue
  /-- A flag came with a value. -/
  | unneededValue
  /-- What may be given once was given again. -/
  | repeated
  /-- Something is missing that has to be given. -/
  | missingArgument
  deriving DecidableEq, Repr

/-- The commands. -/
inductive Command where
  /-- To copy files. -/
  | copy
  /-- To calculate a digest. -/
  | checksum
  /-- To print completions. -/
  | completions
  deriving DecidableEq, Repr

/-- An option or operand. -/
inductive Slot where
  /-- The description of the command. -/
  | help
  /-- The files to copy. -/
  | sources
  /-- To edit the list of files first. -/
  | interactive
  /-- The directory to copy into. -/
  | dest
  /-- The number of copies at a time. -/
  | concurrency
  /-- The kind of digest for every file. -/
  | checksum
  /-- An expected digest. -/
  | expect
  /-- Not to ask questions. -/
  | noVerify
  /-- Where to write the outcome. -/
  | report
  /-- The file to calculate the digest of. -/
  | path
  /-- The kind of digest to calculate. -/
  | kind
  /-- The shell to make completions for. -/
  | shell
  deriving DecidableEq, Repr

/-- The slot comes with a value. -/
def Slot.takesValue : Slot → Bool
  | help => false
  | interactive => false
  | noVerify => false
  | _ => true

namespace Command

/-- The command of a name; its case matters. -/
def ofWord? : String → Option Command
  | "copy" => some copy
  | "checksum" => some checksum
  | "completions" => some completions
  | _ => none

/-- The slot of a long option. -/
def longSlot? : Command → String → Option Slot
  | _, "help" => some .help
  | copy, "interactive" => some .interactive
  | copy, "dest" => some .dest
  | copy, "jobs" => some .concurrency
  | copy, "checksum" => some .checksum
  | copy, "expect" => some .expect
  | copy, "no-verify" => some .noVerify
  | copy, "report" => some .report
  | checksum, "kind" => some .kind
  | _, _ => none

/-- The slot of a short option. -/
def shortSlot? : Command → Char → Option Slot
  | _, 'h' => some .help
  | copy, 'i' => some .interactive
  | copy, 'd' => some .dest
  | copy, 'j' => some .concurrency
  | _, _ => none

/-- The slot of the operands. -/
def operand : Command → Slot
  | copy => .sources
  | checksum => .path
  | completions => .shell

/-- The number of operands there is room for, unless there is room for any number. -/
def operandLimit : Command → Option Nat
  | copy => none
  | _ => some 1

end Command

/-- What has been gathered. -/
structure Draft where
  /-- The files to copy. -/
  sources : List Path := []
  /-- The list of files is to be edited first. -/
  interactive : Bool := false
  /-- The directory to copy into. -/
  dest : Option Path := none
  /-- The number of copies at a time. -/
  concurrency : Option Nat := none
  /-- The kind of digest for every file. -/
  checksum : Option DigestKind := none
  /-- The expected digests. -/
  expect : List String := []
  /-- No questions are asked. -/
  noVerify : Bool := false
  /-- Where to write the outcome. -/
  report : Option Path := none
  /-- The file to calculate the digest of. -/
  path : Option Path := none
  /-- The kind of digest to calculate. -/
  kind : Option DigestKind := none
  /-- The shell to make completions for. -/
  shell : Option Shell := none

/-! ### Values -/

/-- Reads a path, which must not be empty. -/
def pathValue (text : String) : Except UsageError Path :=
  if text = "" then .error .missingValue else .ok ⟨text⟩

/-- The number that decimal digits stand for; nothing if there is no digit or another
character. -/
def digitsValue? (cs : List Char) : Option Nat :=
  if cs.isEmpty || !cs.all Char.isDigit then none
  else some (cs.foldl (fun n c => 10 * n + (c.toNat - '0'.toNat)) 0)

/-- Reads a number that a machine word holds, perhaps with a plus sign. -/
def countValue (text : String) : Except UsageError Nat :=
  let digits := match text.toList with
    | '+' :: cs => cs
    | cs => cs
  match digitsValue? digits with
  | some n => if n < UInt64.size then .ok n else .error .malformedValue
  | none => .error .malformedValue

/-- Reads the name of a kind of digest. -/
def kindValue (text : String) : Except UsageError DigestKind :=
  match DigestKind.ofName text with
  | .ok kind => .ok kind
  | .error _ => .error .malformedValue

/-- Reads the name of a shell. -/
def shellValue (text : String) : Except UsageError Shell :=
  match Shell.ofWord? text with
  | some shell => .ok shell
  | none => .error .unknownChoice

/-! ### Gathering -/

namespace Draft

/-- Reads the value of a slot that may be given once: there has to be one, and none
before. -/
def once {α : Type} (old : Option α) (read : String → Except UsageError α)
    (values : List String) : Except UsageError (Option α) :=
  match values with
  | [] => .error .missingValue
  | value :: _ => if old.isSome then .error .repeated else (read value).map some

/-- Sets a flag, which may be given once. -/
def flag (old : Bool) : Except UsageError Bool := if old then .error .repeated else .ok true

/-- Takes over what was given for a slot. -/
def store (d : Draft) (slot : Slot) (values : List String) : Except UsageError Draft :=
  match slot with
  | .help => .error .help
  | .sources => do
    let paths ← values.mapM pathValue
    return { d with sources := d.sources ++ paths }
  | .interactive => do return { d with interactive := ← flag d.interactive }
  | .dest => do return { d with dest := ← once d.dest pathValue values }
  | .concurrency => do return { d with concurrency := ← once d.concurrency countValue values }
  | .checksum => do return { d with checksum := ← once d.checksum kindValue values }
  | .expect =>
    if values.isEmpty then .error .missingValue
    else .ok { d with expect := d.expect ++ values }
  | .noVerify => do return { d with noVerify := ← flag d.noVerify }
  | .report => do return { d with report := ← once d.report pathValue values }
  | .path => do return { d with path := ← once d.path (fun text => .ok ⟨text⟩) values }
  | .kind => do return { d with kind := ← once d.kind kindValue values }
  | .shell => do return { d with shell := ← once d.shell shellValue values }

/-- The copy request. It needs a directory, and sources unless they are to be
edited. -/
def copyRequest (d : Draft) : Except UsageError CopyRequest :=
  match d.dest with
  | none => .error .missingArgument
  | some dest =>
    if d.sources.isEmpty && !d.interactive then .error .missingArgument
    else .ok {
      sources := d.sources, interactive := d.interactive, dest := dest
      concurrency := d.concurrency, kind := d.checksum, expect := d.expect
      noVerify := d.noVerify, report := d.report }

/-- The request of a command. Without a kind, the digest is of the longer one. -/
def request (d : Draft) : Command → Except UsageError Request
  | .copy => d.copyRequest.map .copy
  | .checksum =>
    match d.path with
    | some path => .ok (.checksum path (d.kind.getD .sha256))
    | none => .error .missingArgument
  | .completions =>
    match d.shell with
    | some shell => .ok (.completions shell)
    | none => .error .missingArgument

end Draft

end TransferBoard
