import TransferBoard.Batch.SourceList
import TransferBoard.Board.Frame
import TransferBoard.Terminal.LineEditor

/-!
# The batch screen

Before anything is copied, the list of sources can be edited on a screen of its
own: sources are added through a line prompt or dropped from the end, and the batch
is started or left.

## Main definitions

* `BatchOutcome` — the sources to start with, or nothing.
* `MenuAction`, `menuAction` — what a key asks for at the menu.
* `BatchScreen.calls` — the calls that draw the screen.
* `runBatchEntry` — runs the screen until the user starts or leaves.
-/

namespace TransferBoard

/-- How the batch screen was left. -/
inductive BatchOutcome where
  /-- To copy these sources. -/
  | start (sources : List String)
  /-- Without copying anything. -/
  | quit
  deriving DecidableEq, Repr

/-- What a key asks for at the menu. -/
inductive MenuAction where
  /-- A line prompt for one more source. -/
  | add
  /-- To drop the last source. -/
  | drop
  /-- To start. -/
  | start
  /-- To leave. -/
  | quit
  /-- Nothing. -/
  | none
  deriving DecidableEq, Repr

/-- What a key asks for at the menu. -/
def menuAction : Key → MenuAction
  | .char 'a' => .add
  | .char 'd' => .drop
  | .char 's' => .start
  | .char 'q' => .quit
  | .esc => .quit
  | _ => .none

namespace BatchScreen

/-- The row of the first source. -/
def listTop : Nat := 3

/-- The row of the keys that there are. -/
def controlsRow : Nat := listTop + maxSources + 2

/-- The row of the line prompt and of notices. -/
def inputRow : Nat := controlsRow + 2

/-- The keys that there are. -/
def controls : String := "Controls: [a] Add  [d] Delete Last  [s] Start  [q] Quit"

/-- The notice that no more sources fit in. -/
def fullNotice : String := "List is full"

/-- The notice that there is nothing to start with. -/
def emptyNotice : String := "Add at least one path first"

/-- The call that draws the source at an index, or the place for one. -/
def itemCall (items : List String) (i : Nat) : DrawCall :=
  match items[i]? with
  | some item => .put (listTop + i) 4 (toString (i + 1) ++ ". " ++ item) .plain
  | none => .put (listTop + i) 4 "-" .plain

/-- The calls that draw the screen with a notice. -/
def calls (list : SourceList) (notice : Option String) (height : Nat) : List DrawCall :=
  [.clear 0 height,
   .put 1 margin " tdash batch copy " .header,
   .put (listTop - 1) margin "Sources:" .plain]
  ++ (List.range maxSources).map (itemCall list.items)
  ++ [.put controlsRow margin controls .info]
  ++ (match notice with
      | some text => [.put inputRow margin text .warning]
      | none => [])

/-- The line prompt with the text typed so far. -/
def promptCall (text : String) : DrawCall :=
  .put inputRow margin ("Enter path: " ++ text) .info

/-- Shows the text typed so far. -/
def echo (text : String) (s : Surface) : Except OsError Unit × Surface :=
  s.present [.clear inputRow (inputRow + 1), promptCall text]

end BatchScreen

/-- What is left of the keys after a line prompt is no longer than before. -/
theorem length_readLine_le {σ : Type} (echo : String → σ → Except OsError Unit × σ) :
    ∀ (keys : List KeyEvent) (typed : List Char) (s : σ),
      (readLine echo typed keys s).2.1.length ≤ keys.length
  | [], _, _ => by simp [readLine]
  | .failure _ :: rest, _, _ => by simp [readLine]
  | .crash :: rest, _, _ => by simp [readLine]
  | .press key :: rest, typed, s => by
    unfold readLine
    split
    · simp
    · simp
    · exact Nat.le_succ_of_le (length_readLine_le echo rest typed s)
    · split
      · simp
      · exact Nat.le_succ_of_le (length_readLine_le echo rest _ _)

/-- Runs the batch screen. A failure of the surface or of the keys ends it; closed
input leaves it. Gives back the keys that are left. -/
def runBatchEntry (list : SourceList) (notice : Option String) (keys : List KeyEvent)
    (s : Surface) : Except OsError BatchOutcome × List KeyEvent × Surface :=
  match s.present (BatchScreen.calls list notice s.height) with
  | (.error e, s) => (.error e, keys, s)
  | (.ok (), s) =>
    match keys with
    | [] => (.ok .quit, [], s)
    | .failure e :: rest => (.error e, rest, s)
    | .crash :: rest => (.error brokenSource, rest, s)
    | .press key :: rest =>
      match menuAction key with
      | .quit => (.ok .quit, rest, s)
      | .none => runBatchEntry list none rest s
      | .drop => runBatchEntry list.pop.2 none rest s
      | .start =>
        if list.items = [] then runBatchEntry list (some BatchScreen.emptyNotice) rest s
        else (.ok (.start list.items), rest, s)
      | .add =>
        if list.isFull then runBatchEntry list (some BatchScreen.fullNotice) rest s
        else
          match s.present [BatchScreen.promptCall ""] with
          | (.error e, s) => (.error e, rest, s)
          | (.ok (), s) =>
            let r := readLine BatchScreen.echo [] rest s
            match r.1 with
            | .error e => (.error e, r.2.1, r.2.2)
            | .ok none => runBatchEntry list none r.2.1 r.2.2
            | .ok (some line) => runBatchEntry (list.push line).2 none r.2.1 r.2.2
termination_by keys.length
decreasing_by
  all_goals first
    | exact Nat.lt_succ_self _
    | exact Nat.lt_succ_of_le (length_readLine_le _ _ _ _)

end TransferBoard
