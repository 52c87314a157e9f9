import TransferBoard.Copy.Task

/-!
# The order of the steps of a copy

Which stage comes after another depends on the disk, the dashboard and the failures that
strike.  Here is said once which ones can come, so that what a copy keeps from stage to stage
is read off the stages alone.

## Main definitions

* `CopyPlan.Next` — the stages that can come after a stage.

## Main results

* `next_step` — a step leads to one of them.
-/

namespace TransferBoard
namespace CopyPlan

/-- The stages that can come after a stage. -/
inductive Next (plan : CopyPlan) (turn : Turn) (w : Workshop) : CopyStage → CopyStage → Prop where
  /-- A copy that has to wait stays where it is. -/
  | waits {stage : CopyStage} (blocked : stage.isBlocked w = true) : Next plan turn w stage stage
  -- before there is an entry
  | opened {source : Place} : Next plan turn w .opening (.measuring source)
  | unopened {e : CopyError} : Next plan turn w .opening (.ended (.error e))
  | measured {source : Place} {total : Nat} :
    Next plan turn w (.measuring source) (.creating source total)
  | unmeasured {source : Place} {e : CopyError} :
    Next plan turn w (.measuring source) (.ended (.error e))
  | created {source temp : Place} {total : Nat} :
    Next plan turn w (.creating source total) (.announcing source temp total)
  | uncreated {source : Place} {total : Nat} {e : CopyError} :
    Next plan turn w (.creating source total) (.ended (.error e))
  | announced {source temp : Place} {total : Nat} :
    Next plan turn w (.announcing source temp total)
      (.showing source temp (w.board.track (plan.request total) turn.now).1)
  | shown {source temp : Place} {h : Handle} :
    Next plan turn w (.showing source temp h) (.checking ⟨source, temp, h, 0, turn.now⟩)
  -- the pieces
  | goes {run : CopyRun} (flow : w.board.flow? = some .go) :
    Next plan turn w (.checking run) (.reading run)
  | cancelled {run : CopyRun} (flow : w.board.flow? = some .cancelled) :
    Next plan turn w (.checking run) (.discarding run none)
  | read {run : CopyRun} {piece : Bytes} : Next plan turn w (.reading run) (.writing run piece)
  | emptied {run : CopyRun} : Next plan turn w (.reading run) (.syncing run)
  | unread {run : CopyRun} {e : CopyError} :
    Next plan turn w (.reading run) (.discarding run (some e))
  | written {run : CopyRun} {piece : Bytes} :
    Next plan turn w (.writing run piece) (.reporting run piece.size)
  | unwritten {run : CopyRun} {piece : Bytes} {e : CopyError} :
    Next plan turn w (.writing run piece) (.discarding run (some e))
  | reported {run : CopyRun} {count : Nat} :
    Next plan turn w (.reporting run count) (.drawing { run with copied := run.copied + count })
  | drawn {run : CopyRun} : Next plan turn w (.drawing run) (.checking run)
  -- a copy that gets its name
  | synced {run : CopyRun} : Next plan turn w (.syncing run) (.renaming run)
  | unsynced {run : CopyRun} {e : CopyError} :
    Next plan turn w (.syncing run) (.discarding run (some e))
  | renamed {run : CopyRun} : Next plan turn w (.renaming run) (.finishing run)
  | unrenamed {run : CopyRun} {e : CopyError} :
    Next plan turn w (.renaming run) (.discarding run (some e))
  | finished {run : CopyRun} : Next plan turn w (.finishing run) (.showingFinish run)
  | asked {run : CopyRun} : Next plan turn w (.showingFinish run) (.choosingDigest run)
  | unasked {run : CopyRun} : Next plan turn w (.showingFinish run) .registering
  | chosen {run : CopyRun} {kind : DigestKind} {path : Path} :
    Next plan turn w (.choosingDigest run) (.hashing run kind path)
  | unchosen {run : CopyRun} : Next plan turn w (.choosingDigest run) .registering
  | hashed {run : CopyRun} {kind : DigestKind} {path : Path}
    {result : Except DigestError String} :
    Next plan turn w (.hashing run kind path) (.settling run result)
  | settled {run : CopyRun} {result : Except DigestError String} :
    Next plan turn w (.settling run result) .showingDigest
  | unsettled {run : CopyRun} {result : Except DigestError String} :
    Next plan turn w (.settling run result) .registering
  | shownDigest : Next plan turn w .showingDigest .registering
  | registered : Next plan turn w .registering (.ended (.ok (.completed plan.target)))
  -- a copy that is given up
  | discarded {run : CopyRun} {failure : Option CopyError} :
    Next plan turn w (.discarding run failure) (.stopping run failure)
  | stopped {run : CopyRun} {failure : Option CopyError} :
    Next plan turn w (.stopping run failure) (.showingStop failure)
  | unstopped {run : CopyRun} {failure : Option CopyError} :
    Next plan turn w (.stopping run failure) (.ended (givenUp failure))
  | shownStop {failure : Option CopyError} :
    Next plan turn w (.showingStop failure) (.ended (givenUp failure))
  | ended {result : CopyResult} : Next plan turn w (.ended result) (.ended result)

/-- **A step leads to one of the stages that can come next.** -/
theorem next_step (plan : CopyPlan) (tools : CopyTools) (turn : Turn) (w : Workshop)
    (stage : CopyStage) : plan.Next turn w stage (plan.step tools turn w stage).1 := by
  cases stage with
  | opening =>
    rw [step]
    split
    · exact .unopened
    · exact .opened
  | measuring source =>
    rw [step]
    split
    · exact .unmeasured
    · exact .measured
  | creating source total =>
    rw [step]
    split
    · exact .uncreated
    · exact .created
  | announcing source temp total => exact .announced
  | showing source temp h => exact .shown
  -- a look at the flags: it waits, is told of the end, or reads on
  | checking run =>
    rw [step]
    split
    · next hwaits => exact .waits (by rw [CopyStage.isBlocked, hwaits]; rfl)
    · next hflow => exact .cancelled hflow
    · next hflow => exact .goes hflow
  | reading run =>
    rw [step]
    split
    · next hwaits => exact .waits hwaits
    split
    · exact .unread
    · next piece _ =>
      cases piece.isEmpty
      · exact .read
      · exact .emptied
  | writing run piece =>
    rw [step]
    split
    · exact .unwritten
    · exact .written
  | reporting run count => exact .reported
  | drawing run => exact .drawn
  | syncing run =>
    rw [step]
    split
    · exact .unsynced
    · exact .synced
  | «renaming» run =>
    rw [step]
    split
    · exact .unrenamed
    · exact .renamed
  | discarding run failure => exact .discarded
  | stopping run failure =>
    rw [step]
    split
    · exact .stopped
    · exact .unstopped
  | showingStop failure => exact .shownStop
  | finishing run => exact .finished
  | showingFinish run =>
    rw [step]
    cases plan.job.kind.isSome
    · exact .unasked
    · exact .asked
  | choosingDigest run =>
    rw [step]
    split
    · exact .chosen
    · exact .unchosen
  | hashing run kind path => exact .hashed
  | settling run result =>
    rw [step]
    split
    · exact .settled
    · exact .unsettled
  | showingDigest => exact .shownDigest
  | registering => exact .registered
  | ended result => exact .ended

end CopyPlan
end TransferBoard
