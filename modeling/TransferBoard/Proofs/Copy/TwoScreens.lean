import TransferBoard.Proofs.Copy.Unseen

/-!
# Two screens

Rendering runs in the calls that change the dashboard, and notes what fits on the screen.  Here
two dashboards of different sizes, with different failures of their screens and different
intervals between their frames, are used in the same way.  Whoever uses them is told the same and
finds the same files, except that a key that scrolls may tell that nothing has moved.

## Main definitions

* `DashboardCall`, `DashboardCall.perform` — the calls, with their answers.
* `DashboardUse`, `CopyPool.use` — whatever may be done with a dashboard and its copies: a call,
  a part of a call during which others hold the lock, a whole copy, a step of a worker.
* `CopyPool.heard` — what is told in all of a schedule, the answers of the scroll keys aside.
* `CopyPool.LooksLike` — what two runs have in common.

## Main results

* `Dashboard.behind_perform`, `CopyPool.behind_use` — a call, and any other use, sees nothing but
  what is behind the screen.
* `display_never_influences_transfers` — **so two dashboards that differ in their screens do the
  same**.
-/

namespace TransferBoard

/-- What is called on a dashboard. -/
inductive DashboardCall where
  /-- A transfer is announced. -/
  | create (r : EntryRequest)
  /-- The file of a transfer is told. -/
  | setPath (h : Handle) (path : Path)
  /-- More bytes are told. -/
  | advance (h : Handle) (delta : UInt64) (hint : Float)
  /-- A producer asks for a frame. -/
  | draw
  /-- A transfer is shown as complete. -/
  | finish (h : Handle)
  /-- A transfer is shown as complete and gets its digest; others hold the lock meanwhile. -/
  | finishWithDigest (h : Handle) (meanwhile : List BoardSection)
  /-- A transfer is shown as given up. -/
  | stop (h : Handle) (reason : String)
  /-- A file is noted as completed. -/
  | register (name : String) (path : Path) (expected : Option String)
  /-- A key is pressed. -/
  | pressKey (key : Key)
  /-- A producer asks whether to go on. -/
  | askFlow
  /-- The session ends. -/
  | teardown

/-- What is told of a call. -/
inductive CallReply where
  /-- Nothing. -/
  | done
  /-- The handle of a new transfer. -/
  | handle (h : Handle)
  /-- Whether the file was not noted before. -/
  | noted (added : Bool)
  /-- Whether the key has changed anything. -/
  | pressed (changed : Bool)
  /-- Whether to go on; nothing while that has to wait. -/
  | flow (answer : Option Flow)
  /-- How a copy has ended; nothing while it has to wait. -/
  | copied (result : Option CopyResult)
  deriving DecidableEq

/-- The key moves over the list of entries. -/
def Key.isScroll (key : Key) : Bool := (controlAction? key).elim false ControlAction.isScroll

namespace DashboardCall

/-- The call is a key that scrolls. -/
def isScroll : DashboardCall → Bool
  | pressKey key => key.isScroll
  | _ => false

/-- A call with its times or without. -/
def behind (timed : Bool) : DashboardCall → DashboardCall
  | advance h delta hint => advance h delta (seen timed hint 0)
  | finishWithDigest h meanwhile => finishWithDigest h (meanwhile.map (BoardSection.behind timed))
  | call => call

/-- What a call tells, and what it does. -/
def perform (digester : Digester) (now : Moment) (d : Dashboard) :
    DashboardCall → CallReply × Dashboard
  | create r => (.handle (d.create r now).1, (d.create r now).2)
  | setPath h path => (.done, d.setPath h path)
  | advance h delta hint => (.done, d.advance h delta hint)
  | draw => (.done, d.draw now)
  | finish h => (.done, d.finish h now)
  | finishWithDigest h meanwhile =>
    (.done, d.finishWithDigest digester (fun d => d.run meanwhile) h now)
  | stop h reason => (.done, d.stop h reason now)
  | register name path expected =>
    (.noted (d.register name path expected).1, (d.register name path expected).2)
  | pressKey key => (.pressed (d.pressKey key now).1, (d.pressKey key now).2)
  | askFlow => (.flow d.flow?, d)
  | teardown => (.done, d.teardown)

end DashboardCall

namespace BoardSection

/-- The section is a key that scrolls. -/
def isScroll : BoardSection → Bool
  | applyKey key => key.isScroll
  | _ => false

/-- What is told of a section. -/
def reply (d : Dashboard) : BoardSection → CallReply
  | track r now => .handle (d.track r now).1
  | register name path expected => .noted (d.register name path expected).1
  | applyKey key => .pressed (d.applyKey key).1
  | _ => .done

end BoardSection

-- whether the times count
variable {t : Bool}

/-! ### A call -/

namespace Dashboard

theorem behind_run_congr {d d' : Dashboard} (h : d.behind t = d'.behind t)
    (sections : List BoardSection) :
    (d.run sections).behind t =
      (d'.run (sections.map (BoardSection.behind t))).behind t := by
  induction sections generalizing d d' with
  | nil => exact h
  | cons sec rest ih =>
    refine ih ?_
    rw [d.behind_after, d'.behind_after, h]
    cases t <;> cases sec <;> rfl

/-- What is told of a section is decided behind the screen, unless it is a key that scrolls. -/
theorem reply_behind (d : Dashboard) {sec : BoardSection} (h : sec.isScroll = false) :
    (sec.behind t).reply (d.behind t) = sec.reply d := by
  cases sec with
  | track r now => exact congrArg CallReply.handle (d.behind_track r now).1
  | applyKey key => exact congrArg CallReply.pressed ((d.state.behind_applyKey key).2 h)
  | _ => rfl

variable (d : Dashboard)

theorem behind_finish (h : Handle) (now : Moment) :
    (d.finish h now).behind t = ((d.behind t).finish h (seen t now 0)).behind t := by
  rw [finish, finish, behind_redraw, behind_redraw]
  exact d.behind_after (.markFinished h)

theorem behind_showDigest {d d' : Dashboard} (hd : d.behind t = d'.behind t) (h : Handle)
    (result : Except DigestError String) (now now' : Moment) :
    (d.showDigest h result now).behind t = (d'.showDigest h result now').behind t := by
  have hfound : (d.entry? h).isSome = (d'.entry? h).isSome := by
    rw [← d.isSome_entry?_behind (t := t), hd, isSome_entry?_behind]
  rw [showDigest, showDigest, hfound]
  split
  · rw [behind_redraw, behind_redraw]
    exact behind_after_congr hd (rfl : BoardSection.behind t (.settleDigest h result) = _)
  · exact hd

theorem behind_finishWithDigest (digester : Digester) (meanwhile : List BoardSection) (h : Handle)
    (now : Moment) :
    (d.finishWithDigest digester (fun d => d.run meanwhile) h now).behind t =
      ((d.behind t).finishWithDigest digester
        (fun d => d.run (meanwhile.map (BoardSection.behind t))) h
        (seen t now 0)).behind t := by
  have hfinish := d.behind_finish (t := t) h now
  have hjob : (d.finish h now).digestJob? h =
      ((d.behind t).finish h (seen t now 0)).digestJob? h := by
    rw [← digestJob?_behind (t := t), hfinish, digestJob?_behind]
  rw [finishWithDigest, finishWithDigest, hjob]
  cases ((d.behind t).finish h (seen t now 0)).digestJob? h with
  | none => exact hfinish
  | some job => exact behind_showDigest (behind_run_congr hfinish meanwhile) h _ _ _

theorem behind_stop (h : Handle) (reason : String) (now : Moment) :
    (d.stop h reason now).behind t =
      ((d.behind t).stop h reason (seen t now 0)).behind t := by
  rw [stop, stop, isSome_entry?_behind]
  split
  · rw [behind_redraw, behind_redraw]
    exact d.behind_after (.markStopped h reason)
  · exact d.behind_behind.symm

theorem behind_pressKey (key : Key) (now : Moment) :
    (d.pressKey key now).2.behind t =
      ((d.behind t).pressKey key (seen t now 0)).2.behind t := by
  have hdrawn : ∀ (d : Dashboard) (changed : Bool) (now : Moment),
      (if changed then d.redraw true now else d).behind t = d.behind t := by
    intro d changed now
    split
    · exact d.behind_redraw true now
    · rfl
  rw [pressKey, pressKey, hdrawn, hdrawn]
  exact d.behind_after (.applyKey key)

/-- **A call sees nothing but what is behind the screen**, and so does what is told of it, unless
it is a key that scrolls. -/
theorem behind_perform (digester : Digester) (now : Moment) (call : DashboardCall) :
    (call.perform digester now d).2.behind t =
        ((call.behind t).perform digester (seen t now 0) (d.behind t)).2.behind t ∧
      (call.isScroll = false → (call.perform digester now d).1 =
        ((call.behind t).perform digester (seen t now 0) (d.behind t)).1) := by
  cases call with
  -- the frames at the end of the calls differ, and are not behind the screen
  | create r =>
    obtain ⟨hhandle, htrack⟩ := d.behind_track (t := t) r now
    refine ⟨?_, fun _ => congrArg CallReply.handle hhandle.symm⟩
    show ((d.track r now).2.redraw true now).behind t =
      (((d.behind t).track r (seen t now 0)).2.redraw true _).behind t
    rw [behind_redraw, behind_redraw, htrack]
  | setPath h path => exact ⟨d.behind_after (.setPath h path), fun _ => rfl⟩
  | advance h delta hint => exact ⟨d.behind_after (.advance h delta hint), fun _ => rfl⟩
  | draw => exact ⟨d.behind_after (.redraw false now), fun _ => rfl⟩
  | finish h => exact ⟨d.behind_finish h now, fun _ => rfl⟩
  | finishWithDigest h meanwhile =>
    exact ⟨d.behind_finishWithDigest digester meanwhile h now, fun _ => rfl⟩
  | stop h reason => exact ⟨d.behind_stop h reason now, fun _ => rfl⟩
  | register name path expected =>
    exact ⟨d.behind_after (.register name path expected), fun _ => rfl⟩
  | pressKey key =>
    refine ⟨d.behind_pressKey key now, fun h => ?_⟩
    exact congrArg CallReply.pressed ((d.state.behind_applyKey key).2 h).symm
  | askFlow => exact ⟨d.behind_behind.symm, fun _ => rfl⟩
  | teardown => exact ⟨d.behind_after .teardown, fun _ => rfl⟩

end Dashboard

/-! ### Whatever is done with a dashboard -/

/-- What may be done next with a dashboard and the copies that report to it. -/
inductive DashboardUse where
  /-- A call is made. -/
  | call (c : DashboardCall) (now : Moment)
  /-- The lock is held once, in a call that others come in between. -/
  | hold (sec : BoardSection)
  /-- A file is copied by a copy of its own. -/
  | copy (job : CopyJob) (now : Moment)
  /-- A worker takes a step. -/
  | worker (k : Nat) (turn : Turn)
  /-- Something else is drawn on the screen, or its size changes. -/
  | onScreen (change : Surface → Surface)

namespace DashboardUse

/-- What is done is to press a key that scrolls. -/
def isScroll : DashboardUse → Bool
  | call c _ => c.isScroll
  | hold sec => sec.isScroll
  | _ => false

/-- What is done, with its times or without; what it does to the screen is left out. -/
def behind (t : Bool) : DashboardUse → DashboardUse
  | call c now => call (c.behind t) (seen t now 0)
  | hold sec => hold (sec.behind t)
  | copy job now => copy job (seen t now 0)
  | worker k turn => worker k (turn.behind t)
  | onScreen _ => onScreen id

theorem isScroll_behind (u : DashboardUse) : (u.behind t).isScroll = u.isScroll := by
  cases u with
  | call c now => cases c <;> rfl
  | hold sec => cases sec <;> rfl
  | _ => rfl

end DashboardUse

namespace CopyPool

variable (batch : CopyBatch) (tools : CopyTools)

/-- The dashboard and the copies after what is done next, with what is told. -/
def use (pool : CopyPool) : DashboardUse → CallReply × CopyPool
  | .call c now =>
    let (reply, board) := c.perform (tools.digester pool.shop.disk) now pool.shop.board
    (reply, { pool with shop := { pool.shop with board := board } })
  | .hold sec =>
    (sec.reply pool.shop.board,
      { pool with shop := { pool.shop with board := pool.shop.board.after sec } })
  | .copy job now =>
    let (result, shop) := copyFile job tools now pool.shop
    (.copied result, { pool with shop := shop })
  | .worker k turn => (.done, pool.step batch tools turn k)
  | .onScreen change =>
    (.done, { pool with shop := { pool.shop with
      board := { pool.shop.board with surface := change pool.shop.board.surface } } })

/-- What is told of all that is done, the answers of the scroll keys aside. -/
def heard (pool : CopyPool) : List DashboardUse → List CallReply
  | [] => []
  | u :: uses =>
    (if u.isScroll then .done else (pool.use batch tools u).1) ::
      heard (pool.use batch tools u).2 uses

/-- The dashboard and the copies after all that is done. -/
def used (pool : CopyPool) (uses : List DashboardUse) : CopyPool :=
  uses.foldl (fun pool u => (pool.use batch tools u).2) pool

/-- **Whatever is done sees nothing but what is behind the screen**, and so does what is told of
it, unless it is a key that scrolls. -/
theorem behind_use (pool : CopyPool) (u : DashboardUse) :
    (pool.use batch tools u).2.behind t =
        ((pool.behind t).use batch tools (u.behind t)).2.behind t ∧
      (u.isScroll = false → (pool.use batch tools u).1 =
        ((pool.behind t).use batch tools (u.behind t)).1) := by
  -- a use that leaves the workers alone, and one that leaves the disk alone
  have hshop : ∀ {shop shop' : Workshop}, shop.behind t = shop'.behind t →
      behind t { pool with shop := shop } =
        behind t { pool.behind t with shop := shop' } := by
    intro shop shop' h
    have hworkers := congrArg CopyPool.workers (pool.behind_behind (t := t))
    rw [behind, behind, h]
    exact congrArg (fun workers => CopyPool.mk workers pool.next _) hworkers.symm
  have hboard : ∀ {board board' : Dashboard}, board.behind t = board'.behind t →
      behind t { pool with shop := { pool.shop with board := board } } =
        behind t { pool.behind t with shop := { pool.shop.behind t with board := board' } } :=
    fun h => hshop (congrArg (Workshop.mk · pool.shop.disk) h)
  cases u with
  | call c now =>
    obtain ⟨hcall, hreply⟩ := pool.shop.board.behind_perform (t := t)
      (tools.digester pool.shop.disk) now c
    exact ⟨hboard hcall, hreply⟩
  | hold sec =>
    exact ⟨hboard (pool.shop.board.behind_after sec),
      fun h => (pool.shop.board.reply_behind h).symm⟩
  | copy job now =>
    obtain ⟨hresult, hcopied⟩ := behind_copyFile job tools (seen_seen t now 0).symm
      (pool.shop.behind_behind (t := t)).symm
    exact ⟨hshop hcopied, fun _ => congrArg CallReply.copied hresult⟩
  | worker k turn => exact ⟨pool.behind_step batch tools turn k, fun _ => rfl⟩
  | onScreen change => exact ⟨hboard pool.shop.board.behind_behind.symm, fun _ => rfl⟩

/-- What two runs have in common whose dashboards differ in their screens. -/
structure LooksLike (t : Bool) (pool pool' : CopyPool) : Prop where
  /-- The entries, with their times or without. -/
  entries : pool.shop.board.state.entries.map (Entry.behind t) =
    pool'.shop.board.state.entries.map (Entry.behind t)
  /-- The entry of every handle. -/
  found : ∀ h, (pool.shop.board.entry? h).map (Entry.behind t) =
    (pool'.shop.board.entry? h).map (Entry.behind t)
  /-- The number of transfers that have not ended. -/
  active : pool.shop.board.state.activeCount = pool'.shop.board.state.activeCount
  /-- The completed files. -/
  completed : pool.shop.board.state.completed = pool'.shop.board.state.completed
  /-- Whether transfers are to wait. -/
  paused : pool.shop.board.state.controls.paused = pool'.shop.board.state.controls.paused
  /-- Whether transfers are to end. -/
  cancelled : pool.shop.board.isCancelled = pool'.shop.board.isCancelled
  /-- Whether frames are drawn. -/
  live : pool.shop.board.live = pool'.shop.board.live
  /-- The disk. -/
  disk : pool.shop.disk = pool'.shop.disk
  /-- The results that the workers have noted. -/
  noted : pool.workers.map Worker.results = pool'.workers.map Worker.results
  /-- The results of the whole run, if it has ended. -/
  results : pool.results? = pool'.results?

theorem allGone_behind (pool : CopyPool) : (pool.behind t).allGone = pool.allGone := by
  rw [allGone, allGone, behind, List.all_map]
  congr 1
  funext worker
  obtain ⟨task, results⟩ := worker
  cases task <;> rfl

theorem results?_behind (pool : CopyPool) : (pool.behind t).results? = pool.results? := by
  have hnumbered : (pool.behind t).numbered = pool.numbered := by
    rw [numbered, numbered, behind, List.flatMap_map]
    rfl
  rw [results?, results?, allGone_behind, hnumbered]

/-- What is behind the screen decides all of that. -/
theorem looksLike_behind (pool : CopyPool) : pool.LooksLike t (pool.behind t) where
  entries := by
    show _ = (pool.shop.board.state.behind t).entries.map (Entry.behind t)
    rw [BoardState.entries_behind, List.map_map]
    exact List.map_congr_left fun e _ => e.behind_behind.symm
  found h := by
    show _ = (Dashboard.entry? (pool.shop.board.behind t) h).map (Entry.behind t)
    rw [Dashboard.entry?_behind, Option.map_map]
    exact congrArg (Option.map · _) (funext fun e => e.behind_behind.symm)
  active := (pool.shop.board.state.activeCount_behind).symm
  completed := rfl
  paused := rfl
  cancelled := rfl
  live := rfl
  disk := rfl
  noted := by
    rw [behind, List.map_map]
    rfl
  results := pool.results?_behind.symm

theorem looksLike_of_behind {pool pool' : CopyPool} (h : pool.behind t = pool'.behind t) :
    pool.LooksLike t pool' := by
  have hpool := pool.looksLike_behind (t := t)
  have hpool' := pool'.looksLike_behind (t := t)
  rw [← h] at hpool'
  exact {
    entries := hpool.entries.trans hpool'.entries.symm
    found := fun handle => (hpool.found handle).trans (hpool'.found handle).symm
    active := hpool.active.trans hpool'.active.symm
    completed := hpool.completed.trans hpool'.completed.symm
    paused := hpool.paused.trans hpool'.paused.symm
    cancelled := hpool.cancelled.trans hpool'.cancelled.symm
    live := hpool.live.trans hpool'.live.symm
    disk := hpool.disk.trans hpool'.disk.symm
    noted := hpool.noted.trans hpool'.noted.symm
    results := hpool.results.trans hpool'.results.symm }

theorem behind_use_congr {pool pool' : CopyPool} (hpool : pool.behind t = pool'.behind t)
    {u u' : DashboardUse} (hu : u.behind t = u'.behind t) :
    (pool.use batch tools u).2.behind t = (pool'.use batch tools u').2.behind t ∧
      (u.isScroll = false → (pool.use batch tools u).1 = (pool'.use batch tools u').1) := by
  obtain ⟨hnext, hreply⟩ := pool.behind_use (t := t) batch tools u
  obtain ⟨hnext', hreply'⟩ := pool'.behind_use (t := t) batch tools u'
  rw [← hpool, ← hu] at hnext' hreply'
  refine ⟨hnext.trans hnext'.symm, fun h => (hreply h).trans (hreply' ?_).symm⟩
  rw [← u'.isScroll_behind (t := t), ← hu, u.isScroll_behind, h]

/-- **All that is done, one thing after the other, sees nothing but what is behind the screen.** -/
theorem behind_used {uses uses' : List DashboardUse} {pool pool' : CopyPool}
    (hpool : pool.behind t = pool'.behind t)
    (huses : uses.map (DashboardUse.behind t) = uses'.map (DashboardUse.behind t)) :
    pool.heard batch tools uses = pool'.heard batch tools uses' ∧
      (pool.used batch tools uses).behind t = (pool'.used batch tools uses').behind t := by
  induction uses generalizing uses' pool pool' with
  | nil =>
    obtain rfl : uses' = [] := List.map_eq_nil_iff.mp huses.symm
    exact ⟨rfl, hpool⟩
  | cons u uses ih =>
    cases uses' with
    | nil => exact nomatch huses
    | cons u' uses' =>
      obtain ⟨hu, hrest⟩ := List.cons.inj huses
      obtain ⟨hnext, hreply⟩ := behind_use_congr batch tools hpool hu
      obtain ⟨hheard, hused⟩ := ih hnext hrest
      refine ⟨?_, hused⟩
      -- both uses are scroll keys or neither is, so the same replies are left out
      have hscroll : u.isScroll = u'.isScroll := by
        rw [← u.isScroll_behind (t := t), hu, u'.isScroll_behind]
      rw [heard, heard, hheard, ← hscroll]
      congr 1
      split
      · rfl
      · next hnot => exact hreply (by simpa using hnot)

/-- **Display never influences transfers.**  Two dashboards have the same behind their screens:
the screens, what fits on them, how they fail and how often they are drawn may differ.  The same
is done with both and with the copies that report to them, at the same times or at others.  Then
at every point of the schedule the same has been told of all of it, handles, flows, results of
copies and the rest, but for the answers of the keys that scroll; the disk is the same, and so are
the entries, apart from times if the clocks differ, the completed files and the flags. -/
theorem display_never_influences_transfers (t : Bool) {d d' : Dashboard}
    (hboards : d.behind t = d'.behind t) {uses uses' : List DashboardUse}
    (huses : uses.map (DashboardUse.behind t) = uses'.map (DashboardUse.behind t))
    (batch : CopyBatch) (tools : CopyTools) (workers : List Worker) (next : Nat) (disk : Disk)
    (n : Nat) :
    let pool : CopyPool := ⟨workers, next, ⟨d, disk⟩⟩
    let pool' : CopyPool := ⟨workers, next, ⟨d', disk⟩⟩
    pool.heard batch tools (uses.take n) = pool'.heard batch tools (uses'.take n) ∧
      (pool.used batch tools (uses.take n)).LooksLike t
        (pool'.used batch tools (uses'.take n)) := by
  intro pool pool'
  have hpool : pool.behind t = pool'.behind t :=
    congrArg (fun board => CopyPool.mk _ next ⟨board, disk⟩) hboards
  have hprefix : (uses.take n).map (DashboardUse.behind t) =
      (uses'.take n).map (DashboardUse.behind t) := by
    rw [List.map_take, huses, ← List.map_take]
  obtain ⟨hheard, hused⟩ := behind_used batch tools hpool hprefix
  exact ⟨hheard, looksLike_of_behind hused⟩

/-- A key that scrolls tells two things on two screens, one of which cannot be drawn on; a file is
copied in front of both of them, and whatever else is told is the same. -/
theorem two_screens_tell_the_same :
    let d := Dashboard.fresh { Surface.new 4 2 with flushFault := fun _ => some .noDevice } 0
    let d' := Dashboard.fresh (.new 80 24) 250
    let disk : Disk := ⟨[(["in"], .dir), (["in", "a"], .file #[1]), (["out"], .dir)]⟩
    let job : CopyJob := { source := ⟨"in/a"⟩, destDir := ⟨"out"⟩ }
    let uses : List DashboardUse := [.call (.create { name := "x" }) 0, .copy job 1,
      .call (.pressKey (.char 'j')) 2, .call .askFlow 3]
    let uses' : List DashboardUse := [.call (.create { name := "x" }) 7, .copy job 7,
      .call (.pressKey (.char 'j')) 8, .call .askFlow 9]
    let pool : CopyPool := ⟨[], 0, ⟨d, disk⟩⟩
    let pool' : CopyPool := ⟨[], 0, ⟨d', disk⟩⟩
    (d.behind false = d'.behind false ∧
      uses.map (DashboardUse.behind false) = uses'.map (DashboardUse.behind false)) ∧
    (pool.heard (.of []) { bufferBytes := 1 } uses =
        pool'.heard (.of []) { bufferBytes := 1 } uses' ∧
      (pool.used (.of []) { bufferBytes := 1 } uses).LooksLike false
        (pool'.used (.of []) { bufferBytes := 1 } uses')) ∧
    ((pool.used (.of []) { bufferBytes := 1 } (uses.take 2)).use (.of []) { bufferBytes := 1 }
        (.call (.pressKey (.char 'j')) 2)).1 = .pressed true ∧
      ((pool'.used (.of []) { bufferBytes := 1 } (uses'.take 2)).use (.of []) { bufferBytes := 1 }
        (.call (.pressKey (.char 'j')) 8)).1 = .pressed false := by
  intro d d' disk job uses uses' pool pool'
  have hboards : d.behind false = d'.behind false := rfl
  have huses : uses.map (DashboardUse.behind false) = uses'.map (DashboardUse.behind false) := rfl
  -- only the key that scrolls is answered differently
  refine ⟨⟨hboards, huses⟩, ?_, by decide +kernel, by decide +kernel⟩
  exact display_never_influences_transfers false hboards huses (.of []) { bufferBytes := 1 } [] 0
    disk 4

end CopyPool
end TransferBoard
