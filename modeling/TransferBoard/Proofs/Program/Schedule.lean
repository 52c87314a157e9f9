import TransferBoard.Program.CopyRun
import TransferBoard.Proofs.Copy.CalledOff
import TransferBoard.Proofs.Disk.Directories

/-!
# Copies on a schedule

The workers, the control channel and the streams take their steps in whatever order they come,
while the user types.  The copies of a run are over when every worker has gone.  The way in which
the program is run here, one worker after the other, is one such order.

When the copies are over, the program looks once whether the end was asked for.  The control
channel goes on all the while, until the session stops it before the wait.  So a key that asks for
the end may come too late for the look.

## Main definitions

* `LaunchMove`, `CopyLaunch.making` — what happens next while copies are made, and the copies after
  all that happens.
* `CopyLaunch.copiesDuring` — the copies when they are over.
* `CopyLaunch.UserCancels`, `CopyLaunch.CancelsLate` — the control channel takes a key that asks for
  the end, before the program looks or after it.
* `CopyRequest.runDuring` — a whole run on a schedule.

## Main results

* `copies_eq_copiesDuring`, `run_eq_runDuring` — the program is one schedule.
* `isCancelled_goOn_iff` — **the flag is set exactly when the user has cancelled.**
* `typed_of_userCancels` — the key that sets it has been typed.
* `results_copiesDuring` — every job has a result, and one that says cancelled only if the user has
  cancelled.
-/

namespace TransferBoard

/-- A key sets the flag when it asks for the end, and never takes it back. -/
theorem Dashboard.isCancelled_pressKey_iff (d : Dashboard) (key : Key) (now : Moment) :
    (d.pressKey key now).2.isCancelled = true ↔
      d.isCancelled = true ∨ controlAction? key = some .cancel := by
  have hdrawn : (d.pressKey key now).2.isCancelled = (d.applyKey key).2.isCancelled := by
    show (if (d.applyKey key).1 then (d.applyKey key).2.redraw true now
      else (d.applyKey key).2 : Dashboard).isCancelled = _
    split
    · exact ((d.applyKey key).2.sameFlags_redraw true now).isCancelled
    · rfl
  rw [hdrawn]
  unfold isCancelled applyKey BoardState.applyKey Controls.apply
  cases controlAction? key with
  | none => simp
  | some action =>
    cases action with
    | togglePause => simp [Controls.act, Controls.togglePause]
    | cancel => simp [Controls.act, Controls.cancel]
    | scrollDown => simp only [Controls.act, Controls.scrollDown]; split <;> simp
    | scrollUp => simp only [Controls.act, Controls.scrollUp]; split <;> simp

/-- What happens next while copies are made. -/
inductive LaunchMove where
  /-- A worker takes a step. -/
  | worker (k : Nat) (turn : Turn)
  /-- The control channel looks for a key. -/
  | control (now : Moment)
  /-- A key is typed. -/
  | typed (event : KeyEvent)
  /-- Bytes arrive on the streams. -/
  | arrives (data : Bytes)

/-- The keys that are typed in what happens next. -/
def LaunchMove.keys : LaunchMove → List KeyEvent
  | typed event => [event]
  | _ => []

/-- Copies while they are made. -/
structure CopiesUnderWay where
  /-- The session, with the dashboard and the keys to come. -/
  session : Session
  /-- The workers. -/
  workers : List Worker
  /-- The number of the next job. -/
  next : Nat := 0
  /-- The disk. -/
  disk : Disk

namespace CopiesUnderWay

/-- The workers with what they share. -/
def pool (c : CopiesUnderWay) : CopyPool := ⟨c.workers, c.next, ⟨c.session.board, c.disk⟩⟩

/-- The copies when the workers have gone on. -/
def withPool (c : CopiesUnderWay) (pool : CopyPool) : CopiesUnderWay where
  session := { c.session with board := pool.shop.board }
  workers := pool.workers
  next := pool.next
  disk := pool.shop.disk

end CopiesUnderWay

namespace CopyLaunch

/-- The jobs with the destinations that are taken. -/
def batch (launch : CopyLaunch) : CopyBatch := .of launch.jobs

/-- What the copies are made with. -/
def tools (launch : CopyLaunch) : CopyTools := { bufferBytes := launch.bufferBytes }

/-- The copies before anything has happened. -/
def begun (launch : CopyLaunch) : CopiesUnderWay where
  session := launch.session
  workers := (CopyPool.start launch.jobs launch.concurrency
    ⟨launch.session.board, launch.disk⟩).workers
  disk := launch.disk

/-- The copies after what happens next. -/
def after (launch : CopyLaunch) (c : CopiesUnderWay) : LaunchMove → CopiesUnderWay
  | .worker k turn => c.withPool (c.pool.step launch.batch launch.tools turn k)
  | .control now => { c with session := c.session.controlTick now }
  | .typed event => { c with session := { c.session with keys := c.session.keys ++ [event] } }
  | .arrives data => { c with disk := c.disk.deliver data }

/-- The copies after all that happens, from some point on. -/
def goOn (launch : CopyLaunch) (c : CopiesUnderWay) (moves : List LaunchMove) : CopiesUnderWay :=
  moves.foldl launch.after c

/-- The copies after all that happens. -/
def making (launch : CopyLaunch) (moves : List LaunchMove) : CopiesUnderWay :=
  launch.goOn launch.begun moves

/-- The copies that are made on a schedule, when they are over; nothing before.  The program looks
at the flag then.  What happens in the meantime, until the control channel has stopped, comes too
late for the look. -/
def copiesDuring (launch : CopyLaunch) (moves meantime : List LaunchMove) : Option CopiesMade :=
  let c := launch.making moves
  let stopped := launch.goOn c meantime
  c.pool.results?.map fun results =>
    { results := results
      cancelled := c.session.board.isCancelled
      session := stopped.session
      disk := stopped.disk }

/-! ### The schedule of the program -/

variable (launch : CopyLaunch)

theorem goOn_append (c : CopiesUnderWay) (moves moves' : List LaunchMove) :
    launch.goOn c (moves ++ moves') = launch.goOn (launch.goOn c moves) moves' :=
  List.foldl_append

/-- The workers go on. -/
theorem goOn_workers (c : CopiesUnderWay) (turns : List (Nat × Turn)) :
    launch.goOn c (turns.map fun s => .worker s.1 s.2) =
      c.withPool (c.pool.stepAll launch.batch launch.tools turns) := by
  induction turns generalizing c with
  | nil => rfl
  | cons s turns ih => exact ih (c.withPool (c.pool.step launch.batch launch.tools s.2 s.1))

/-- The control channel looks for keys. -/
theorem goOn_control (c : CopiesUnderWay) (now : Moment) (n : Nat) :
    launch.goOn c (List.replicate n (.control now)) =
      { c with session := c.session.controlTicks now n } := by
  induction n generalizing c with
  | zero => rfl
  | succ n ih => exact ih { c with session := c.session.controlTick now }

/-- Keys are typed. -/
theorem goOn_typed (c : CopiesUnderWay) (keys : List KeyEvent) :
    launch.goOn c (keys.map .typed) =
      { c with session := { c.session with keys := c.session.keys ++ keys } } := by
  induction keys generalizing c with
  | nil => rw [List.append_nil]; rfl
  | cons key keys ih =>
    have hnext := ih { c with session := { c.session with keys := c.session.keys ++ [key] } }
    simp only [List.append_assoc, List.singleton_append] at hnext
    exact hnext

theorem exists_settle (c : CopiesUnderWay) (now : Moment) :
    ∃ moves, launch.goOn c moves = c.withPool (c.pool.settle launch.batch launch.tools now) ∧
      moves.flatMap LaunchMove.keys = [] := by
  obtain ⟨turns, hturns⟩ := CopyPool.settle_eq_stepAll launch.batch launch.tools now c.pool
  refine ⟨turns.map fun s => .worker s.1 s.2, ?_, ?_⟩
  · rw [goOn_workers, hturns]
  · rw [List.flatMap_map, List.flatMap_eq_nil_iff]
    exact fun _ _ => rfl

/-- **The program makes its copies on one such schedule**, in which the control channel takes no
key once they are over. -/
theorem copies_eq_copiesDuring (s : Surroundings) : ∃ moves,
    launch.copies s = launch.copiesDuring moves (s.keys.after.map .typed) ∧
      moves.flatMap LaunchMove.keys = [] := by
  obtain ⟨early, hearly, hsilent⟩ := launch.exists_settle launch.begun s.now
  -- the pool is run, the channel takes its keys, what arrives is there, and the pool is run again
  let first := launch.begun.pool.settle launch.batch launch.tools s.now
  let session := Session.controlTicks { launch.session with board := first.shop.board } s.now
    launch.session.keys.length
  let waiting : CopiesUnderWay :=
    ⟨session, first.workers, first.next, first.shop.disk.deliver s.arriving⟩
  obtain ⟨late, hlate, hsilent'⟩ := launch.exists_settle waiting s.now
  refine ⟨early ++ (List.replicate launch.session.keys.length (.control s.now) ++
    ([.arrives s.arriving] ++ late)), ?_, ?_⟩
  · have hmaking : launch.making (early ++ (List.replicate launch.session.keys.length
        (.control s.now) ++ ([.arrives s.arriving] ++ late))) = launch.goOn waiting late := by
      rw [making, goOn_append, hearly, goOn_append, goOn_control, goOn_append]
      rfl
    rw [copiesDuring, hmaking, hlate, goOn_typed]
    rfl
  · have hcontrol : (List.replicate launch.session.keys.length
        (LaunchMove.control s.now)).flatMap LaunchMove.keys = [] := by
      rw [List.flatMap_eq_nil_iff]
      intro move hmove
      rw [List.eq_of_mem_replicate hmove]
      rfl
    simp only [List.flatMap_append, hsilent, hcontrol, hsilent']
    rfl

/-! ### The end that is asked for -/

/-- What happens next is that the control channel takes a key that asks for the end. -/
def TakesCancel (c : CopiesUnderWay) (move : LaunchMove) : Prop :=
  ∃ now key keys, move = .control now ∧ c.session.control = .running ∧
    c.session.keys = .press key :: keys ∧ controlAction? key = some .cancel

/-- From some point on, the control channel takes a key that asks for the end. -/
def CancelsFrom (c : CopiesUnderWay) (moves : List LaunchMove) : Prop :=
  ∃ past move rest, moves = past ++ move :: rest ∧ TakesCancel (launch.goOn c past) move

/-- The control channel takes a key that asks for the end. -/
def UserCancels (moves : List LaunchMove) : Prop := launch.CancelsFrom launch.begun moves

/-- The control channel takes such a key after the look at the flag. -/
def CancelsLate (moves meantime : List LaunchMove) : Prop :=
  launch.CancelsFrom (launch.making moves) meantime

theorem cancelsFrom_cons {c : CopiesUnderWay} {move : LaunchMove} {moves : List LaunchMove} :
    launch.CancelsFrom c (move :: moves) ↔
      TakesCancel c move ∨ launch.CancelsFrom (launch.after c move) moves := by
  constructor
  · rintro ⟨past, move', rest, heq, htakes⟩
    cases past with
    | nil =>
      obtain ⟨rfl, -⟩ := List.cons.inj heq
      exact .inl htakes
    | cons first past =>
      obtain ⟨rfl, hrest⟩ := List.cons.inj heq
      exact .inr ⟨past, move', rest, hrest, htakes⟩
  · rintro (htakes | ⟨past, move', rest, rfl, htakes⟩)
    · exact ⟨[], move, moves, rfl, htakes⟩
    · exact ⟨move :: past, move', rest, rfl, htakes⟩

/-- **The flag is set when it was set, or when a key that asks for the end is taken.** -/
theorem isCancelled_after_iff (c : CopiesUnderWay) (move : LaunchMove) :
    (launch.after c move).session.board.isCancelled = true ↔
      c.session.board.isCancelled = true ∨ TakesCancel c move := by
  have hquiet : (∀ now, move ≠ .control now) → ¬ TakesCancel c move :=
    fun hnot ⟨now, _, _, hmove, _⟩ => hnot now hmove
  cases move with
  | worker k turn =>
    show (c.pool.step launch.batch launch.tools turn k).shop.board.isCancelled = true ↔ _
    rw [(CopyPool.sameFlags_step launch.batch launch.tools turn c.pool k).isCancelled]
    exact (or_iff_left (hquiet nofun)).symm
  | typed event => exact (or_iff_left (hquiet nofun)).symm
  | arrives data => exact (or_iff_left (hquiet nofun)).symm
  | control now =>
    show (c.session.controlTick now).board.isCancelled = true ↔ _
    by_cases htakes : ∃ key rest, c.session.control = .running ∧ c.session.keys = .press key :: rest
    · obtain ⟨key, rest, hrunning, hkeys⟩ := htakes
      have htick : (c.session.controlTick now).board = (c.session.board.pressKey key now).2 := by
        rw [Session.controlTick, hrunning, hkeys]
      rw [htick, Dashboard.isCancelled_pressKey_iff]
      refine or_congr_right ⟨fun hcancel => ⟨now, key, rest, rfl, hrunning, hkeys, hcancel⟩, ?_⟩
      rintro ⟨now', key', rest', -, -, hkeys', hcancel⟩
      rw [hkeys] at hkeys'
      cases hkeys'
      exact hcancel
    · -- no key is taken
      have htick : (c.session.controlTick now).board = c.session.board := by
        unfold Session.controlTick
        split
        · next key rest hrunning hkeys => exact absurd ⟨key, rest, hrunning, hkeys⟩ htakes
        · rfl
        · rfl
        · rfl
      rw [htick, or_iff_left]
      rintro ⟨_, key, rest, -, hrunning, hkeys, -⟩
      exact htakes ⟨key, rest, hrunning, hkeys⟩

/-- **The flag is set exactly when the user has cancelled.** -/
theorem isCancelled_goOn_iff (c : CopiesUnderWay) (moves : List LaunchMove) :
    (launch.goOn c moves).session.board.isCancelled = true ↔
      c.session.board.isCancelled = true ∨ launch.CancelsFrom c moves := by
  induction moves generalizing c with
  | nil =>
    refine ⟨.inl, ?_⟩
    rintro (hcancelled | ⟨past, move, rest, heq, -⟩)
    · exact hcancelled
    · exact absurd heq (by simp)
  | cons move moves ih =>
    show (launch.goOn (launch.after c move) moves).session.board.isCancelled = true ↔ _
    rw [ih, launch.isCancelled_after_iff, launch.cancelsFrom_cons, or_assoc]

/-- The keys to come are among those that were there and those that are typed. -/
theorem mem_keys_goOn {c : CopiesUnderWay} {moves : List LaunchMove} {event : KeyEvent}
    (h : event ∈ (launch.goOn c moves).session.keys) :
    event ∈ c.session.keys ++ moves.flatMap LaunchMove.keys := by
  induction moves generalizing c with
  | nil => exact List.mem_append_left _ h
  | cons move moves ih =>
    rw [List.flatMap_cons, ← List.append_assoc]
    refine List.mem_append.mpr ((List.mem_append.mp (ih h)).imp_left fun hnext => ?_)
    cases move with
    | worker k turn => exact List.mem_append_left _ hnext
    | typed event => exact hnext
    | arrives data => exact List.mem_append_left _ hnext
    | control now =>
      refine List.mem_append_left _ ?_
      change event ∈ (c.session.controlTick now).keys at hnext
      unfold Session.controlTick at hnext
      split at hnext
      · next key rest _ hkeys => rw [hkeys]; exact List.mem_cons_of_mem _ hnext
      · next e rest _ hkeys => rw [hkeys]; exact List.mem_cons_of_mem _ hnext
      · next rest _ hkeys => rw [hkeys]; exact List.mem_cons_of_mem _ hnext
      · exact hnext

/-- The key that the control channel takes has been typed. -/
theorem typed_of_userCancels {moves : List LaunchMove} (h : launch.UserCancels moves) :
    ∃ key, controlAction? key = some .cancel ∧
      .press key ∈ launch.session.keys ++ moves.flatMap LaunchMove.keys := by
  obtain ⟨past, move, rest, rfl, now, key, keys, -, -, hkeys, hcancel⟩ := h
  have hpast : KeyEvent.press key ∈ launch.session.keys ++ past.flatMap LaunchMove.keys := by
    refine launch.mem_keys_goOn (c := launch.begun) ?_
    rw [hkeys]
    exact List.mem_cons_self
  refine ⟨key, hcancel, ?_⟩
  rw [List.flatMap_append, ← List.append_assoc]
  exact List.mem_append_left _ hpast

/-! ### The results -/

/-- What the workers keep, and the end that is asked for, the schedule keeps. -/
theorem goOn_induction {P : CopyPool → Prop}
    (hstep : ∀ pool turn k, P pool → P (pool.step launch.batch launch.tools turn k))
    (hshop : ∀ pool shop, (pool.shop.board.isCancelled = true → shop.board.isCancelled = true) →
      P pool → P { pool with shop := shop })
    (c : CopiesUnderWay) (moves : List LaunchMove) (h : P c.pool) :
    P (launch.goOn c moves).pool := by
  induction moves generalizing c with
  | nil => exact h
  | cons move moves ih =>
    refine ih (launch.after c move) ?_
    cases move with
    | worker k turn => exact hstep c.pool turn k h
    | control now =>
      exact hshop c.pool ⟨(c.session.controlTick now).board, c.disk⟩
        (fun hcancelled => (launch.isCancelled_after_iff c (.control now)).mpr (.inl hcancelled)) h
    | typed event => exact hshop c.pool c.pool.shop id h
    | arrives data => exact hshop c.pool ⟨c.session.board, c.disk.deliver data⟩ id h

/-- **Every job has a result**, and one that says cancelled only if the program sees that the end
was asked for.  The user alone can do that, and may do it too late to be seen. -/
theorem results_copiesDuring (hstart : launch.session.board.isCancelled = false)
    {moves meantime : List LaunchMove} {made : CopiesMade}
    (h : launch.copiesDuring moves meantime = some made) :
    made.results.length = launch.jobs.length ∧
      (.ok .cancelled ∈ made.results → made.cancelled = true) ∧
      (made.cancelled = true ↔ launch.UserCancels moves) ∧
      (made.session.board.isCancelled = true ↔
        launch.UserCancels moves ∨ launch.CancelsLate moves meantime) := by
  obtain ⟨results, hr, rfl⟩ := Option.map_eq_some_iff.mp h
  -- two invariants of the pool, kept by its workers and by the moves of the others
  have hcounted : (launch.making moves).pool.Counted launch.batch :=
    launch.goOn_induction (P := fun pool => pool.Counted launch.batch)
      (fun _ turn k hpool => CopyPool.counted_step hpool launch.tools turn k)
      (fun _ _ _ hpool => ⟨hpool.claimed, hpool.left, hpool.staffed⟩) launch.begun moves
      (CopyPool.counted_start launch.jobs launch.concurrency _)
  have hheeds : (launch.making moves).pool.Heeds :=
    launch.goOn_induction (P := CopyPool.Heeds)
      (fun _ turn k hpool => CopyPool.heeds_step hpool launch.batch launch.tools turn k)
      (fun _ _ hshop hpool worker hworker hoff => hshop (hpool worker hworker hoff)) launch.begun
      moves (CopyPool.heeds_start launch.jobs launch.concurrency _)
  -- nothing was asked for before the copies, so what is seen is the doing of the user
  have hseen : (launch.making moves).session.board.isCancelled = true ↔
      launch.UserCancels moves := by
    refine (launch.isCancelled_goOn_iff launch.begun moves).trans (or_iff_right ?_)
    show ¬ launch.session.board.isCancelled = true
    rw [hstart]
    exact Bool.false_ne_true
  refine ⟨hcounted.length_results hr, hheeds.isCancelled_of_mem_results hr, hseen, ?_⟩
  exact (launch.isCancelled_goOn_iff (launch.making moves) meantime).trans
    (or_congr_left hseen)

end CopyLaunch

/-! ### A whole run -/

/-- A run that copies files, with its copies on a schedule.  The program looks whether the end was
asked for at the end of `moves`.  The control channel goes on in the `meantime`, until the session
has stopped it, and the wait begins `later`. -/
def CopyRequest.runDuring (r : CopyRequest) (s : Surroundings) (config : Config) (home : Disk)
    (moves meantime : List LaunchMove) (later : Moment) : Option RunOutcome :=
  match r.edit s with
  | .error e => some ((s.untouched home).failed e)
  | .ok none => some ((s.untouched home).print [nothingCopied])
  | .ok (some edited) =>
    match edited.launch s config with
    | .error (e, disk) => some ({ s.untouched home with disk := disk }.failed e)
    | .ok launch =>
      (launch.copiesDuring moves meantime).map fun made => launch.conclude made home later

/-- **The program is one schedule**, in which the keys after the last copy are typed before the
wait. -/
theorem CopyRequest.run_eq_runDuring (r : CopyRequest) (s : Surroundings) (config : Config)
    (home : Disk) : ∃ moves, moves.flatMap LaunchMove.keys = [] ∧
      r.run s config home =
        r.runDuring s config home moves (s.keys.after.map .typed) s.now := by
  unfold run runDuring
  cases r.edit s with
  | error e => exact ⟨[], rfl, rfl⟩
  | ok edited? =>
    cases edited? with
    | none => exact ⟨[], rfl, rfl⟩
    | some edited =>
      cases hlaunch : edited.launch s config with
      | error failure => exact ⟨[], rfl, by simp only [hlaunch]⟩
      | ok launch =>
        obtain ⟨moves, hmoves, hkeys⟩ := launch.copies_eq_copiesDuring s
        exact ⟨moves, hkeys, by simp only [hlaunch, hmoves]⟩

/-! ### Before the first copy -/

/-- The sources alone are edited. -/
theorem CopyRequest.edit_eq_ok {r : CopyRequest} {s : Surroundings} {edited : EditedRequest}
    (h : r.edit s = .ok (some edited)) :
    edited.request.noVerify = r.noVerify ∧ edited.request.report = r.report := by
  unfold edit at h
  split at h
  · obtain rfl := Option.some.inj (Except.ok.inj h)
    exact ⟨rfl, rfl⟩
  split at h
  · exact nomatch h
  dsimp only at h
  split at h
  · exact nomatch h
  · exact nomatch h
  · obtain rfl := Option.some.inj (Except.ok.inj h)
    exact ⟨rfl, rfl⟩

/-- A terminal that is missing is no breakdown. -/
theorem Surroundings.takeOver_eq_error {s : Surroundings} {e : ProgramError}
    (h : s.takeOver = .error e) : e.exitStatus = 1 := by
  unfold takeOver at h
  split at h
  · exact nomatch h
  · obtain rfl := Except.error.inj h
    rfl

/-- Nor is what goes wrong in the batch screen. -/
theorem CopyRequest.edit_eq_error {r : CopyRequest} {s : Surroundings} {e : ProgramError}
    (h : r.edit s = .error e) : e.exitStatus = 1 := by
  unfold edit at h
  split at h
  · exact nomatch h
  split at h
  · next failed =>
    obtain rfl := Except.error.inj h
    exact Surroundings.takeOver_eq_error failed
  dsimp only at h
  split at h
  · obtain rfl := Except.error.inj h
    rfl
  · exact nomatch h
  · exact nomatch h

namespace EditedRequest

variable {e : EditedRequest} {s : Surroundings} {config : Config}

/-- What a run needs for its copies: the dashboard has no flag set, and the directory to copy into
has been made. -/
theorem launch_eq_ok {launch : CopyLaunch} (h : e.launch s config = .ok launch) :
    launch.request = e.request ∧ launch.session.board.isCancelled = false ∧
      s.disk.makeDirs e.request.dest = (.ok (), launch.disk) := by
  unfold EditedRequest.launch at h
  split at h
  · exact nomatch h
  split at h
  · exact nomatch h
  next disk hmade =>
  split at h
  · exact nomatch h
  next surface _ =>
  obtain rfl := Except.ok.inj h
  refine ⟨rfl, ?_, hmade⟩
  exact (Dashboard.sameFlags_redraw { surface := surface, redrawInterval := config.redrawInterval }
    true s.now).isCancelled

/-- A request that amounts to jobs is launched when the directory to copy into has been made and
there is a terminal. -/
theorem launch_of_accepted {jobs : List CopyJob} {disk : Disk} {surface : Surface}
    (hjobs : e.request.jobs config = .ok jobs)
    (hdirs : s.disk.makeDirs e.request.dest = (.ok (), disk))
    (hterminal : e.surface.elim s.takeOver .ok = .ok surface) :
    e.launch s config = .ok {
      request := e.request
      jobs := jobs
      concurrency := e.request.concurrency.getD config.maxConcurrentTransfers
      bufferBytes := config.copyBufferBytes
      disk := disk
      session := Session.start config surface (e.keysLeft ++ s.keys.during) s.now } := by
  simp only [EditedRequest.launch, hjobs, hdirs, hterminal]

/-- A request that does not amount to jobs leaves the disk alone. -/
theorem launch_of_refused (e : EditedRequest) (s : Surroundings) {cause : JobError}
    (h : e.request.jobs config = .error cause) :
    e.launch s config = .error (.jobs cause, s.disk) := by
  rw [EditedRequest.launch, h]

/-- What else goes wrong before the first copy may have made the directory to copy into, and is no
breakdown. -/
theorem launch_eq_error {cause : ProgramError} {disk : Disk}
    (h : e.launch s config = .error (cause, disk)) :
    cause.exitStatus = 1 ∧ s.disk.Grows disk := by
  have hmade := s.disk.grows_makeDirs e.request.dest
  unfold EditedRequest.launch at h
  -- the jobs, the directory and the terminal are tried in this order
  split at h
  · obtain ⟨rfl, rfl⟩ := Prod.mk.inj (Except.error.inj h)
    exact ⟨rfl, .refl _⟩
  split at h
  · next cause' disk' hdirs =>
    rw [hdirs] at hmade
    obtain ⟨rfl, rfl⟩ := Prod.mk.inj (Except.error.inj h)
    exact ⟨rfl, hmade⟩
  next disk' hdirs =>
  rw [hdirs] at hmade
  split at h
  · next cause' hterminal =>
    obtain ⟨rfl, rfl⟩ := Prod.mk.inj (Except.error.inj h)
    refine ⟨?_, hmade⟩
    cases hsurface : e.surface with
    | some surface => rw [hsurface] at hterminal; exact nomatch hterminal
    | none =>
      rw [hsurface, Option.elim_none] at hterminal
      exact Surroundings.takeOver_eq_error hterminal
  · exact nomatch h

end EditedRequest
end TransferBoard
