import TransferBoard.Proofs.Board.Bytes
import TransferBoard.Proofs.Copy.Around
import TransferBoard.Proofs.Copy.Returns

/-!
# The rounds of a copy

A copy moves its source in rounds: it looks whether to go on, reads a piece, writes it, tells
the dashboard about it and has it shown.  The steps that it has taken say how many rounds it has
begun and what it has told, and both are bounded by what there is to read.

## Main definitions

* `CopyPlan.trace` — the steps that a copy takes in its course.
* `toldIn`, `roundsIn`, `workIn` — the portions that are told in some steps, the rounds that are
  begun, and the steps in which the copy goes on.
* `CopyPlan.Moving size n stage` — the copy has moved the bytes that it has told.
* `CopyPlan.Tallied` — the invariant: that, and the bounds.

## Main results

* `run_of_trace` — an induction over the steps of a copy, with those before, and the sections of
  others.
* `reading_cases` — what a read finds.
* `moving_step`, `roundsDue_le` — what a step tells, and the rounds that it begins.
* `tallied_step`, `tallied_run` — every step keeps the invariant, and so does every course.
-/

namespace TransferBoard

namespace CopyStage

/-- The bytes that the copy says it has moved, until it has come to the end of its source or is
given up. -/
def copied? : CopyStage → Option Nat
  | opening | measuring _ | creating _ _ | announcing _ _ _ | showing _ _ _ => some 0
  | checking run | reading run | writing run _ | reporting run _ | drawing run => some run.copied
  | _ => none

/-- The size of the piece that has been read and not been told yet. -/
def inHand? : CopyStage → Option Nat
  | writing _ piece => some piece.size
  | reporting _ count => some count
  | _ => none

/-- What the next step tells the dashboard. -/
def told? : CopyStage → Option UInt64
  | reporting _ count => some count.toUInt64
  | _ => none

/-- The copy is at the start of a round: it looks whether to go on. -/
def isChecking : CopyStage → Bool
  | checking _ => true
  | _ => false

/-- The next step begins a round. -/
def begins : CopyStage → Bool
  | showing _ _ _ | drawing _ => true
  | _ => false

/-- The rounds that will begin whether anything more is read or not. -/
def roundsDue : CopyStage → Nat
  | opening | measuring _ | creating _ _ | announcing _ _ _ | showing _ _ _ | drawing _ => 1
  | _ => 0

/-- All of the source has been moved, and the copy has not got its name yet. -/
def isWhole : CopyStage → Bool
  | syncing _ | .renaming _ => true
  | _ => false

/-- A copy that has to wait tells nothing and begins no round. -/
theorem idle_of_isBlocked {w : Workshop} {stage : CopyStage} (h : stage.isBlocked w = true) :
    stage.told? = none ∧ stage.begins = false := by
  cases stage with
  | checking run => exact ⟨rfl, rfl⟩
  | reading run => exact ⟨rfl, rfl⟩
  | _ => exact absurd h nofun

end CopyStage

/-- The steps that a copy takes in its course: how it found itself, and what the copies share,
before each of them. -/
def CopyPlan.trace (plan : CopyPlan) (tools : CopyTools) :
    CopyStage × Workshop → List CopyMove → List (CopyStage × Workshop)
  | _, [] => []
  | c, .own turn :: moves => c :: trace plan tools (plan.step tools turn c.2 c.1) moves
  | c, .others change :: moves => trace plan tools (plan.after tools c (.others change)) moves

/-- The portions that are told in some steps. -/
def toldIn (steps : List (CopyStage × Workshop)) : List UInt64 := steps.filterMap (·.1.told?)

/-- The rounds that are begun in some steps. -/
def roundsIn (steps : List (CopyStage × Workshop)) : Nat := steps.countP (·.1.begins)

/-- The steps among some in which the copy goes on: it need not wait, and has not ended. -/
def workIn (steps : List (CopyStage × Workshop)) : Nat :=
  steps.countP fun c => !c.1.isBlocked c.2 && c.1.result?.isNone

theorem bytesOf_append (portions portions' : List UInt64) :
    bytesOf (portions ++ portions') = bytesOf portions + bytesOf portions' := by
  simp only [bytesOf, List.map_append, List.sum_append_nat]

theorem bytesOf_toUInt64 {count : Nat} (h : count < 2 ^ 64) : bytesOf [count.toUInt64] = count := by
  rw [bytesOf, List.map_singleton, List.sum_singleton]
  exact UInt64.toNat_ofNat_of_lt h

theorem toldIn_concat (steps : List (CopyStage × Workshop)) (c : CopyStage × Workshop) :
    toldIn (steps ++ [c]) = toldIn steps ++ c.1.told?.toList := by
  rw [toldIn, List.filterMap_append, List.filterMap_cons, List.filterMap_nil, toldIn]
  cases c.1.told? <;> rfl

namespace CopyPlan

variable {plan : CopyPlan} {tools : CopyTools} {turn : Turn} {w : Workshop} {d₀ : Disk}
  {bytes : Bytes} {stage next : CopyStage} {size n : Nat} {steps : List (CopyStage × Workshop)}
  {c : CopyStage × Workshop} {moves : List CopyMove}

/-- **What the steps of a copy keep, and the sections of others, its course keeps**, where what
is kept may speak of the steps so far. -/
theorem run_of_trace {P : List (CopyStage × Workshop) → CopyStage × Workshop → Prop}
    {allowed : BoardSection → Bool}
    (hstep : ∀ steps c turn, P steps c → P (steps ++ [c]) (plan.step tools turn c.2 c.1))
    (hothers : ∀ steps c sec, allowed sec = true → P steps c → P steps (onBoard c sec))
    (hmoves : ∀ move ∈ moves, move.MadeOf allowed) (hc : P steps c) :
    P (steps ++ plan.trace tools c moves) (plan.run tools c moves) := by
  -- the steps so far grow at their end, as the moves are used up from the front
  induction moves generalizing steps c with
  | nil =>
    rw [trace, List.append_nil]
    exact hc
  | cons move moves ih =>
    have hrest := fun m hm => hmoves m (List.mem_cons_of_mem _ hm)
    have hmove := hmoves move List.mem_cons_self
    cases move with
    | own turn =>
      rw [trace, List.append_cons]
      exact ih hrest (hstep steps c turn hc)
    | others change =>
      refine ih hrest ?_
      exact Dashboard.MadeOf.keeps (P := fun d => P steps (c.1, { c.2 with board := d })) hmove
        (fun d sec hsec => hothers steps (c.1, { c.2 with board := d }) sec hsec) hc

theorem trace_append (plan : CopyPlan) (tools : CopyTools) (c : CopyStage × Workshop)
    (moves moves' : List CopyMove) :
    plan.trace tools c (moves ++ moves') =
      plan.trace tools c moves ++ plan.trace tools (plan.run tools c moves) moves' := by
  induction moves generalizing c with
  | nil => rfl
  | cons move moves ih =>
    cases move with
    | own turn => exact congrArg (c :: ·) (ih _)
    | others change => exact ih _

/-! ### The pieces -/

/-- The bytes that have been told at a stage are those that have been moved. -/
structure Moving (size n : Nat) (stage : CopyStage) : Prop where
  /-- The copy itself counts what it has told. -/
  copied : ∀ k, stage.copied? = some k → k = n
  /-- The piece in hand is one of the source, after what has been told. -/
  fits : n + stage.inHand?.getD 0 ≤ size
  /-- It is not empty. -/
  inHand_pos : ∀ m, stage.inHand? = some m → 0 < m
  /-- At the end of the source all of it has been told. -/
  whole : stage.isWhole = true → n = size

/-- A read finds the next piece, which is not empty, or the end of the source, if the copy need not
wait and nothing fails. -/
theorem reading_cases (hp : plan.Proper) (hbytes : d₀.bytesAt? plan.job.source = some bytes)
    {run : CopyRun} (hholds : plan.Holds d₀ w.disk (.reading run)) (tools : CopyTools)
    (turn : Turn) :
    let next := (plan.step tools turn w (.reading run)).1
    next = .reading run ∨ (∃ e, next = .discarding run (some e)) ∨
      (next = .syncing run ∧ bytes.size ≤ run.copied) ∨
      ∃ piece, next = .writing run piece ∧ 0 < piece.size ∧
        run.copied + piece.size ≤ bytes.size := by
  have hbefore := hholds.content.2.2
  have hnext := (holds_step hp tools turn hholds).content
  rw [step] at hnext ⊢
  by_cases hwait : w.disk.isWaiting run.source = true
  · rw [if_pos hwait]
    exact .inl rfl
  rw [if_neg hwait] at hnext ⊢
  cases hread : turn.strike (w.disk.readAt run.source run.copied (tools.readSize turn)) with
  | error e => exact .inr (.inl ⟨_, rfl⟩)
  | ok piece =>
    rw [hread] at hnext
    dsimp only at hnext ⊢
    by_cases hempty : piece.isEmpty = true
    · -- all of the source is in the temporary file
      rw [if_pos hempty] at hnext ⊢
      obtain ⟨-, bytes', hall, htemp⟩ := hnext
      rw [hbytes] at hall hbefore
      obtain rfl := Option.some.inj hall
      have hwhole : bytes.extract 0 run.copied = bytes :=
        Node.file.inj (Option.some.inj (hbefore.symm.trans htemp))
      have hsize := congrArg Array.size hwhole
      rw [Array.size_extract] at hsize
      exact .inr (.inr (.inl ⟨rfl, by omega⟩))
    · rw [if_neg hempty] at hnext ⊢
      obtain ⟨-, -, bytes', count, hall, hpiece⟩ := hnext
      rw [hbytes] at hall
      obtain rfl := Option.some.inj hall
      rw [Array.isEmpty_iff_size_eq_zero] at hempty
      have hsize := congrArg Array.size hpiece
      rw [Array.size_extract] at hsize
      exact .inr (.inr (.inr ⟨piece, rfl, by omega, by omega⟩))

/-- A stage that says no more than the one before. -/
theorem Moving.of_same (hmoving : Moving size n stage)
    (hcopied : next.copied? = none ∨ next.copied? = stage.copied?)
    (hhand : next.inHand? = none ∨ next.inHand? = stage.inHand?)
    (hwhole : next.isWhole = true → stage.isWhole = true) : Moving size n next where
  copied k hk := by
    rcases hcopied with hnone | hsame
    · exact nomatch hnone.symm.trans hk
    · exact hmoving.copied k (hsame ▸ hk)
  fits := by
    rcases hhand with hnone | hsame
    · rw [hnone]
      exact Nat.le_trans (Nat.le_add_right _ _) hmoving.fits
    · exact hsame ▸ hmoving.fits
  inHand_pos m hm := by
    rcases hhand with hnone | hsame
    · exact nomatch hnone.symm.trans hm
    · exact hmoving.inHand_pos m (hsame ▸ hm)
  whole hw := hmoving.whole (hwhole hw)

/-- **A step keeps the count of the copy**, with what it tells in the step. -/
theorem moving_step (hp : plan.Proper) (hbytes : d₀.bytesAt? plan.job.source = some bytes)
    (hsize : bytes.size < 2 ^ 64) (hholds : plan.Holds d₀ w.disk stage)
    (hmoving : Moving bytes.size n stage) (tools : CopyTools) (turn : Turn) :
    Moving bytes.size (n + bytesOf stage.told?.toList) (plan.step tools turn w stage).1 := by
  have hleft : n ≤ bytes.size := Nat.le_trans (Nat.le_add_right _ _) hmoving.fits
  -- only a read takes a piece in hand or finds the end, and only a report tells anything
  by_cases hreading : ∃ run, stage = .reading run
  · obtain ⟨run, rfl⟩ := hreading
    have hcopied : run.copied = n := hmoving.copied _ rfl
    rcases reading_cases hp hbytes hholds tools turn with
      hnext | ⟨e, hnext⟩ | ⟨hnext, hend⟩ | ⟨piece, hnext, hsome, hpiece⟩
    · rw [hnext]
      exact hmoving
    · rw [hnext]
      exact hmoving.of_same (.inl rfl) (.inl rfl) nofun
    · rw [hnext]
      exact ⟨nofun, hleft, nofun, fun _ => Nat.le_antisymm hleft (hcopied ▸ hend)⟩
    · rw [hnext]
      refine ⟨fun k hk => hmoving.copied k hk, ?_, ?_, nofun⟩
      · exact hcopied ▸ hpiece
      · rintro _ ⟨⟩
        exact hsome
  · have hnext := plan.next_step tools turn w stage
    generalize (plan.step tools turn w stage).1 = next at hnext
    cases hnext with
    | read => exact absurd ⟨_, rfl⟩ hreading
    | emptied => exact absurd ⟨_, rfl⟩ hreading
    | unread => exact absurd ⟨_, rfl⟩ hreading
    | waits blocked =>
      rw [(CopyStage.idle_of_isBlocked blocked).1]
      exact hmoving
    | synced => exact hmoving.of_same (.inl rfl) (.inl rfl) id
    | @reported run count =>
      have hcopied : run.copied = n := hmoving.copied _ rfl
      have hfits : n + count ≤ bytes.size := hmoving.fits
      have htold : bytesOf [count.toUInt64] = count := bytesOf_toUInt64 (by omega)
      refine ⟨?_, ?_, nofun, nofun⟩
      · rintro _ ⟨⟩
        rw [hcopied]
        exact congrArg (n + ·) htold.symm
      · show n + bytesOf [count.toUInt64] ≤ bytes.size
        rwa [htold]
    | written => exact hmoving.of_same (.inr rfl) (.inr rfl) nofun
    | @unstopped run failure =>
      cases failure <;> exact hmoving.of_same (.inl rfl) (.inl rfl) nofun
    | @shownStop failure =>
      cases failure <;> exact hmoving.of_same (.inl rfl) (.inl rfl) nofun
    | _ => first
      | exact hmoving.of_same (.inr rfl) (.inl rfl) nofun
      | exact hmoving.of_same (.inl rfl) (.inl rfl) nofun

/-! ### The rounds -/

/-- No more rounds are begun than one, and one for each portion that is told. -/
theorem Next.roundsDue_le (hnext : plan.Next turn w stage next) :
    (if stage.begins then 1 else 0) + next.roundsDue ≤
      stage.told?.toList.length + stage.roundsDue := by
  cases hnext with
  | waits blocked =>
    rw [(CopyStage.idle_of_isBlocked blocked).2]
    exact Nat.add_le_add_right (Nat.zero_le _) _
  | _ => simp [CopyStage.begins, CopyStage.roundsDue, CopyStage.told?]

/-- A portion that is told is not empty. -/
theorem Moving.length_told_le (hmoving : Moving size n stage) (hsize : size < 2 ^ 64) :
    stage.told?.toList.length ≤ bytesOf stage.told?.toList := by
  cases stage with
  | reporting run count =>
    have hsome : 0 < count := hmoving.inHand_pos _ rfl
    have hfits : n + count ≤ size := hmoving.fits
    rw [CopyStage.told?, Option.toList_some, bytesOf_toUInt64 (by omega)]
    exact hsome
  | _ => exact Nat.zero_le _

/-- What holds of a copy in its course, with the steps that it has taken. -/
structure Tallied (plan : CopyPlan) (d₀ : Disk) (bytes : Bytes)
    (steps : List (CopyStage × Workshop)) (c : CopyStage × Workshop) : Prop where
  /-- The disk at its stage. -/
  holds : plan.Holds d₀ c.2.disk c.1
  /-- What it has told is what it has moved. -/
  moving : Moving bytes.size (bytesOf (toldIn steps)) c.1
  /-- No portion was empty. -/
  portions : (toldIn steps).length ≤ bytesOf (toldIn steps)
  /-- It has begun one round, and one for each portion. -/
  rounds : roundsIn steps + c.1.roundsDue ≤ (toldIn steps).length + 1
  /-- It has come nearer to its end. -/
  work : workIn steps + c.1.remaining bytes.size ≤ 5 * bytes.size + 16

theorem tallied_opening (plan : CopyPlan) (w : Workshop) (bytes : Bytes) :
    plan.Tallied w.disk bytes [] (.opening, w) where
  holds := plan.holds_opening w.disk
  moving := ⟨by rintro _ ⟨⟩; rfl, Nat.zero_le _, nofun, nofun⟩
  portions := Nat.le_refl _
  rounds := Nat.le_refl _
  work := Nat.le_of_eq (Nat.zero_add _)

/-- **A step of the copy keeps it.** -/
theorem tallied_step (hp : plan.Proper) (hbytes : d₀.bytesAt? plan.job.source = some bytes)
    (hsize : bytes.size < 2 ^ 64) (hc : plan.Tallied d₀ bytes steps c) (tools : CopyTools)
    (turn : Turn) : plan.Tallied d₀ bytes (steps ++ [c]) (plan.step tools turn c.2 c.1) where
  holds := holds_step hp tools turn hc.holds
  moving := by
    rw [toldIn_concat, bytesOf_append]
    exact moving_step hp hbytes hsize hc.holds hc.moving tools turn
  portions := by
    rw [toldIn_concat, bytesOf_append, List.length_append]
    exact Nat.add_le_add hc.portions (hc.moving.length_told_le hsize)
  rounds := by
    have hdue := (plan.next_step tools turn c.2 c.1).roundsDue_le
    have hbefore := hc.rounds
    rw [toldIn_concat, List.length_append, roundsIn, List.countP_append, List.countP_singleton]
    rw [roundsIn] at hbefore
    omega
  work := by
    have hbefore := hc.work
    have hless := remaining_step hp tools turn hc.holds
    rw [sourceSize_eq, hbytes, Option.elim_some] at hless
    rw [workIn] at hbefore ⊢
    rw [List.countP_append, List.countP_singleton]
    -- a stage that waits, or that has ended, does no work
    by_cases hblocked : c.1.isBlocked c.2 = true
    · rw [step_of_isBlocked hblocked, hblocked]
      simpa using hbefore
    cases hresult : c.1.result? with
    | some result =>
      rw [CopyStage.eq_ended_of_result? hresult] at hbefore ⊢
      simpa [step] using hbefore
    | none =>
      have hgoes := hless (by simpa using hblocked) hresult
      split <;> omega

/-- **So does every course of it**, whatever others do to the dashboard. -/
theorem tallied_run {allowed : BoardSection → Bool} (hp : plan.Proper)
    (hbytes : w.disk.bytesAt? plan.job.source = some bytes) (hsize : bytes.size < 2 ^ 64)
    (hmoves : ∀ move ∈ moves, move.MadeOf allowed) (tools : CopyTools) :
    plan.Tallied w.disk bytes (plan.trace tools (.opening, w) moves)
      (plan.run tools (.opening, w) moves) := by
  refine run_of_trace (P := plan.Tallied w.disk bytes) ?_ ?_ hmoves
    (tallied_opening plan w bytes)
  · exact fun steps c turn hc => tallied_step hp hbytes hsize hc tools turn
  · exact fun steps c sec _ hc => ⟨hc.holds, hc.moving, hc.portions, hc.rounds, hc.work⟩

namespace Tallied

/-- No more is told than there is to read. -/
theorem told_le (hc : plan.Tallied d₀ bytes steps c) : bytesOf (toldIn steps) ≤ bytes.size :=
  Nat.le_trans (Nat.le_add_right _ _) hc.moving.fits

/-- No more rounds are begun than one for each byte, and one. -/
theorem roundsIn_le (hc : plan.Tallied d₀ bytes steps c) : roundsIn steps ≤ bytes.size + 1 :=
  calc roundsIn steps
    _ ≤ roundsIn steps + c.1.roundsDue := Nat.le_add_right _ _
    _ ≤ (toldIn steps).length + 1 := hc.rounds
    _ ≤ bytesOf (toldIn steps) + 1 := Nat.succ_le_succ hc.portions
    _ ≤ bytes.size + 1 := Nat.succ_le_succ hc.told_le

theorem workIn_le (hc : plan.Tallied d₀ bytes steps c) : workIn steps ≤ 5 * bytes.size + 16 :=
  Nat.le_trans (Nat.le_add_right _ _) hc.work

/-- A copy that has taken all its steps has ended. -/
theorem isSome_result? (hc : plan.Tallied d₀ bytes steps c)
    (hall : workIn steps = 5 * bytes.size + 16) : c.1.result?.isSome = true := by
  have hwork := hc.work
  exact CopyStage.result?_of_remaining (by omega : c.1.remaining bytes.size = 0)

/-- At the start of a round the temporary file holds what has been told. -/
theorem temp_checking (hc : plan.Tallied d₀ bytes steps c)
    (hbytes : d₀.bytesAt? plan.job.source = some bytes) (hchecking : c.1.isChecking = true) :
    c.2.disk.at? plan.temp = some (.file (bytes.extract 0 (bytesOf (toldIn steps)))) := by
  obtain ⟨stage, w⟩ := c
  cases stage with
  | checking run =>
    have htemp := hc.holds.content.2.2
    rwa [hbytes, hc.moving.copied run.copied rfl] at htemp
  | _ => cases hchecking

end Tallied
end CopyPlan
end TransferBoard
