import TransferBoard.Proofs.Copy.Stages

/-!
# One step of a copy

A step does at most one thing to the disk, at one of the two places that the copy
writes to, and a failure may strike instead.  Either way what is known of the disk at a
stage is carried to the next one.

## Main results

* `placed_step` — a step of a copy writes to the places of the copy only.
* `holds_step` — it carries `CopyPlan.Holds` to the next stage.
* `isEarly_step` — a copy that has an entry on the dashboard does not end as one that
  has none.
-/

namespace TransferBoard

open Disk (AgreeOff)

theorem Turn.strike_eq_ok {α : Type} {turn : Turn} {result : Except OsError α} {a : α}
    (h : turn.strike result = .ok a) : result = .ok a := by
  unfold Turn.strike at h
  split at h
  · exact absurd h (by simp)
  · exact h

theorem CopyTools.readSize_pos (tools : CopyTools) (turn : Turn) : 0 < tools.readSize turn := by
  unfold CopyTools.readSize
  split <;> omega

/-! ### Pieces of a file -/

/-- A piece that was read after a number of bytes is the next one of the file. -/
theorem extract_append_piece (bytes : Bytes) (k n : Nat) :
    bytes.extract 0 k ++ bytes.extract k (k + n) =
      bytes.extract 0 (k + (bytes.extract k (k + n)).size) := by
  rw [Array.extract_append_extract, Array.size_extract]
  by_cases hn : k + n ≤ bytes.size
  · have hend : max k (k + n) = k + (min (k + n) bytes.size - k) := by omega
    rw [Nat.zero_min, hend]
  · -- the piece ends with the file, which both sides are then
    rw [Nat.zero_min, Array.extract_eq_self_of_le (by omega),
      Array.extract_eq_self_of_le (by omega)]

/-- When nothing more can be read, all of the file has been. -/
theorem extract_eq_of_isEmpty {bytes : Bytes} {k n : Nat} (hn : 0 < n)
    (h : (bytes.extract k (k + n)).isEmpty = true) : bytes.extract 0 k = bytes := by
  rw [Array.isEmpty_iff_size_eq_zero, Array.size_extract] at h
  apply Array.extract_eq_self_of_le
  omega

namespace CopyPlan

variable {plan : CopyPlan} {tools : CopyTools} {turn : Turn} {d₀ : Disk} {w : Workshop}

/-! ### Where a step writes -/

/-- The places that a copy writes to in a step from one stage to the next: that of its
temporary file while it has one, and that of its destination when it gets its name. -/
def WritesIn (plan : CopyPlan) (d : Disk) (stage next : CopyStage) (place : Place) : Prop :=
  d.resolve plan.temp = .ok place ∧ (stage.isOpen = true ∨ next.isOpen = true) ∨
    d.resolve plan.target = .ok place ∧ stage.isOpen = true ∧ next.isNamed = true

theorem WritesIn.writesAt {d : Disk} {stage next : CopyStage} {q : Place}
    (h : plan.WritesIn d stage next q) : plan.WritesAt d q :=
  h.imp And.left And.left

/-- The name of a place that a copy writes to in a step. -/
theorem WritesIn.name (hp : plan.Proper) {d : Disk} {stage next : CopyStage} {parent : Place}
    {s : String} (h : plan.WritesIn d stage next (parent ++ [s])) :
    s = plan.name ++ tempSuffix ∧ (stage.isOpen = true ∨ next.isOpen = true) ∨
      s = plan.name ∧ next.isNamed = true := by
  rcases h with ⟨hq, hphase⟩ | ⟨hq, -, hnamed⟩
  · obtain ⟨parent', heq⟩ := hp.temp_place hq
    exact .inl ⟨name_eq_of_place_eq heq, hphase⟩
  · obtain ⟨parent', heq⟩ := hp.target_place hq
    exact .inr ⟨name_eq_of_place_eq heq, hnamed⟩

/-- What a step has to show: where the copy is then, and where it has written. -/
def Reaches (plan : CopyPlan) (d₀ d : Disk) (stage : CopyStage) (c : CopyStage × Workshop) :
    Prop :=
  plan.Placed d₀ c.2.disk c.1 ∧ AgreeOff (plan.WritesIn d₀ stage c.1) d c.2.disk

/-- A step that leaves the disk alone and learns of no place. -/
theorem Placed.keep {stage : CopyStage} {c : CopyStage × Workshop}
    (h : plan.Placed d₀ w.disk stage) (hd : c.2.disk = w.disk)
    (hs : c.1.source? = none ∨ c.1.source? = stage.source?)
    (ht : c.1.temp? = none ∨ c.1.temp? = stage.temp?) : plan.Reaches d₀ w.disk stage c := by
  unfold Reaches
  rw [hd]
  refine ⟨⟨h.dirs, ?_, ?_⟩, AgreeOff.refl _ _⟩
  · rcases hs with hs | hs
    · intro q hq; rw [hs] at hq; exact absurd hq (by simp)
    · rw [hs]; exact h.source_at
  · rcases ht with ht | ht
    · intro q hq; rw [ht] at hq; exact absurd hq (by simp)
    · rw [ht]; exact h.temp_at

/-- **A step writes to the places of the copy only.** -/
theorem placed_step (hp : plan.Proper) (tools : CopyTools) (turn : Turn) {stage : CopyStage}
    (h : plan.Placed d₀ w.disk stage) :
    plan.Reaches d₀ w.disk stage (plan.step tools turn w stage) := by
  have hled : ∀ {path : Path} {q : Place}, w.disk.resolve path = .ok q → d₀.resolve path = .ok q :=
    (Disk.resolve_congr h.dirs).mpr
  cases stage with
  | opening =>
    rw [step]
    split
    · exact h.keep rfl (.inl rfl) (.inl rfl)
    · next source node hopen =>
      have hfound := Disk.locate_eq_ok_iff.mp (Turn.strike_eq_ok hopen)
      refine ⟨⟨h.dirs, ?_, fun _ hq => (nomatch hq)⟩, AgreeOff.refl _ _⟩
      rintro q ⟨⟩
      exact hled hfound.1
  | creating source total =>
    rw [step]
    split
    · exact h.keep rfl (.inl rfl) (.inl rfl)
    · next temp disk hcreate =>
      obtain ⟨hplace, hd, -⟩ := Disk.createFile_spec (Turn.strike_eq_ok hcreate)
      refine ⟨⟨h.dirs.trans hd.dirs, h.source_at, ?_⟩, hd.mono ?_⟩
      · rintro q ⟨⟩; exact hled hplace
      · rintro q rfl; exact .inl ⟨hled hplace, .inr rfl⟩
  | writing run piece =>
    rw [step]
    split
    · exact h.keep rfl (.inl rfl) (.inl rfl)
    · next disk hwrite =>
      obtain rfl : w.disk.append run.temp piece = disk := Except.ok.inj (Turn.strike_eq_ok hwrite)
      have hd := Disk.agreeOff_append w.disk run.temp piece
      refine ⟨⟨h.dirs.trans hd.dirs, h.source_at, h.temp_at⟩, hd.mono ?_⟩
      rintro q rfl
      exact .inl ⟨h.temp_at _ rfl, .inl rfl⟩
  | «renaming» run =>
    rw [step]
    split
    · exact h.keep rfl (.inl rfl) (.inl rfl)
    · next disk hrename =>
      obtain ⟨hd, -⟩ := Disk.renameFile_spec (Turn.strike_eq_ok hrename)
        (fun _ hq => hp.target_ne_temp hq) hp.endsInSlash_target
      refine ⟨⟨h.dirs.trans hd.dirs, fun _ hq => (nomatch hq), fun _ hq => (nomatch hq)⟩,
        hd.mono ?_⟩
      exact fun q hq => hq.imp (fun hq => ⟨hled hq, .inl rfl⟩) (fun hq => ⟨hled hq, rfl, rfl⟩)
  | discarding run failure =>
    rw [step]
    split
    · next disk hremove =>
      obtain ⟨place, hplace, hd, -⟩ := Disk.removeFile_spec hremove
      refine ⟨⟨h.dirs.trans hd.dirs, fun _ hq => (nomatch hq), fun _ hq => (nomatch hq)⟩,
        hd.mono ?_⟩
      rintro q rfl
      exact .inl ⟨hled hplace, .inl rfl⟩
    · exact h.keep rfl (.inl rfl) (.inl rfl)
  -- the other stages leave the disk alone
  | measuring source =>
    rw [step]
    split
    · exact h.keep rfl (.inl rfl) (.inl rfl)
    · exact h.keep rfl (.inr rfl) (.inl rfl)
  | checking run =>
    rw [step]
    split
    · exact h.keep rfl (.inr rfl) (.inr rfl)
    · exact h.keep rfl (.inl rfl) (.inl rfl)
    · exact h.keep rfl (.inr rfl) (.inr rfl)
  | reading run =>
    rw [step]
    split
    · exact h.keep rfl (.inr rfl) (.inr rfl)
    split
    · exact h.keep rfl (.inl rfl) (.inl rfl)
    · next piece _ =>
      cases piece.isEmpty
      · exact h.keep rfl (.inr rfl) (.inr rfl)
      · exact h.keep rfl (.inl rfl) (.inl rfl)
  | syncing run => rw [step]; split <;> exact h.keep rfl (.inl rfl) (.inl rfl)
  | stopping run failure => rw [step]; split <;> exact h.keep rfl (.inl rfl) (.inl rfl)
  | showingFinish run =>
    rw [step]
    cases plan.job.kind.isSome <;> exact h.keep rfl (.inl rfl) (.inl rfl)
  | choosingDigest run => rw [step]; split <;> exact h.keep rfl (.inl rfl) (.inl rfl)
  | settling run result => rw [step]; split <;> exact h.keep rfl (.inl rfl) (.inl rfl)
  | announcing source temp total => exact h.keep rfl (.inr rfl) (.inr rfl)
  | showing source temp handle => exact h.keep rfl (.inr rfl) (.inr rfl)
  | reporting run count => exact h.keep rfl (.inr rfl) (.inr rfl)
  | drawing run => exact h.keep rfl (.inr rfl) (.inr rfl)
  | _ => exact h.keep rfl (.inl rfl) (.inl rfl)

/-! ### What a step leaves -/

/-- The temporary file is written without a change at the source or the destination. -/
theorem Kept.write_temp {d d' : Disk} (hp : plan.Proper) {place : Place}
    (hplace : d.resolve plan.temp = .ok place) (hd : AgreeOff (· = place) d d')
    (h : plan.Kept d₀ d) : plan.Kept d₀ d' := by
  refine ⟨?_, ?_⟩
  · rw [hd.at?, h.1]
    rintro q hq rfl
    exact hp.source_ne_temp hplace hq
  · rw [hd.at?, h.2]
    rintro q hq rfl
    exact hp.target_ne_temp hplace hq

theorem content_opening (h : plan.Holds d₀ w.disk .opening) :
    (plan.step tools turn w .opening).1.Content plan d₀
      (plan.step tools turn w .opening).2.disk := by
  have huntouched : plan.Untouched d₀ w.disk := h.content
  rw [step]
  split
  · exact huntouched
  · next source node hopen =>
    have hlocate : w.disk.locate plan.job.source = .ok (source, node) := Turn.strike_eq_ok hopen
    exact ⟨huntouched, node, huntouched.1.1 ▸ Disk.at?_of_locate hlocate⟩

theorem content_creating (hp : plan.Proper) {source : Place} {total : Nat}
    (h : plan.Holds d₀ w.disk (.creating source total)) :
    (plan.step tools turn w (.creating source total)).1.Content plan d₀
      (plan.step tools turn w (.creating source total)).2.disk := by
  obtain ⟨⟨hkept, htemp⟩, hfound⟩ := h.content
  rw [step]
  split
  · exact ⟨hkept, htemp⟩
  · next temp disk hcreate =>
    obtain ⟨hplace, hd, hempty⟩ := Disk.createFile_spec (Turn.strike_eq_ok hcreate)
    refine ⟨hkept.write_temp hp hplace hd, hfound, ?_⟩
    rw [hempty, Array.extract_zero]

/-- What is read is a piece of the source, as it was before the copy. -/
theorem content_reading {run : CopyRun} (h : plan.Holds d₀ w.disk (.reading run)) :
    (plan.step tools turn w (.reading run)).1.Content plan d₀
      (plan.step tools turn w (.reading run)).2.disk := by
  obtain ⟨hkept, hmoved⟩ := h.content
  rw [step]
  split
  · exact ⟨hkept, hmoved⟩
  next hwait =>
  split
  · exact ⟨hkept, ⟨_, hmoved.2⟩, by rintro e ⟨⟩; rfl⟩
  next piece hread =>
  obtain ⟨node, hsource⟩ := hmoved.1
  obtain ⟨place, hplace, hnode, -⟩ := Disk.at?_eq_some_iff.mp (hkept.1.trans hsource)
  have hrun := (Disk.resolve_congr h.placed.dirs).mp (h.placed.source_at run.source rfl)
  obtain rfl : run.source = place := Except.ok.inj (hrun.symm.trans hplace)
  obtain ⟨bytes, hbytes, hpiece⟩ :=
    Disk.readAt_eq_ok hnode (by simpa using hwait) (Turn.strike_eq_ok hread)
  have hall : d₀.bytesAt? plan.job.source = some bytes := by
    rw [Disk.bytesAt?, hsource]
    exact hbytes
  split
  · next hempty =>
    -- the end of the source: all of it has been moved
    refine ⟨hkept, bytes, hall, ?_⟩
    rw [hmoved.2, hall, Option.getD_some,
      extract_eq_of_isEmpty (tools.readSize_pos turn) (hpiece ▸ hempty)]
  · exact ⟨hkept, hmoved, bytes, _, hall, hpiece⟩

theorem content_writing (hp : plan.Proper) {run : CopyRun} {piece : Bytes}
    (h : plan.Holds d₀ w.disk (.writing run piece)) :
    (plan.step tools turn w (.writing run piece)).1.Content plan d₀
      (plan.step tools turn w (.writing run piece)).2.disk := by
  obtain ⟨hkept, hmoved, bytes, count, hall, hpiece⟩ := h.content
  rw [step]
  split
  · exact ⟨hkept, ⟨_, hmoved.2⟩, by rintro e ⟨⟩; rfl⟩
  next disk hwrite =>
  obtain rfl : w.disk.append run.temp piece = disk := Except.ok.inj (Turn.strike_eq_ok hwrite)
  have hplace := (Disk.resolve_congr h.placed.dirs).mp (h.placed.temp_at run.temp rfl)
  have hd := Disk.agreeOff_append w.disk run.temp piece
  refine ⟨hkept.write_temp hp hplace hd, hmoved.1, ?_⟩
  rw [Disk.append_spec hplace hmoved.2, hall, Option.getD_some, hpiece, extract_append_piece]

theorem content_renaming (hp : plan.Proper) {run : CopyRun}
    (h : plan.Holds d₀ w.disk (.renaming run)) :
    (plan.step tools turn w (.renaming run)).1.Content plan d₀
      (plan.step tools turn w (.renaming run)).2.disk := by
  obtain ⟨hkept, bytes, hall, htemp⟩ := h.content
  rw [step]
  split
  · exact ⟨hkept, ⟨_, htemp⟩, by rintro e ⟨⟩; rfl⟩
  next disk hrename =>
  obtain ⟨-, hgone, hthere⟩ := Disk.renameFile_spec (Turn.strike_eq_ok hrename)
    (fun _ hq => hp.target_ne_temp hq) hp.endsInSlash_target
  exact ⟨⟨bytes, hall, hthere.trans htemp⟩, hgone⟩

/-- The temporary file can be removed, because it is there. -/
theorem content_discarding (hp : plan.Proper) {run : CopyRun} {failure : Option CopyError}
    (h : plan.Holds d₀ w.disk (.discarding run failure)) :
    (plan.step tools turn w (.discarding run failure)).1.Content plan d₀
      (plan.step tools turn w (.discarding run failure)).2.disk := by
  obtain ⟨hkept, ⟨bytes, htemp⟩, hlate⟩ := h.content
  obtain ⟨disk, hremove⟩ := Disk.removeFile_of_at? htemp (by simp)
  obtain ⟨place, hplace, hd, hgone⟩ := Disk.removeFile_spec hremove
  rw [step, hremove]
  refine ⟨hkept.write_temp hp hplace hd, ?_⟩
  cases failure with
  | none => exact hgone
  | some e => rw [GivenUp, if_neg (by simp [hlate e rfl])]; exact hgone

/-- What holds at the end of a copy that is given up. -/
theorem content_ended_givenUp {d : Disk} (failure : Option CopyError) :
    (CopyStage.ended (givenUp failure)).Content plan d₀ d =
      (plan.Kept d₀ d ∧ plan.GivenUp d₀ d failure) := by
  cases failure <;> rfl

/-- **A step carries what holds to the next stage**, whatever fails in it. -/
theorem holds_step (hp : plan.Proper) (tools : CopyTools) (turn : Turn) {stage : CopyStage}
    (h : plan.Holds d₀ w.disk stage) :
    plan.Holds d₀ (plan.step tools turn w stage).2.disk (plan.step tools turn w stage).1 := by
  refine ⟨(placed_step hp tools turn h.placed).1, ?_⟩
  cases stage with
  | opening => exact content_opening h
  | creating source total => exact content_creating hp h
  | reading run => exact content_reading h
  | writing run piece => exact content_writing hp h
  | «renaming» run => exact content_renaming hp h
  | discarding run failure => exact content_discarding hp h
  -- the other stages leave the disk alone
  | measuring source =>
    rw [step]
    split
    · exact h.content.1
    · exact h.content
  | checking run =>
    rw [step]
    split
    · exact h.content
    · exact ⟨h.content.1, ⟨_, h.content.2.2⟩, fun _ he => (nomatch he)⟩
    · exact h.content
  | syncing run =>
    obtain ⟨hkept, bytes, hall, htemp⟩ := h.content
    rw [step]
    split
    · exact ⟨hkept, ⟨_, htemp⟩, by rintro e ⟨⟩; rfl⟩
    · exact ⟨hkept, bytes, hall, htemp⟩
  | stopping run failure =>
    rw [step]
    split
    · exact h.content
    · exact content_ended_givenUp failure ▸ h.content
  | showingStop failure => exact content_ended_givenUp failure ▸ h.content
  | showingFinish run => rw [step]; cases plan.job.kind.isSome <;> exact h.content
  | choosingDigest run => rw [step]; split <;> exact h.content
  | settling run result => rw [step]; split <;> exact h.content
  | registering => exact ⟨rfl, h.content⟩
  | _ => exact h.content

/-- A copy that has an entry on the dashboard does not end as one that has none. -/
theorem isEarly_step (plan : CopyPlan) (tools : CopyTools) (turn : Turn) (w : Workshop)
    {stage : CopyStage} (h : stage.isEarly = false) :
    (plan.step tools turn w stage).1.isEarly = false := by
  -- the early stages are not come back to; a failure is as early as it was
  cases stage with
  | opening => exact absurd h (by simp [CopyStage.isEarly])
  | measuring source => exact absurd h (by simp [CopyStage.isEarly])
  | creating source total => exact absurd h (by simp [CopyStage.isEarly])
  | announcing source temp total => exact absurd h (by simp [CopyStage.isEarly])
  | stopping run failure =>
    rw [step]
    split <;> cases failure <;> first | rfl | exact h
  | showingStop failure => cases failure <;> first | rfl | exact h
  | discarding run failure => cases failure <;> first | rfl | exact h
  | ended r => exact h
  | checking run => rw [step]; split <;> rfl
  | reading run =>
    rw [step]
    split
    · rfl
    split
    · rfl
    · next piece _ => cases piece.isEmpty <;> rfl
  | writing run piece => rw [step]; split <;> rfl
  | syncing run => rw [step]; split <;> rfl
  | «renaming» run => rw [step]; split <;> rfl
  | showingFinish run => rw [step]; cases plan.job.kind.isSome <;> rfl
  | choosingDigest run => rw [step]; split <;> rfl
  | settling run result => rw [step]; split <;> rfl
  | _ => rfl

end CopyPlan
end TransferBoard
