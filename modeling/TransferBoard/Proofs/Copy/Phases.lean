import TransferBoard.Proofs.Copy.Step

/-!
# The phases of a copy

A copy has its temporary file from the step that makes it to the step that renames or
removes it.  From then on it has its name or has been given up, and writes nothing more.

## Main definitions

* `CopyStage.isBegun` — the copy has made its temporary file, or will never do so.
* `CopyPlan.Bears` — what a copy needs of the disk while others write to it.

## Main results

* `step_of_isOpen`, `step_of_isClosed` — what a step does to a temporary file, and that
  nothing is written without one.
* `renamed_of_isNamed`, `gone_of_closes` — the step in which a copy gets its name, and the
  one after which it has no temporary file.
* `bears_step`, `Bears.elsewhere` — its own steps keep what it needs, and those of others
  that leave it its source and its file.
-/

namespace TransferBoard

open Disk (SameDirs)

/-- The copy has made its temporary file, or will never do so. -/
def CopyStage.isBegun (stage : CopyStage) : Bool := stage.isOpen || stage.isClosed

theorem CopyStage.isBegun_of_isOpen {stage : CopyStage} (h : stage.isOpen = true) :
    stage.isBegun = true := by
  rw [isBegun, h, Bool.true_or]

theorem CopyStage.isBegun_of_isClosed {stage : CopyStage} (h : stage.isClosed = true) :
    stage.isBegun = true := by
  rw [isBegun, h, Bool.or_true]

theorem CopyStage.isClosed_of_isBegun {stage : CopyStage} (h : stage.isBegun = true)
    (hopen : stage.isOpen = false) : stage.isClosed = true := by
  rwa [isBegun, hopen, Bool.false_or] at h

theorem CopyStage.isClosed_of_isOpen {stage : CopyStage} (h : stage.isOpen = true) :
    stage.isClosed = false := by
  cases stage <;> first | rfl | exact absurd h (by simp [isOpen])

theorem CopyStage.isClosed_of_isNamed {stage : CopyStage} (h : stage.isNamed = true) :
    stage.isClosed = true := by
  cases stage <;> first | rfl | exact absurd h (by simp [isNamed])

theorem CopyStage.isNamed_ended {result : CopyResult} (h : (ended result).isNamed = true) :
    ∃ p, result = .ok (.completed p) := by
  cases result with
  | error e => exact absurd h (by simp [isNamed])
  | ok outcome =>
    cases outcome with
    | completed p => exact ⟨p, rfl⟩
    | cancelled => exact absurd h (by simp [isNamed])

/-- The stages of a copy that has not begun. -/
theorem CopyStage.early_cases {stage : CopyStage} (hopen : stage.isOpen = false)
    (hclosed : stage.isClosed = false) :
    stage = opening ∨ (∃ source, stage = measuring source) ∨
      ∃ source total, stage = creating source total := by
  cases stage with
  | opening => exact .inl rfl
  | measuring source => exact .inr (.inl ⟨source, rfl⟩)
  | creating source total => exact .inr (.inr ⟨source, total, rfl⟩)
  | _ => simp_all [isOpen, isClosed]

namespace CopyPlan

variable {plan : CopyPlan} {tools : CopyTools} {turn : Turn} {d₀ d d' : Disk} {w : Workshop}
  {stage : CopyStage}

/-! ### Phases that are not left -/

/-- A copy that has no temporary file any more writes nothing, and gets no name that it
has not got. -/
theorem step_of_isClosed (plan : CopyPlan) (tools : CopyTools) (turn : Turn) (w : Workshop)
    (h : stage.isClosed = true) :
    (plan.step tools turn w stage).1.isClosed = true ∧
      (plan.step tools turn w stage).1.isNamed = stage.isNamed ∧
      (plan.step tools turn w stage).2.disk = w.disk := by
  cases stage with
  | stopping run failure =>
    rw [step]
    split
    · exact ⟨rfl, rfl, rfl⟩
    · cases failure <;> exact ⟨rfl, rfl, rfl⟩
  | showingStop failure => cases failure <;> exact ⟨rfl, rfl, rfl⟩
  | finishing run => exact ⟨rfl, rfl, rfl⟩
  | showingFinish run => rw [step]; cases plan.job.kind.isSome <;> exact ⟨rfl, rfl, rfl⟩
  | choosingDigest run => rw [step]; split <;> exact ⟨rfl, rfl, rfl⟩
  | hashing run kind path => exact ⟨rfl, rfl, rfl⟩
  | settling run result => rw [step]; split <;> exact ⟨rfl, rfl, rfl⟩
  | showingDigest => exact ⟨rfl, rfl, rfl⟩
  | registering => exact ⟨rfl, rfl, rfl⟩
  | ended r => exact ⟨rfl, rfl, rfl⟩
  | _ => exact absurd h (by simp [CopyStage.isClosed])

/-- A copy that has its name keeps it. -/
theorem isNamed_step (h : stage.isNamed = true) :
    (plan.step tools turn w stage).1.isNamed = true :=
  (step_of_isClosed plan tools turn w (CopyStage.isClosed_of_isNamed h)).2.1.trans h

/-- A copy that has its temporary file keeps it, or gives it its name, or removes it. -/
theorem step_of_isOpen (plan : CopyPlan) (tools : CopyTools) (turn : Turn) (w : Workshop)
    (h : stage.isOpen = true) :
    (plan.step tools turn w stage).1.isOpen = true ∨
      (w.disk.renameFile plan.temp plan.target = .ok (plan.step tools turn w stage).2.disk ∧
        ∃ run, (plan.step tools turn w stage).1 = .finishing run) ∨
      ∃ run failure, stage = .discarding run failure := by
  -- only the renaming leaves the stages in which the temporary file is open
  cases stage with
  | «renaming» run =>
    rw [step]
    split
    · exact .inl rfl
    · next disk hrename => exact .inr (.inl ⟨Turn.strike_eq_ok hrename, run, rfl⟩)
  | discarding run failure => exact .inr (.inr ⟨run, failure, rfl⟩)
  | announcing source temp total => exact .inl rfl
  | showing source temp handle => exact .inl rfl
  | checking run => rw [step]; split <;> exact .inl rfl
  | reading run =>
    rw [step]
    split
    · exact .inl rfl
    split
    · exact .inl rfl
    · next piece _ => cases piece.isEmpty <;> exact .inl rfl
  | writing run piece => rw [step]; split <;> exact .inl rfl
  | reporting run count => exact .inl rfl
  | drawing run => exact .inl rfl
  | syncing run => rw [step]; split <;> exact .inl rfl
  | _ => exact absurd h (by simp [CopyStage.isOpen])

theorem isBegun_step (h : stage.isBegun = true) :
    (plan.step tools turn w stage).1.isBegun = true := by
  cases hopen : stage.isOpen with
  | false =>
    exact CopyStage.isBegun_of_isClosed
      (step_of_isClosed plan tools turn w (CopyStage.isClosed_of_isBegun h hopen)).1
  | true =>
    rcases step_of_isOpen plan tools turn w hopen with hnext | ⟨-, run, hnext⟩ | ⟨run, failure, rfl⟩
    · exact CopyStage.isBegun_of_isOpen hnext
    · rw [hnext]; rfl
    · rfl

/-! ### Steps that lead to another phase -/

/-- A copy gets its name in the step that renames its temporary file. -/
theorem renamed_of_isNamed (hnot : stage.isNamed = false)
    (h : (plan.step tools turn w stage).1.isNamed = true) :
    w.disk.renameFile plan.temp plan.target = .ok (plan.step tools turn w stage).2.disk ∧
      ∃ run, (plan.step tools turn w stage).1 = .finishing run := by
  cases hclosed : stage.isClosed with
  | true =>
    have hsame := (step_of_isClosed plan tools turn w hclosed).2.1
    exact absurd (hsame.symm.trans h) (by simp [hnot])
  | false =>
  cases hopen : stage.isOpen with
  | true =>
    rcases step_of_isOpen plan tools turn w hopen with hnext | hrenamed | ⟨run, failure, rfl⟩
    · have hclosed' := CopyStage.isClosed_of_isNamed h
      exact absurd (hclosed'.symm.trans (CopyStage.isClosed_of_isOpen hnext)) (by simp)
    · exact hrenamed
    · exact absurd h (by simp [step, CopyStage.isNamed])
  | false =>
    -- a copy that has not begun
    rcases CopyStage.early_cases hopen hclosed with rfl | ⟨source, rfl⟩ | ⟨source, total, rfl⟩ <;>
      rw [step] at h <;> split at h <;> exact absurd h (by simp [CopyStage.isNamed])

/-- A copy that ends as complete ends at its destination. -/
theorem lands_step {p : Path} (h : (plan.step tools turn w stage).1 = .ended (.ok (.completed p))) :
    stage = .ended (.ok (.completed p)) ∨ p = plan.target := by
  -- a copy ends well only after the renaming, and then only where the job is to land
  cases hnamed : stage.isNamed with
  | false =>
    obtain ⟨-, run, hfinishing⟩ := renamed_of_isNamed hnamed (by rw [h]; rfl)
    exact absurd (h.symm.trans hfinishing) (by simp)
  | true =>
    cases stage with
    | showingFinish run =>
      rw [step] at h
      cases hkind : plan.job.kind.isSome <;> simp [hkind] at h
    | choosingDigest run => rw [step] at h; split at h <;> exact absurd h (by simp)
    | settling run result => rw [step] at h; split at h <;> exact absurd h (by simp)
    | registering =>
      right
      rw [step] at h
      exact (by simpa using h : plan.target = p).symm
    | ended r => exact .inl h
    | finishing run => exact absurd h (by simp [step])
    | hashing run kind path => exact absurd h (by simp [step])
    | showingDigest => exact absurd h (by simp [step])
    | _ => exact absurd hnamed (by simp [CopyStage.isNamed])

/-- After the step in which a copy closes, nothing is at the path of its temporary file,
whatever was there. -/
theorem gone_of_closes (hp : plan.Proper) (hdir : w.disk.at? plan.temp ≠ some .dir)
    (hopen : stage.isOpen = true) (h : (plan.step tools turn w stage).1.isOpen = false) :
    (plan.step tools turn w stage).2.disk.at? plan.temp = none := by
  rcases step_of_isOpen plan tools turn w hopen with hnext | ⟨hrename, -⟩ | ⟨run, failure, rfl⟩
  · exact absurd (hnext.symm.trans h) (by simp)
  · exact (Disk.renameFile_spec hrename (fun _ hq => hp.target_ne_temp hq)
      hp.endsInSlash_target).2.1
  · rw [step]
    cases hremove : w.disk.removeFile plan.temp with
    | ok disk =>
      obtain ⟨_, -, -, hgone⟩ := Disk.removeFile_spec hremove
      exact hgone
    | error e =>
      -- there was nothing to remove
      rw [Option.eq_none_iff_forall_ne_some]
      intro n hn
      obtain ⟨disk, hok⟩ := Disk.removeFile_of_at? hn fun heq => hdir (heq ▸ hn)
      exact absurd (hremove.symm.trans hok) (by simp)

/-! ### What a copy needs of the disk -/

/-- What a copy needs of the disk, and has brought about: while it goes on, its source and
what it has moved of it; when it has its name, its file at its destination. -/
structure Bears (plan : CopyPlan) (d₀ d : Disk) (stage : CopyStage) : Prop where
  /-- The copy is at the places that its paths lead to. -/
  placed : plan.Placed d₀ d stage
  /-- It goes on as it would on the disk as it is. -/
  goesOn : stage.isClosed = false →
    d.at? plan.job.source = d₀.at? plan.job.source ∧ stage.Content plan d d
  /-- Its file is at its destination. -/
  there : stage.isNamed = true → plan.There d₀ d

theorem bears_opening (hdirs : SameDirs d₀ d)
    (hs : d.at? plan.job.source = d₀.at? plan.job.source) : plan.Bears d₀ d .opening where
  placed := placed_opening plan hdirs
  goesOn _ := ⟨hs, ⟨rfl, rfl⟩, rfl⟩
  there h := absurd h (by simp [CopyStage.isNamed])

/-- A copy that gets its name has the bytes that its source had. -/
theorem there_of_named {d₁ : Disk} (hs : d₁.at? plan.job.source = d₀.at? plan.job.source)
    (h : stage.Content plan d₁ d) (hnamed : stage.isNamed = true) : plan.There d₀ d := by
  have hdone : plan.Done d₁ d := by
    cases stage with
    | ended r =>
      obtain ⟨p, rfl⟩ := CopyStage.isNamed_ended hnamed
      exact h.2
    | finishing run => exact h
    | showingFinish run => exact h
    | choosingDigest run => exact h
    | hashing run kind path => exact h
    | settling run result => exact h
    | showingDigest => exact h
    | registering => exact h
    | _ => exact absurd hnamed (by simp [CopyStage.isNamed])
  obtain ⟨bytes, hbytes, hthere⟩ := hdone.1
  exact ⟨bytes, (Disk.bytesAt?_congr hs).symm.trans hbytes, hthere⟩

/-- A step of the copy keeps what it needs. -/
theorem bears_step (hp : plan.Proper) (tools : CopyTools) (turn : Turn)
    (h : plan.Bears d₀ w.disk stage) :
    plan.Bears d₀ (plan.step tools turn w stage).2.disk (plan.step tools turn w stage).1 := by
  have hplaced := (placed_step hp tools turn h.placed).1
  cases hclosed : stage.isClosed with
  | true =>
    obtain ⟨hnext, hnamed, hd⟩ := step_of_isClosed plan tools turn w hclosed
    refine ⟨hplaced, fun hopen => absurd (hopen.symm.trans hnext) (by simp), fun hname => ?_⟩
    rw [hd]
    exact h.there (hnamed.symm.trans hname)
  | false =>
    -- the copy goes on as if the disk had been like this from the start
    obtain ⟨hs, hcontent⟩ := h.goesOn hclosed
    have hrebased : plan.Placed w.disk w.disk stage :=
      ⟨SameDirs.refl _, fun q hq => (Disk.resolve_congr h.placed.dirs).mp (h.placed.source_at q hq),
        fun q hq => (Disk.resolve_congr h.placed.dirs).mp (h.placed.temp_at q hq)⟩
    have hnext := (holds_step hp tools turn ⟨hrebased, hcontent⟩).content
    refine ⟨hplaced, fun hopen => ?_, there_of_named hs hnext⟩
    obtain ⟨hs', hcontent'⟩ := content_rebase hnext hopen
    exact ⟨hs'.trans hs, hcontent'⟩

/-- What others write does not matter to a copy, as long as they leave it its source and
its file. -/
theorem Bears.elsewhere (h : plan.Bears d₀ d stage) (hdirs : SameDirs d d')
    (hs : d'.at? plan.job.source = d.at? plan.job.source)
    (htemp : stage.isOpen = true → d'.at? plan.temp = d.at? plan.temp)
    (htarget : stage.isNamed = true → d'.at? plan.target = d.at? plan.target) :
    plan.Bears d₀ d' stage where
  placed := h.placed.elsewhere hdirs
  goesOn hclosed := by
    obtain ⟨hsource, hcontent⟩ := h.goesOn hclosed
    exact ⟨hs.trans hsource, content_elsewhere hcontent hclosed hs htemp⟩
  there hnamed := by
    obtain ⟨bytes, hbytes, hthere⟩ := h.there hnamed
    exact ⟨bytes, hbytes, (htarget hnamed).trans hthere⟩

end CopyPlan
end TransferBoard
