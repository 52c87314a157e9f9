import TransferBoard.Copy.Task
import TransferBoard.Proofs.Disk.Changes

/-!
# What a copy leaves on the disk at each stage

A copy writes to two places: that of its temporary file and, in one step at the end,
that of its destination.  Neither of them is the place of its source, since the three
names differ.  So at each stage the disk can be told from the disk before: the source
and the destination are as they were, and the temporary file holds what has been moved
so far, until it is given its name or removed.

## Main definitions

* `CopyPlan.Proper` — the names of a plan are those that its job gives.
* `CopyPlan.WritesAt plan d place` — the places that a copy writes to.
* `CopyStage.isOpen`, `isNamed`, `isClosed` — the copy has its temporary file; it has its
  name; it has no temporary file any more.
* `CopyStage.Content` — what is at the three paths at a stage.
* `CopyPlan.Placed plan d₀ d stage` — the copy is at the places that its paths lead to.
* `CopyPlan.Holds plan d₀ d stage` — that, and what is at the three paths.

## Main results

* `holds_opening` — it holds at the start.
* `content_rebase`, `content_elsewhere` — a copy that goes on needs its source and what it
  has moved so far, and nothing else of the disk.
-/

namespace TransferBoard

open Disk (SameDirs)

/-! ### The names of a plan -/

theorem tempSuffix_noSlash : '/' ∉ tempSuffix.toList := by decide

theorem append_tempSuffix_ne (s : String) : s ++ tempSuffix ≠ s := by
  intro h
  have hlen : (s ++ tempSuffix).toList.length = s.toList.length := by rw [h]
  rw [String.toList_append, List.length_append] at hlen
  have : tempSuffix.toList.length = 5 := by decide
  omega

/-- Places in different names are different. -/
theorem name_eq_of_place_eq {parent parent' : Place} {s s' : String}
    (h : parent ++ [s] = parent' ++ [s']) : s = s' :=
  (List.cons.inj (List.append_inj' h rfl).2).1

namespace CopyPlan

/-- The names of the plan are those that its job gives. -/
structure Proper (plan : CopyPlan) : Prop where
  /-- It has the name of the source. -/
  name : plan.job.source.fileName? = some plan.name
  /-- The copy lands under that name in the directory. -/
  target : plan.target = plan.job.destDir.child plan.name
  /-- It is made beside its destination. -/
  temp : plan.temp = tempPath plan.target

theorem proper_of_plan? {job : CopyJob} {plan : CopyPlan} (h : job.plan? = some plan) :
    plan.Proper ∧ plan.job = job ∧ job.destination? = some plan.target := by
  unfold CopyJob.plan? at h
  cases hname : job.source.fileName? with
  | none => rw [hname] at h; exact absurd h (by simp)
  | some name =>
    rw [hname] at h
    obtain rfl := Option.some.inj h
    exact ⟨⟨hname, rfl, rfl⟩, rfl, by rw [CopyJob.destination?, hname]; rfl⟩

/-- The places that a copy writes to. -/
def WritesAt (plan : CopyPlan) (d : Disk) (place : Place) : Prop :=
  d.resolve plan.temp = .ok place ∨ d.resolve plan.target = .ok place

namespace Proper

variable {plan : CopyPlan} {d : Disk} {q : Place}

theorem isName (hp : plan.Proper) : Path.IsName plan.name := (Path.fileName?_pieces hp.name).1

theorem isName_temp (hp : plan.Proper) : Path.IsName (plan.name ++ tempSuffix) :=
  hp.isName.append tempSuffix_noSlash (by decide)

theorem temp_eq_child (hp : plan.Proper) :
    plan.temp = plan.job.destDir.child (plan.name ++ tempSuffix) := by
  rw [hp.temp, hp.target, tempPath, Path.child_extend]

theorem source_place (hp : plan.Proper) (hq : d.resolve plan.job.source = .ok q) :
    ∃ parent, q = parent ++ [plan.name] :=
  Disk.resolve_fileName hp.name hq

theorem target_place (hp : plan.Proper) (hq : d.resolve plan.target = .ok q) :
    ∃ parent, q = parent ++ [plan.name] :=
  Disk.resolve_child hp.isName (hp.target ▸ hq)

theorem temp_place (hp : plan.Proper) (hq : d.resolve plan.temp = .ok q) :
    ∃ parent, q = parent ++ [plan.name ++ tempSuffix] :=
  Disk.resolve_child hp.isName_temp (hp.temp_eq_child ▸ hq)

/-- The temporary file is not at the source. -/
theorem source_ne_temp (hp : plan.Proper) (hq : d.resolve plan.temp = .ok q) :
    d.resolve plan.job.source ≠ .ok q := by
  intro hq'
  obtain ⟨parent, rfl⟩ := hp.temp_place hq
  obtain ⟨parent', heq⟩ := hp.source_place hq'
  exact append_tempSuffix_ne plan.name (name_eq_of_place_eq heq)

/-- The temporary file is not at the destination. -/
theorem target_ne_temp (hp : plan.Proper) (hq : d.resolve plan.temp = .ok q) :
    d.resolve plan.target ≠ .ok q := by
  intro hq'
  obtain ⟨parent, rfl⟩ := hp.temp_place hq
  obtain ⟨parent', heq⟩ := hp.target_place hq'
  exact append_tempSuffix_ne plan.name (name_eq_of_place_eq heq)

theorem endsInSlash_target (hp : plan.Proper) : Disk.endsInSlash plan.target = false :=
  hp.target ▸ Disk.endsInSlash_child _ hp.isName

end Proper
end CopyPlan

/-! ### What is at the three paths -/

/-- The failures that end a copy before it has an entry on the dashboard. -/
def CopyError.isEarly : CopyError → Bool
  | noFileName _ | openSource _ _ | statSource _ _ | createTemp _ _ | destinationTaken _ => true
  | readSource _ _ | writeTemp _ _ _ | sync _ _ | rename _ _ _ => false

namespace CopyStage

/-- The place of the source, while it is read. -/
def source? : CopyStage → Option Place
  | measuring source | creating source _ | announcing source _ _ | showing source _ _ => some source
  | checking run | reading run | writing run _ | reporting run _ | drawing run => some run.source
  | _ => none

/-- The place of the temporary file, while it is written. -/
def temp? : CopyStage → Option Place
  | announcing _ temp _ | showing _ temp _ => some temp
  | checking run | reading run | writing run _ | reporting run _ | drawing run => some run.temp
  | _ => none

/-- The copy is about to show the entry that it has just made on the dashboard. -/
def isShowing : CopyStage → Bool
  | showing _ _ _ => true
  | _ => false

/-- The copy has no entry on the dashboard yet, or has failed before it had one. -/
def isEarly : CopyStage → Bool
  | opening | measuring _ | creating _ _ | announcing _ _ _ => true
  | discarding _ (some e) | stopping _ (some e) | showingStop (some e) => e.isEarly
  | ended (.error e) => e.isEarly
  | _ => false

theorem isEarly_of_isShowing {stage : CopyStage} (h : stage.isShowing = true) :
    stage.isEarly = false := by
  cases stage with
  | showing source temp handle => rfl
  | _ => exact absurd h (by simp [isShowing])

/-- The copy has its temporary file. -/
def isOpen : CopyStage → Bool
  | announcing _ _ _ | showing _ _ _ | checking _ | reading _ | writing _ _ | reporting _ _
  | drawing _ | syncing _ | .renaming _ | discarding _ _ => true
  | _ => false

/-- The copy has been given its name. -/
def isNamed : CopyStage → Bool
  | finishing _ | showingFinish _ | choosingDigest _ | hashing _ _ _ | settling _ _
  | showingDigest | registering | ended (.ok (.completed _)) => true
  | _ => false

/-- The copy has no temporary file any more: it has its name or has been given up. -/
def isClosed : CopyStage → Bool
  | stopping _ _ | showingStop _ | finishing _ | showingFinish _ | choosingDigest _
  | hashing _ _ _ | settling _ _ | showingDigest | registering | ended _ => true
  | _ => false

end CopyStage

section Content

variable (plan : CopyPlan) (d₀ d : Disk)

/-- The source and the destination are as they were. -/
def CopyPlan.Kept : Prop :=
  d.at? plan.job.source = d₀.at? plan.job.source ∧ d.at? plan.target = d₀.at? plan.target

/-- Nothing is written yet: the temporary file is as it was, too. -/
def CopyPlan.Untouched : Prop := plan.Kept d₀ d ∧ d.at? plan.temp = d₀.at? plan.temp

/-- There is something at the source, and the temporary file holds the given number of
bytes of it. -/
def CopyPlan.Moved (count : Nat) : Prop :=
  (∃ node, d₀.at? plan.job.source = some node) ∧
    d.at? plan.temp = some (.file (((d₀.bytesAt? plan.job.source).getD #[]).extract 0 count))

/-- The destination holds the bytes of the source. -/
def CopyPlan.There : Prop :=
  ∃ bytes, d₀.bytesAt? plan.job.source = some bytes ∧ d.at? plan.target = some (.file bytes)

/-- The destination holds the bytes of the source, and the temporary file is gone. -/
def CopyPlan.Done : Prop := plan.There d₀ d ∧ d.at? plan.temp = none

/-- The temporary file is gone, if the copy has not failed before it made one. -/
def CopyPlan.GivenUp : Option CopyError → Prop
  | some e => if e.isEarly then d.at? plan.temp = d₀.at? plan.temp else d.at? plan.temp = none
  | none => d.at? plan.temp = none

/-- What is at the three paths of a copy at a stage, from what was there before. -/
def CopyStage.Content : CopyStage → Prop
  | opening => plan.Untouched d₀ d
  | measuring _ | creating _ _ =>
    plan.Untouched d₀ d ∧ ∃ node, d₀.at? plan.job.source = some node
  | announcing _ _ _ | showing _ _ _ => plan.Kept d₀ d ∧ plan.Moved d₀ d 0
  | checking run | reading run | drawing run => plan.Kept d₀ d ∧ plan.Moved d₀ d run.copied
  | writing run piece =>
    plan.Kept d₀ d ∧ plan.Moved d₀ d run.copied ∧
      ∃ bytes count, d₀.bytesAt? plan.job.source = some bytes ∧
        piece = bytes.extract run.copied (run.copied + count)
  | reporting run count => plan.Kept d₀ d ∧ plan.Moved d₀ d (run.copied + count)
  | .syncing _ | .renaming _ =>
    plan.Kept d₀ d ∧ ∃ bytes, d₀.bytesAt? plan.job.source = some bytes ∧
      d.at? plan.temp = some (.file bytes)
  | discarding _ failure =>
    plan.Kept d₀ d ∧ (∃ bytes, d.at? plan.temp = some (.file bytes)) ∧
      ∀ e, failure = some e → e.isEarly = false
  | stopping _ failure | showingStop failure => plan.Kept d₀ d ∧ plan.GivenUp d₀ d failure
  | finishing _ | showingFinish _ | choosingDigest _ | hashing _ _ _ | settling _ _
  | showingDigest | registering => plan.Done d₀ d
  | ended (.ok (.completed p)) => p = plan.target ∧ plan.Done d₀ d
  | ended (.ok .cancelled) => plan.Kept d₀ d ∧ plan.GivenUp d₀ d none
  | ended (.error e) => plan.Kept d₀ d ∧ plan.GivenUp d₀ d (some e)

/-- The places that a copy knows of are those that its paths lead to. -/
structure CopyPlan.Placed (stage : CopyStage) : Prop where
  /-- The directories are the same. -/
  dirs : SameDirs d₀ d
  /-- The place of the source is where its path leads. -/
  source_at : ∀ q, stage.source? = some q → d₀.resolve plan.job.source = .ok q
  /-- The place of the temporary file is where its path leads. -/
  temp_at : ∀ q, stage.temp? = some q → d₀.resolve plan.temp = .ok q

/-- The disk at a stage of a copy, from the disk before. -/
structure CopyPlan.Holds (stage : CopyStage) : Prop where
  /-- The copy is at the places that its paths lead to. -/
  placed : plan.Placed d₀ d stage
  /-- What is at the three paths. -/
  content : stage.Content plan d₀ d

end Content

namespace CopyPlan

variable {plan : CopyPlan} {d₀ d d' : Disk} {stage : CopyStage}

theorem placed_opening (plan : CopyPlan) (h : SameDirs d₀ d) : plan.Placed d₀ d .opening where
  dirs := h
  source_at _ hq := nomatch hq
  temp_at _ hq := nomatch hq

theorem holds_opening (plan : CopyPlan) (d : Disk) : plan.Holds d d .opening :=
  ⟨placed_opening plan (SameDirs.refl d), ⟨rfl, rfl⟩, rfl⟩

theorem Kept.bytesAt? (h : plan.Kept d₀ d) :
    d.bytesAt? plan.job.source = d₀.bytesAt? plan.job.source :=
  Disk.bytesAt?_congr h.1

theorem Kept.moved (h : plan.Kept d₀ d) {count : Nat} (hm : plan.Moved d₀ d count) :
    plan.Moved d d count := by
  rwa [Moved, h.bytesAt?, h.1]

/-- A copy that goes on finds the disk as if it had been like this from the start. -/
theorem content_rebase (h : stage.Content plan d₀ d) (hclosed : stage.isClosed = false) :
    d.at? plan.job.source = d₀.at? plan.job.source ∧ stage.Content plan d d := by
  have hhere : plan.Kept d d := ⟨rfl, rfl⟩
  cases stage with
  | opening => exact ⟨h.1.1, hhere, rfl⟩
  | measuring source => exact ⟨h.1.1.1, ⟨hhere, rfl⟩, h.1.1.1 ▸ h.2⟩
  | creating source total => exact ⟨h.1.1.1, ⟨hhere, rfl⟩, h.1.1.1 ▸ h.2⟩
  | announcing source temp total => exact ⟨h.1.1, hhere, h.1.moved h.2⟩
  | showing source temp handle => exact ⟨h.1.1, hhere, h.1.moved h.2⟩
  | checking run => exact ⟨h.1.1, hhere, h.1.moved h.2⟩
  | reading run => exact ⟨h.1.1, hhere, h.1.moved h.2⟩
  | writing run piece => exact ⟨h.1.1, hhere, h.1.moved h.2.1, h.1.bytesAt? ▸ h.2.2⟩
  | reporting run count => exact ⟨h.1.1, hhere, h.1.moved h.2⟩
  | drawing run => exact ⟨h.1.1, hhere, h.1.moved h.2⟩
  | syncing run => exact ⟨h.1.1, hhere, h.1.bytesAt? ▸ h.2⟩
  | «renaming» run => exact ⟨h.1.1, hhere, h.1.bytesAt? ▸ h.2⟩
  | discarding run failure => exact ⟨h.1.1, hhere, h.2⟩
  | _ => exact absurd hclosed (by simp [CopyStage.isClosed])

/-- What a copy that goes on needs is there also when others write elsewhere. -/
theorem content_elsewhere (h : stage.Content plan d d) (hclosed : stage.isClosed = false)
    (hs : d'.at? plan.job.source = d.at? plan.job.source)
    (ht : stage.isOpen = true → d'.at? plan.temp = d.at? plan.temp) :
    stage.Content plan d' d' := by
  have hhere : plan.Kept d' d' := ⟨rfl, rfl⟩
  have hbytes := Disk.bytesAt?_congr hs
  -- what has been moved depends on the source and the temporary file alone
  have hmoved : stage.isOpen = true → ∀ count, plan.Moved d d count → plan.Moved d' d' count := by
    intro hopen count hm
    rwa [Moved, hbytes, hs, ht hopen]
  cases stage with
  | opening => exact ⟨hhere, rfl⟩
  | measuring source => exact ⟨⟨hhere, rfl⟩, hs ▸ h.2⟩
  | creating source total => exact ⟨⟨hhere, rfl⟩, hs ▸ h.2⟩
  | announcing source temp total => exact ⟨hhere, hmoved rfl _ h.2⟩
  | showing source temp handle => exact ⟨hhere, hmoved rfl _ h.2⟩
  | checking run => exact ⟨hhere, hmoved rfl _ h.2⟩
  | reading run => exact ⟨hhere, hmoved rfl _ h.2⟩
  | writing run piece => exact ⟨hhere, hmoved rfl _ h.2.1, hbytes ▸ h.2.2⟩
  | reporting run count => exact ⟨hhere, hmoved rfl _ h.2⟩
  | drawing run => exact ⟨hhere, hmoved rfl _ h.2⟩
  | syncing run => exact ⟨hhere, by rw [hbytes, ht rfl]; exact h.2⟩
  | «renaming» run => exact ⟨hhere, by rw [hbytes, ht rfl]; exact h.2⟩
  | discarding run failure => exact ⟨hhere, by rw [ht rfl]; exact h.2⟩
  | _ => exact absurd hclosed (by simp [CopyStage.isClosed])

/-- Where a copy is does not depend on what others write, as they make no directories. -/
theorem Placed.elsewhere (h : plan.Placed d₀ d stage) (hdirs : SameDirs d d') :
    plan.Placed d₀ d' stage :=
  ⟨h.dirs.trans hdirs, h.source_at, h.temp_at⟩

end CopyPlan
end TransferBoard
