import TransferBoard.Proofs.Disk.Changes
import TransferBoard.Verify.Report

/-!
# Directories on the way to a file

A directory is made with all that lead to it.  Nothing else comes of that: what is there stays, and
what is new are directories.  So a report that is saved is the only file that changes.

## Main definitions

* `Disk.Grows d d'` — directories are added, and nothing else happens.

## Main results

* `grows_makeDirs` — making a directory with all that lead to it adds directories.
* `writeFile_spec` — a whole file that is written is there.
* `save_spec` — a report that is saved is in its file, and nothing else has changed but for
  directories that lead to it.
-/

namespace TransferBoard
namespace Disk

variable {d d' d'' : Disk} {path : Path}

/-- Directories are added, and nothing else happens. -/
def Grows (d d' : Disk) : Prop :=
  ∀ q, d'.nodeAt q = d.nodeAt q ∨ d.nodeAt q = none ∧ d'.nodeAt q = some .dir

theorem Grows.refl (d : Disk) : d.Grows d := fun _ => .inl rfl

theorem Grows.trans (h : d.Grows d') (h' : d'.Grows d'') : d.Grows d'' := by
  intro q
  rcases h q with hsame | ⟨hnone, hdir⟩
  · rcases h' q with hsame' | ⟨hnone', hdir'⟩
    · exact .inl (hsame'.trans hsame)
    · exact .inr ⟨hsame.symm.trans hnone', hdir'⟩
  · rcases h' q with hsame' | ⟨hnone', -⟩
    · exact .inr ⟨hnone, hsame'.trans hdir⟩
    · exact absurd (hdir.symm.trans hnone') (by simp)

/-- What is there stays. -/
theorem Grows.stays (h : d.Grows d') {q : Place} (hq : d.nodeAt q ≠ none) :
    d'.nodeAt q = d.nodeAt q :=
  (h q).resolve_right fun hnew => hq hnew.1

theorem grows_makeDir (h : d.makeDir path = .ok d') : d.Grows d' := by
  unfold makeDir at h
  cases hr : d.resolve path with
  | error e => rw [hr] at h; exact absurd h (by simp [bind, Except.bind])
  | ok place =>
    rw [hr] at h
    simp only [bind, Except.bind] at h
    split at h
    · exact absurd h (by simp)
    · next hnone =>
      obtain rfl := Except.ok.inj h
      intro q
      rw [nodeAt_put d (free_of_not_dir (by rw [hnone]; simp))]
      split
      · next hq => subst hq; exact .inr ⟨hnone, rfl⟩
      · exact .inl rfl

theorem grows_makeDirIfMissing (h : d.makeDirIfMissing path = .ok d') : d.Grows d' := by
  unfold makeDirIfMissing at h
  split at h
  · next hmade => obtain rfl := Except.ok.inj h; exact grows_makeDir hmade
  · split at h
    · obtain rfl := Except.ok.inj h; exact .refl d
    · exact absurd h (by simp)

theorem grows_makeDirsWithin (steps : Nat) (d : Disk) (path : Path) :
    d.Grows (makeDirsWithin steps d path).2 := by
  induction steps generalizing path with
  | zero => exact .refl d
  | succ steps ih =>
    rw [makeDirsWithin]
    split
    · exact .refl d
    split
    · next hmade => exact grows_makeDir hmade
    · split
      · exact .refl d
      · next parent _ =>
        -- the parent is missing and is made first, and then the directory is tried once more
        have hparent := ih parent
        split
        · next hfailed => rw [hfailed] at hparent; exact hparent
        · next d' hmade =>
          rw [hmade] at hparent
          split
          · next hlast => exact hparent.trans (grows_makeDirIfMissing hlast)
          · exact hparent
    · exact .refl d

/-- **Making a directory with all that lead to it adds directories.** -/
theorem grows_makeDirs (d : Disk) (path : Path) : d.Grows (d.makeDirs path).2 :=
  grows_makeDirsWithin _ d path

theorem grows_makeParent (d : Disk) (path : Path) : d.Grows (d.makeParent path).2 := by
  unfold makeParent
  split
  · exact .refl d
  split
  · exact .refl d
  · exact grows_makeDirs d _

/-- A whole file that is written is there, and nothing else has changed. -/
theorem writeFile_spec {contents : Bytes} (h : d.writeFile path contents = .ok d') :
    ∃ p, d.resolve path = .ok p ∧ AgreeOff (· = p) d d' ∧
      d'.at? path = some (.file contents) := by
  unfold writeFile at h
  cases hc : d.createFile path with
  | error e => rw [hc] at h; exact absurd h (by simp [bind, Except.bind])
  | ok created =>
    obtain ⟨p, d₁⟩ := created
    rw [hc] at h
    obtain rfl : d₁.put p (.file contents) = d' := by simpa [bind, Except.bind] using h
    obtain ⟨hp, hslash, hdir, rfl⟩ := createFile_eq_ok hc
    obtain ⟨-, hcreated, -⟩ := createFile_spec hc
    have hdir' : (d.put p (.file #[])).nodeAt p ≠ some .dir :=
      fun hnode => hdir ((hcreated.dirs p).mpr hnode)
    refine ⟨p, hp, hcreated.trans (agreeOff_put hdir' (by simp)), ?_⟩
    exact at?_put hdir' (by simp) ((resolve_congr hcreated.dirs).mp hp) hslash

end Disk

/-- **A report that is saved is in its file.**  Nothing else has changed but for directories that
lead to it; and so it is, without the file, when the report cannot be saved. -/
theorem WorkflowOutcome.save_spec (w : WorkflowOutcome) (d : Disk) (path : Path) :
    (∀ e, (w.save d path).1 = .error e → d.Grows (w.save d path).2) ∧
      ((w.save d path).1 = .ok () →
        (w.save d path).2.bytesAt? path = some w.report.toUTF8.data ∧
        ∀ q, d.nodeAt q ≠ none → (w.save d path).2.resolve path ≠ .ok q →
          (w.save d path).2.nodeAt q = d.nodeAt q) := by
  have hparent := d.grows_makeParent path
  unfold save
  split
  · next e d' hfailed =>
    rw [hfailed] at hparent
    exact ⟨fun _ _ => hparent, nofun⟩
  · -- the directories are there; the file is written or not
    next d' hmade =>
    rw [hmade] at hparent
    split
    · exact ⟨fun _ _ => hparent, nofun⟩
    · next d'' hwritten =>
      refine ⟨nofun, fun _ => ?_⟩
      obtain ⟨p, hp, hagree, hthere⟩ := Disk.writeFile_spec hwritten
      refine ⟨by rw [Disk.bytesAt?, hthere]; rfl, fun q hq hne => ?_⟩
      have hplace := (Disk.resolve_congr hagree.dirs).mp hp
      rw [hagree.nodes q, hparent.stays hq]
      rintro rfl
      exact hne hplace

end TransferBoard
