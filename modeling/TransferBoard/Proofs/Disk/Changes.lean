import TransferBoard.Proofs.Disk.Resolve

/-!
# What the file operations change

Each operation that a copy makes on the disk leaves the directories alone, changes no
place but those that its paths lead to, and puts what it is to put there.

## Main definitions

* `Disk.AgreeOff off d d'` — the two disks differ at places of `off` at most, and not
  in their directories.

## Main results

* `AgreeOff.at?` — what is at a path that leads elsewhere stays.
* `createFile_spec`, `append_spec`, `removeFile_spec`, `renameFile_spec` — the places
  that an operation changes, with what it leaves at its paths.
* `removeFile_of_at?` — what is not a directory can be removed.
-/

namespace TransferBoard
namespace Disk

variable {d d' d'' : Disk} {off off' : Place → Prop} {p q : Place} {path : Path} {n : Node}

/-- The disks differ at the given places at most, and have the same directories. -/
structure AgreeOff (off : Place → Prop) (d d' : Disk) : Prop where
  /-- The directories are the same. -/
  dirs : SameDirs d d'
  /-- Elsewhere nothing differs. -/
  nodes : ∀ q, ¬ off q → d'.nodeAt q = d.nodeAt q

namespace AgreeOff

theorem refl (off : Place → Prop) (d : Disk) : AgreeOff off d d := ⟨SameDirs.refl d, fun _ _ => rfl⟩

theorem trans (h : AgreeOff off d d') (h' : AgreeOff off d' d'') : AgreeOff off d d'' :=
  ⟨h.dirs.trans h'.dirs, fun q hq => (h'.nodes q hq).trans (h.nodes q hq)⟩

theorem mono (h : AgreeOff off d d') (hoff : ∀ q, off q → off' q) : AgreeOff off' d d' :=
  ⟨h.dirs, fun q hq => h.nodes q fun hq' => hq (hoff q hq')⟩

/-- What is at a path that leads elsewhere stays. -/
theorem at? (h : AgreeOff off d d') (hp : ∀ q, d.resolve path = .ok q → ¬ off q) :
    d'.at? path = d.at? path :=
  at?_congr h.dirs fun q hq => h.nodes q (hp q hq)

/-- Directories are not among the places that differ. -/
theorem off_dirs (h : AgreeOff off d d') :
    AgreeOff (fun q => off q ∧ d.nodeAt q ≠ some .dir) d d' where
  dirs := h.dirs
  nodes q hq := by
    by_cases hdir : d.nodeAt q = some .dir
    · rw [hdir, (h.dirs q).mp hdir]
    · exact h.nodes q fun hoff => hq ⟨hoff, hdir⟩

end AgreeOff

/-! ### Changing one place -/

theorem free_of_not_dir (h : d.nodeAt p ≠ some .dir) : Place.Free p := by
  constructor <;> rintro rfl <;> exact h rfl

theorem agreeOff_put (h : d.nodeAt p ≠ some .dir) (hn : n ≠ .dir) :
    AgreeOff (· = p) d (d.put p n) := by
  have hp := free_of_not_dir h
  constructor
  · intro q
    rw [nodeAt_put d hp]
    split
    · next hq => subst hq; simp [h, hn]
    · exact Iff.rfl
  · intro q hq
    rw [nodeAt_put d hp, if_neg hq]

theorem agreeOff_erase (h : d.nodeAt p ≠ some .dir) : AgreeOff (· = p) d (d.erase p) := by
  have hp := free_of_not_dir h
  constructor
  · intro q
    rw [nodeAt_erase d hp]
    split
    · next hq => subst hq; simp [h]
    · exact Iff.rfl
  · intro q hq
    rw [nodeAt_erase d hp, if_neg hq]

theorem at?_put (h : d.nodeAt p ≠ some .dir) (hn : n ≠ .dir) (hp : d.resolve path = .ok p)
    (hslash : endsInSlash path = false) : (d.put p n).at? path = some n := by
  rw [at?_eq_some_iff]
  refine ⟨p, (resolve_congr (agreeOff_put h hn).dirs).mp hp, ?_, .inr hslash⟩
  rw [nodeAt_put d (free_of_not_dir h), if_pos rfl]

theorem at?_erase (h : d.nodeAt p ≠ some .dir) (hp : d.resolve path = .ok p) :
    (d.erase p).at? path = none := by
  rw [Option.eq_none_iff_forall_ne_some]
  intro n hn
  obtain ⟨q, hq, hnode, -⟩ := at?_eq_some_iff.mp hn
  rw [← resolve_congr (agreeOff_erase h).dirs, hp] at hq
  obtain rfl := Except.ok.inj hq
  rw [nodeAt_erase d (free_of_not_dir h), if_pos rfl] at hnode
  exact absurd hnode (by simp)

/-! ### The operations -/

theorem createFile_eq_ok (h : d.createFile path = .ok (p, d')) :
    d.resolve path = .ok p ∧ endsInSlash path = false ∧ d.nodeAt p ≠ some .dir ∧
      d' = d.put p (.file #[]) := by
  unfold createFile at h
  cases hr : d.resolve path with
  | error e => rw [hr] at h; exact absurd h (by simp [bind, Except.bind])
  | ok q =>
    rw [hr] at h
    simp only [bind, Except.bind] at h
    split at h
    · exact absurd h (by simp)
    next hslash =>
    split at h
    · exact absurd h (by simp)
    next hdir =>
    obtain ⟨rfl, rfl⟩ := Prod.mk.inj (Except.ok.inj h)
    exact ⟨rfl, by simpa using hslash, hdir, rfl⟩

/-- Making a file changes the place of the file, which is empty then. -/
theorem createFile_spec (h : d.createFile path = .ok (p, d')) :
    d.resolve path = .ok p ∧ AgreeOff (· = p) d d' ∧ d'.at? path = some (.file #[]) := by
  obtain ⟨hp, hslash, hdir, rfl⟩ := createFile_eq_ok h
  exact ⟨hp, agreeOff_put hdir (by simp), at?_put hdir (by simp) hp hslash⟩

/-- Writing changes one place. -/
theorem agreeOff_append (d : Disk) (p : Place) (piece : Bytes) :
    AgreeOff (· = p) d (d.append p piece) := by
  unfold append
  split
  · next hfile => exact agreeOff_put (by simp [hfile]) (by simp)
  · exact AgreeOff.refl _ d

/-- Writing puts the piece after what the file holds. -/
theorem append_spec {contents : Bytes} (hp : d.resolve path = .ok p)
    (h : d.at? path = some (.file contents)) (piece : Bytes) :
    (d.append p piece).at? path = some (.file (contents ++ piece)) := by
  obtain ⟨q, hq, hnode, hslash⟩ := at?_eq_some_iff.mp h
  obtain rfl := Except.ok.inj (hp.symm.trans hq)
  rw [append, hnode]
  exact at?_put (by simp [hnode]) (by simp) hp (hslash.resolve_left (by simp))

theorem removeFile_eq_ok (h : d.removeFile path = .ok d') :
    ∃ p, d.resolve path = .ok p ∧ d.nodeAt p ≠ some .dir ∧ d' = d.erase p := by
  unfold removeFile at h
  cases hl : d.locate path with
  | error e => rw [hl] at h; exact absurd h (by simp [bind, Except.bind])
  | ok found =>
    obtain ⟨p, node⟩ := found
    obtain ⟨hp, hnode, -⟩ := locate_eq_ok_iff.mp hl
    rw [hl] at h
    simp only [bind, Except.bind] at h
    split at h
    · exact absurd h (by simp)
    · next hdir heq =>
      obtain ⟨rfl, rfl⟩ := Prod.mk.inj heq
      exact ⟨_, hp, by simpa [hnode] using hdir, (Except.ok.inj h).symm⟩

/-- Removing a file changes the place of the file, where nothing is then. -/
theorem removeFile_spec (h : d.removeFile path = .ok d') :
    ∃ p, d.resolve path = .ok p ∧ AgreeOff (· = p) d d' ∧ d'.at? path = none := by
  obtain ⟨p, hp, hdir, rfl⟩ := removeFile_eq_ok h
  exact ⟨p, hp, agreeOff_erase hdir, at?_erase hdir hp⟩

/-- What is not a directory can be removed. -/
theorem removeFile_of_at? (h : d.at? path = some n) (hn : n ≠ .dir) :
    ∃ d', d.removeFile path = .ok d' := by
  obtain ⟨p, hp⟩ := at?_eq_some_iff.mp h
  have hl := locate_eq_ok_iff.mpr hp
  cases n with
  | dir => exact absurd rfl hn
  | file contents => exact ⟨d.erase p, by rw [removeFile, hl]; rfl⟩
  | stream arrived => exact ⟨d.erase p, by rw [removeFile, hl]; rfl⟩

theorem renameFile_eq_ok {source target : Path} (h : d.renameFile source target = .ok d') :
    ∃ p q node, d.locate source = .ok (p, node) ∧ node ≠ .dir ∧ d.resolve target = .ok q ∧
      d.nodeAt q ≠ some .dir ∧ d' = if q = p then d else (d.erase p).put q node := by
  unfold renameFile at h
  cases hl : d.locate source with
  | error e => rw [hl] at h; exact absurd h (by simp [bind, Except.bind])
  | ok found =>
    obtain ⟨p, node⟩ := found
    cases hr : d.resolve target with
    | error e =>
      rw [hl, hr] at h
      cases node <;> exact absurd h (by simp [bind, Except.bind])
    | ok q =>
      rw [hl, hr] at h
      simp only [bind, Except.bind] at h
      split at h
      · exact absurd h (by simp)
      -- the source is no directory; what is left is the goal
      next hdir heq =>
      obtain ⟨rfl, rfl⟩ := Prod.mk.inj heq
      split at h
      · exact absurd h (by simp)
      next hgoal =>
      exact ⟨_, q, _, rfl, by simpa using hdir, rfl, hgoal, (Except.ok.inj h).symm⟩

/-- Renaming changes the places of the two paths: nothing is at the first one then, and
at the second one what was at the first. -/
theorem renameFile_spec {source target : Path} (h : d.renameFile source target = .ok d')
    (hne : ∀ p, d.resolve source = .ok p → d.resolve target ≠ .ok p)
    (hslash : endsInSlash target = false) :
    AgreeOff (fun r => d.resolve source = .ok r ∨ d.resolve target = .ok r) d d' ∧
      d'.at? source = none ∧ d'.at? target = d.at? source := by
  obtain ⟨p, q, node, hl, hnode, hq, hgoal, rfl⟩ := renameFile_eq_ok h
  obtain ⟨hp, hfound, hend⟩ := locate_eq_ok_iff.mp hl
  have hpq : q ≠ p := fun heq => hne p hp (heq ▸ hq)
  have hsource : d.nodeAt p ≠ some .dir := by simpa [hfound] using hnode
  -- the file leaves its place first, which does not make a directory of the other place
  have herase := agreeOff_erase hsource
  have hgoal' : (d.erase p).nodeAt q ≠ some .dir := (not_congr (herase.dirs q)).mp hgoal
  have hput := agreeOff_put hgoal' hnode
  have hq' := (resolve_congr herase.dirs).mp hq
  rw [if_neg hpq]
  refine ⟨?_, ?_, ?_⟩
  · refine (herase.mono ?_).trans (hput.mono ?_)
    · rintro r rfl; exact .inl hp
    · rintro r rfl; exact .inr hq
  · have hstays : ((d.erase p).put q node).at? source = (d.erase p).at? source := by
      apply hput.at?
      rintro r hr rfl
      rw [← resolve_congr herase.dirs, hp] at hr
      exact hpq (Except.ok.inj hr).symm
    rw [hstays, at?_erase hsource hp]
  · rw [at?_put hgoal' hnode hq' hslash]
    exact (at?_eq_some_iff.mpr ⟨p, hp, hfound, hend⟩).symm

end Disk
end TransferBoard
