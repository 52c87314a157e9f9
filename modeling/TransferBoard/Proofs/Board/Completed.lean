import TransferBoard.Proofs.Board.Flags

/-!
# Completed files

A file is noted as completed once: a file with a path for the same place is there already.  So
among the files noted no two have paths for one place.

## Main definitions

* `CompletedFiles.Distinct` — no two files have paths for one place.
* `BoardSection.leavesNoted p` — a section that notes no file for the place of a path, nor
  forgets one.

## Main results

* `count_eq_one` — among distinct files one at most has a path.
* `completed_after_cases` — a section notes one file at most.
* `distinct_run` — the files of a dashboard are distinct.
* `noted_run`, `notRequested_run` — a file that is noted stays as it is noted.
* `contains_after` — a section that notes no file for a place leaves none noted for it.
-/

namespace TransferBoard
namespace CompletedFiles

/-- No two files have paths for one place. -/
def Distinct (c : CompletedFiles) : Prop := c.files.Pairwise fun f g => ¬ f.path.Same g.path

variable {c : CompletedFiles} {p : Path}

theorem contains_iff : c.contains p = true ↔ ∃ f ∈ c.files, f.path.Same p := by
  rw [contains, List.any_eq_true]
  exact exists_congr fun f => and_congr_right fun _ => decide_eq_true_iff

theorem register_of_contains {f : CompletedFile} (h : c.contains f.path = true) :
    (c.register f).2 = c := by
  rw [register, if_pos h]

theorem register_of_not_contains {f : CompletedFile} (h : c.contains f.path = false) :
    (c.register f).2 = ⟨c.files ++ [f]⟩ := by
  rw [register, h]
  rfl

theorem distinct_register (h : c.Distinct) (f : CompletedFile) : (c.register f).2.Distinct := by
  cases hc : c.contains f.path with
  | true => rwa [register_of_contains hc]
  | false =>
    rw [register_of_not_contains hc, Distinct, List.pairwise_append]
    refine ⟨h, List.pairwise_singleton _ _, ?_⟩
    intro g hg f' hf' hsame
    rw [List.mem_singleton.mp hf'] at hsame
    exact nomatch hc.symm.trans (contains_iff.mpr ⟨g, hg, hsame⟩)

/-- A file that is there is there still when another one is to be added. -/
theorem mem_register {f : CompletedFile} (h : f ∈ c.files) (g : CompletedFile) :
    f ∈ (c.register g).2.files := by
  cases hc : c.contains g.path with
  | true => rwa [register_of_contains hc]
  | false =>
    rw [register_of_not_contains hc]
    exact List.mem_append_left _ h

/-- A file that was added is there. -/
theorem mem_register_self {f : CompletedFile} (h : (c.register f).1 = true) :
    f ∈ (c.register f).2.files := by
  cases hc : c.contains f.path with
  | true =>
    rw [register, if_pos hc] at h
    exact absurd h Bool.false_ne_true
  | false =>
    rw [register_of_not_contains hc]
    exact List.mem_append_right _ (List.mem_singleton_self f)

theorem mem_of_mem_register {f g : CompletedFile} (h : f ∈ (c.register g).2.files) :
    f ∈ c.files ∨ f = g := by
  cases hc : c.contains g.path with
  | true =>
    rw [register_of_contains hc] at h
    exact .inl h
  | false =>
    rw [register_of_not_contains hc] at h
    exact (List.mem_append.mp h).imp_right List.mem_singleton.mp

/-- Among distinct files each is known by its path. -/
theorem Distinct.index_eq (h : c.Distinct) {i j : Nat} {f g : CompletedFile}
    (hf : c.files[i]? = some f) (hg : c.files[j]? = some g) (hpath : f.path = g.path) : i = j := by
  have hsame : f.path.Same g.path := congrArg Path.components hpath
  obtain ⟨hi, rfl⟩ := List.getElem?_eq_some_iff.mp hf
  obtain ⟨hj, rfl⟩ := List.getElem?_eq_some_iff.mp hg
  have hpairs := List.pairwise_iff_getElem.mp h
  rcases Nat.lt_trichotomy i j with hlt | heq | hgt
  · exact absurd hsame (hpairs i j hi hj hlt)
  · exact heq
  · exact absurd hsame.symm (hpairs j i hj hi hgt)

/-- **One file has the path, if there is any.** -/
theorem count_eq_one (h : c.Distinct) (hp : c.contains p = true) :
    (c.files.filter fun f => f.path.same p).length = 1 := by
  have hsame : ∀ f ∈ c.files.filter fun f => f.path.same p, f.path.Same p := fun f hf =>
    of_decide_eq_true (List.mem_filter.mp hf).2
  have hpairs : (c.files.filter fun f => f.path.same p).Pairwise fun f g =>
      ¬ f.path.Same g.path := List.Pairwise.filter _ h
  obtain ⟨f, hf, hfp⟩ := contains_iff.mp hp
  have hmem : f ∈ c.files.filter fun f => f.path.same p :=
    List.mem_filter.mpr ⟨hf, decide_eq_true hfp⟩
  generalize c.files.filter (fun f => f.path.same p) = found at hsame hpairs hmem
  match found with
  | [] => exact absurd hmem List.not_mem_nil
  | [_] => rfl
  | a :: b :: rest =>
    -- both have the path, so they have paths for one place
    have hab := (List.pairwise_cons.mp hpairs).1 b List.mem_cons_self
    have ha := hsame a List.mem_cons_self
    have hb := hsame b (List.mem_cons_of_mem _ List.mem_cons_self)
    exact absurd (ha.trans hb.symm) hab

end CompletedFiles

/-- The section notes no file for the place of a path, nor forgets one. -/
def BoardSection.leavesNoted (p : Path) : BoardSection → Bool
  | .register _ path _ => !path.same p
  | .teardown => false
  | _ => true

namespace Dashboard

variable {d : Dashboard}

/-- A section notes no file, unless that is what it is for, or it is the teardown. -/
theorem completed_after {sec : BoardSection} (htear : sec ≠ .teardown)
    (hnote : ∀ name path expected, sec ≠ .register name path expected) :
    (d.after sec).state.completed = d.state.completed := by
  cases hedit : sec.edit? with
  | some change =>
    rw [after_of_edit? hedit]
    exact (d.state.modify_rest _ _).2
  | none =>
    cases sec with
    | track r now => exact (d.state_track_rest r now).2
    | register name path expected => exact absurd rfl (hnote name path expected)
    | applyKey key => rfl
    | redraw forced now =>
      rw [after, redraw]
      split
      · rfl
      split <;> rfl
    | teardown => exact absurd rfl htear
    | _ => exact absurd hedit (by simp [BoardSection.edit?])

/-- **What a section does to the completed files**: nothing, or it notes one, or it is the
teardown and forgets them. -/
theorem completed_after_cases (d : Dashboard) (sec : BoardSection) :
    (d.after sec).state.completed = d.state.completed ∨
    (∃ name path expected, sec = .register name path expected ∧
      (d.after sec).state.completed =
        (d.state.completed.register (.expecting name path expected)).2) ∨
    (sec = .teardown ∧ (d.after sec).state.completed = {}) := by
  by_cases htear : sec = .teardown
  · subst htear
    rw [after, teardown]
    split
    · exact .inr (.inr ⟨rfl, rfl⟩)
    · exact .inl rfl
  by_cases hnote : ∃ name path expected, sec = .register name path expected
  · obtain ⟨name, path, expected, rfl⟩ := hnote
    exact .inr (.inl ⟨name, path, expected, rfl, rfl⟩)
  · exact .inl (completed_after htear fun name path expected heq =>
      hnote ⟨name, path, expected, heq⟩)

/-- A file that is noted after a section was noted before, or the section was for it. -/
theorem mem_completed_after {sec : BoardSection} {f : CompletedFile}
    (h : f ∈ (d.after sec).state.completed.files) :
    f ∈ d.state.completed.files ∨
      ∃ name path expected, sec = .register name path expected ∧
        f = .expecting name path expected := by
  rcases completed_after_cases d sec with
    hsame | ⟨name, path, expected, rfl, hnotes⟩ | ⟨-, hforgets⟩
  · exact .inl (hsame ▸ h)
  · rw [hnotes] at h
    exact (CompletedFiles.mem_of_mem_register h).imp_right fun heq =>
      ⟨name, path, expected, rfl, heq⟩
  · rw [hforgets] at h
    exact absurd h List.not_mem_nil

theorem distinct_after (h : d.state.completed.Distinct) (sec : BoardSection) :
    (d.after sec).state.completed.Distinct := by
  rcases completed_after_cases d sec with hsame | ⟨name, path, expected, -, hnotes⟩ | ⟨-, hforgets⟩
  · exact hsame ▸ h
  · exact hnotes ▸ CompletedFiles.distinct_register h _
  · exact hforgets ▸ .nil

/-- **The completed files of a dashboard are distinct.** -/
theorem distinct_run (surface : Surface) (interval : Nat) (sections : List BoardSection) :
    ((fresh surface interval).run sections).state.completed.Distinct := by
  suffices ∀ d : Dashboard, d.state.completed.Distinct →
      (d.run sections).state.completed.Distinct from this _ .nil
  induction sections with
  | nil => exact fun d h => h
  | cons sec rest ih => exact fun d h => ih _ (distinct_after h sec)

/-- A section other than the teardown forgets no file. -/
theorem noted_after {f : CompletedFile} (h : f ∈ d.state.completed.files) {sec : BoardSection}
    (htear : sec ≠ .teardown) : f ∈ (d.after sec).state.completed.files := by
  rcases completed_after_cases d sec with
    hsame | ⟨name, path, expected, -, hnotes⟩ | ⟨hteardown, -⟩
  · exact hsame ▸ h
  · exact hnotes ▸ CompletedFiles.mem_register h _
  · exact absurd hteardown htear

/-- A file that is noted stays noted until the teardown. -/
theorem noted_run {f : CompletedFile} (h : f ∈ d.state.completed.files)
    {sections : List BoardSection} (htear : ∀ sec ∈ sections, sec ≠ .teardown) :
    f ∈ (d.run sections).state.completed.files := by
  induction sections generalizing d with
  | nil => exact h
  | cons sec rest ih =>
    exact ih (noted_after h (htear sec List.mem_cons_self))
      fun sec hsec => htear sec (List.mem_cons_of_mem _ hsec)

/-- A place for which no file is noted stays so when no file is noted for it. -/
theorem contains_after {p : Path} (h : d.state.completed.contains p = false) {sec : BoardSection}
    (hsec : sec.leavesNoted p = true) : (d.after sec).state.completed.contains p = false := by
  rw [Bool.eq_false_iff] at h ⊢
  intro hcontains
  obtain ⟨f, hf, hsame⟩ := CompletedFiles.contains_iff.mp hcontains
  rcases mem_completed_after hf with hf | ⟨name, path, expected, rfl, rfl⟩
  · exact h (CompletedFiles.contains_iff.mpr ⟨f, hf, hsame⟩)
  · have hother : path.same p = false := by simpa [BoardSection.leavesNoted] using hsec
    exact nomatch hother.symm.trans (decide_eq_true hsame)

/-- Nobody has asked for the verification of a file that is noted. -/
theorem notRequested_run (surface : Surface) (interval : Nat) (sections : List BoardSection) :
    ∀ f ∈ ((fresh surface interval).run sections).state.completed.files,
      f.status = .notRequested := by
  suffices ∀ d : Dashboard, (∀ f ∈ d.state.completed.files, f.status = .notRequested) →
      ∀ f ∈ (d.run sections).state.completed.files, f.status = .notRequested from
    this _ fun f hf => absurd hf List.not_mem_nil
  induction sections with
  | nil => exact fun d h => h
  | cons sec rest ih =>
    refine fun d h => ih _ fun f hf => ?_
    rcases mem_completed_after hf with hf | ⟨name, path, expected, -, rfl⟩
    · exact h f hf
    · rfl

end Dashboard
end TransferBoard
