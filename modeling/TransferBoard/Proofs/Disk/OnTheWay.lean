import Mathlib.Data.List.Infix
import TransferBoard.Proofs.Disk.Changes

/-!
# On the way to a place

A path is walked piece by piece, and each piece is looked up at the place to which the ones
before it lead.  These places, and the one to which all of the path leads, are on the way of
the path.  What is at other places makes no difference to where the path leads, nor to why
it leads nowhere.

## Main definitions

* `Disk.OnTheWay d path place` — some first pieces of the path lead to the place.

## Main results

* `onTheWay_congr` — disks with the same directories have the same places on the way.
* `resolve_agree`, `locate_agree` — on disks that agree on the way, a path leads to the same
  place, with the same node there, or fails for the same reason.
* `createFile_error_agree` — a file can be made on both, or on neither for the same reason.
* `walk_append_of_ok` — a walk goes on where its first part ends.
-/

namespace TransferBoard
namespace Disk

/-- Some first pieces of the path lead to the place: all of them, or those that stand for a
directory above. -/
def OnTheWay (d : Disk) (path : Path) (place : Place) : Prop :=
  ∃ before after, Path.splitSlash path.text.toList = before ++ after ∧
    d.walk (if path.isAbsolute then Place.root else []) before = .ok place

variable {d d' : Disk} {path : Path} {place : Place}

theorem onTheWay_of_resolve (h : d.resolve path = .ok place) : d.OnTheWay path place :=
  ⟨_, [], (List.append_nil _).symm, walk_of_resolve h⟩

/-- The test goes through the first pieces of the path. -/
instance (d : Disk) (path : Path) (place : Place) : Decidable (d.OnTheWay path place) :=
  decidable_of_iff (∃ before ∈ (Path.splitSlash path.text.toList).inits,
      d.walk (if path.isAbsolute then Place.root else []) before = .ok place) <| by
    simp only [List.mem_inits, List.IsPrefix, OnTheWay]
    constructor
    · rintro ⟨before, ⟨after, hsplit⟩, hwalk⟩
      exact ⟨before, after, hsplit.symm, hwalk⟩
    · rintro ⟨before, after, hsplit, hwalk⟩
      exact ⟨before, ⟨after, hsplit.symm⟩, hwalk⟩

theorem onTheWay_congr (h : SameDirs d d') : d.OnTheWay path place ↔ d'.OnTheWay path place := by
  constructor
  · rintro ⟨before, after, hsplit, hwalk⟩
    exact ⟨before, after, hsplit, walk_congr h _ _ _ hwalk⟩
  · rintro ⟨before, after, hsplit, hwalk⟩
    exact ⟨before, after, hsplit, walk_congr h.symm _ _ _ hwalk⟩

/-- Walks go alike on disks that agree wherever the walk comes by. -/
theorem walk_agree (pieces : List (List Char)) (here : Place)
    (h : ∀ before after place, pieces = before ++ after → d.walk here before = .ok place →
      d'.nodeAt place = d.nodeAt place) :
    d'.walk here pieces = d.walk here pieces := by
  induction pieces generalizing here with
  | nil => rfl
  | cons piece rest ih =>
    -- the places by which the rest of the walk comes are places of the walk
    have hnext {there : Place}
        (hpiece : ∀ before, d.walk here (piece :: before) = d.walk there before) :
        d'.walk there rest = d.walk there rest := by
      refine ih there fun before after place hsplit hwalk => ?_
      exact h (piece :: before) after place (by rw [hsplit, List.cons_append])
        ((hpiece before).trans hwalk)
    by_cases hp : piece = []
    · subst hp
      rw [walk_nil_piece, walk_nil_piece]
      exact hnext (walk_nil_piece d here)
    have hhere : d'.nodeAt here = d.nodeAt here := h [] (piece :: rest) here rfl rfl
    by_cases hdir : d.nodeAt here = some .dir
    · have hstep := walk_of_dir hdir hp
      rw [walk_of_dir (hhere.trans hdir) hp, hstep]
      by_cases hdot : piece = ['.']
      · simp only [if_pos hdot] at hstep ⊢
        exact hnext hstep
      by_cases hdots : piece = ['.', '.']
      · simp only [if_neg hdot, if_pos hdots] at hstep ⊢
        exact hnext hstep
      simp only [if_neg hdot, if_neg hdots] at hstep ⊢
      by_cases hlimit : nameLimit < (String.ofList piece).utf8ByteSize
      · rw [if_pos hlimit, if_pos hlimit]
      · simp only [if_neg hlimit] at hstep ⊢
        exact hnext hstep
    · rw [walk, walk, if_neg hp, if_neg hp, hhere]
      cases hn : d.nodeAt here with
      | none => rfl
      | some node =>
        cases node with
        | dir => exact absurd hn hdir
        | file contents => rfl
        | stream arrived => rfl

/-- **On disks that agree on its way a path leads to the same place**, or fails for the same
reason. -/
theorem resolve_agree (h : ∀ place, d.OnTheWay path place → d'.nodeAt place = d.nodeAt place) :
    d'.resolve path = d.resolve path := by
  unfold resolve
  split
  · rfl
  split
  · rfl
  split
  · rfl
  · refine walk_agree _ _ fun before after place hsplit hwalk => ?_
    exact h place ⟨before, after, hsplit, hwalk⟩

theorem locate_agree (h : ∀ place, d.OnTheWay path place → d'.nodeAt place = d.nodeAt place) :
    d'.locate path = d.locate path := by
  unfold locate
  rw [resolve_agree h]
  cases hr : d.resolve path with
  | error e => rfl
  | ok place =>
    simp only [bind, Except.bind]
    rw [h place (onTheWay_of_resolve hr)]

/-- Why a file cannot be made depends on the way to it only. -/
theorem createFile_error_agree
    (h : ∀ place, d.OnTheWay path place → d'.nodeAt place = d.nodeAt place) (e : OsError) :
    d'.createFile path = .error e ↔ d.createFile path = .error e := by
  unfold createFile
  rw [resolve_agree h]
  cases hr : d.resolve path with
  | error e' => simp [bind, Except.bind]
  | ok place =>
    simp only [bind, Except.bind]
    rw [h place (onTheWay_of_resolve hr)]
    split
    · rfl
    · cases d.nodeAt place with
      | none => simp
      | some node => cases node <;> simp

/-- A walk goes on where its first part ends. -/
theorem walk_append_of_ok {mid : Place} (bs : List (List Char)) :
    ∀ (as : List (List Char)) (here : Place), d.walk here as = .ok mid →
      d.walk here (as ++ bs) = d.walk mid bs := by
  intro as
  induction as with
  | nil =>
    intro here h
    rw [← Except.ok.inj h, List.nil_append]
  | cons piece rest ih =>
    intro here h
    rw [List.cons_append]
    by_cases hp : piece = []
    · subst hp
      rw [walk_nil_piece] at h ⊢
      exact ih here h
    -- in a directory the walk goes on by the kind of the piece; elsewhere it ends
    by_cases hdir : d.nodeAt here = some .dir
    · rw [walk_of_dir hdir hp] at h ⊢
      split at h
      · next hdot => rw [if_pos hdot]; exact ih here h
      split at h
      · next hdot hdots => rw [if_neg hdot, if_pos hdots]; exact ih _ h
      split at h
      · exact absurd h (by simp)
      · next hdot hdots hlimit =>
        rw [if_neg hdot, if_neg hdots, if_neg hlimit]
        exact ih _ h
    · obtain ⟨e, he⟩ := walk_of_not_dir hdir hp rest
      rw [he] at h
      exact absurd h (by simp)

/-- A path with a text put after its name leads nowhere when the path itself does not. -/
theorem resolve_of_extend {dir : Path} {s ext : String} (hs : Path.IsName s)
    (hext : Path.IsName (s ++ ext)) (h : d.resolve ((dir.child s).extend ext) = .ok place) :
    ∃ q, d.resolve (dir.child s) = .ok q := by
  obtain ⟨before, hsplit⟩ := Path.splitSlash_child dir
  have hne : (dir.child s).text.toList ≠ [] := by
    rw [Path.text_child, String.toList_append]
    exact fun h => hs.ne_nil (List.append_eq_nil_iff.mp h).2
  have habs : ((dir.child s).extend ext).isAbsolute = (dir.child s).isAbsolute := by
    rw [Path.isAbsolute, Path.isAbsolute, Path.extend, String.toList_append, List.head?_append]
    cases hhead : (dir.child s).text.toList.head? with
    | none => exact absurd (List.head?_eq_none_iff.mp hhead) hne
    | some c => rfl
  -- the walk to the longer name goes through the directory of both
  have hwalk := walk_of_resolve h
  rw [habs, Path.child_extend, hsplit _ hext.noSlash] at hwalk
  obtain ⟨mid, hmid, hlast⟩ := walk_append _ _ _ hwalk
  have hgoal : d.walk mid [s.toList] = .ok (mid ++ [s]) := by
    by_cases hdir : d.nodeAt mid = some .dir
    · rw [walk_of_dir hdir hext.ne_nil, if_neg hext.ne_dot, if_neg hext.ne_dotDot,
        String.ofList_toList, String.utf8ByteSize_append] at hlast
      rw [walk_of_dir hdir hs.ne_nil, if_neg hs.ne_dot, if_neg hs.ne_dotDot,
        String.ofList_toList]
      split at hlast
      · exact absurd hlast (by simp)
      · rw [if_neg (by omega)]
        rfl
    · obtain ⟨e, he⟩ := walk_of_not_dir hdir hext.ne_nil []
      rw [he] at hlast
      exact absurd hlast (by simp)
  have hgoal' := (walk_append_of_ok [s.toList] before _ hmid).trans hgoal
  rw [← hsplit _ hs.noSlash] at hgoal'
  unfold resolve at h ⊢
  rw [Path.extend, String.utf8ByteSize_append, String.toList_append] at h
  split at h
  · exact absurd h (by simp)
  next hnul =>
  split at h
  · exact absurd h (by simp)
  split at h
  · exact absurd h (by simp)
  next hlimit =>
  rw [if_neg, if_neg, if_neg (by omega)]
  · exact ⟨_, hgoal'⟩
  · exact fun hempty => hne (by rw [hempty]; rfl)
  · simp only [List.contains_eq_mem, decide_eq_true_eq, List.mem_append, not_or] at hnul ⊢
    exact hnul.1

end Disk
end TransferBoard
