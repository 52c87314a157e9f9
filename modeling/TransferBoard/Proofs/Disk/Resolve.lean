import TransferBoard.Disk.Tree
import TransferBoard.Proofs.Disk.Pieces

/-!
# What a path leads to

A path is walked through directories, and whether a walk arrives depends on nothing
but which places are directories.  So a change that leaves the directories alone
leaves every path leading where it led, and what is at the path can be read off the
map from places to nodes.

## Main definitions

* `Disk.SameDirs d d'` — the same places are directories.
* `Disk.at? d p`, `Disk.bytesAt? d p` — what is at a path, and the bytes that can be
  read there.

## Main results

* `resolve_congr` — on disks with the same directories a path leads to the same place.
* `at?_eq_some_iff`, `at?_congr` — what is at a path, and that it stays.
* `resolve_fileName`, `resolve_child` — a path with a name leads to a place that ends
  in that name.
-/

namespace TransferBoard
namespace Disk

/-- The same places are directories. -/
def SameDirs (d d' : Disk) : Prop := ∀ p, d.nodeAt p = some .dir ↔ d'.nodeAt p = some .dir

theorem SameDirs.refl (d : Disk) : SameDirs d d := fun _ => Iff.rfl

theorem SameDirs.symm {d d' : Disk} (h : SameDirs d d') : SameDirs d' d := fun p => (h p).symm

theorem SameDirs.trans {d d' d'' : Disk} (h : SameDirs d d') (h' : SameDirs d' d'') :
    SameDirs d d'' := fun p => (h p).trans (h' p)

/-! ### One piece of a walk -/

theorem walk_nil_piece (d : Disk) (here : Place) (rest : List (List Char)) :
    d.walk here ([] :: rest) = d.walk here rest := by
  rw [walk, if_pos rfl]

theorem walk_of_not_dir {d : Disk} {here : Place} (h : d.nodeAt here ≠ some .dir)
    {piece : List Char} (hp : piece ≠ []) (rest : List (List Char)) :
    ∃ e, d.walk here (piece :: rest) = .error e := by
  rw [walk, if_neg hp]
  cases hn : d.nodeAt here with
  | none => exact ⟨_, rfl⟩
  | some node =>
    cases node with
    | dir => exact absurd hn h
    | file contents => exact ⟨_, rfl⟩
    | stream arrived => exact ⟨_, rfl⟩

theorem walk_of_dir {d : Disk} {here : Place} (h : d.nodeAt here = some .dir)
    {piece : List Char} (hp : piece ≠ []) (rest : List (List Char)) :
    d.walk here (piece :: rest) =
      if piece = ['.'] then d.walk here rest
      else if piece = ['.', '.'] then d.walk (Place.up here) rest
      else if nameLimit < (String.ofList piece).utf8ByteSize then .error .nameTooLong
      else d.walk (here ++ [String.ofList piece]) rest := by
  rw [walk, if_neg hp, h]

/-! ### Whole walks -/

/-- Walks arrive at the same place when the same places are directories.  The reasons
for not arriving may differ. -/
theorem walk_congr {d d' : Disk} (h : SameDirs d d') (q : Place) :
    ∀ (pieces : List (List Char)) (here : Place),
      d.walk here pieces = .ok q → d'.walk here pieces = .ok q := by
  -- each piece is looked up in a directory, which is one on both disks
  intro pieces
  induction pieces with
  | nil => intro here hq; exact hq
  | cons piece rest ih =>
    intro here hq
    by_cases hp : piece = []
    · subst hp
      rw [walk_nil_piece] at hq ⊢
      exact ih here hq
    by_cases hdir : d.nodeAt here = some .dir
    · rw [walk_of_dir hdir hp] at hq
      rw [walk_of_dir ((h here).mp hdir) hp]
      split at hq
      · next hdot => rw [if_pos hdot]; exact ih here hq
      split at hq
      · next hdot hdots => rw [if_neg hdot, if_pos hdots]; exact ih _ hq
      split at hq
      · exact absurd hq (by simp)
      · next hdot hdots hlimit =>
        rw [if_neg hdot, if_neg hdots, if_neg hlimit]
        exact ih _ hq
    · obtain ⟨e, he⟩ := walk_of_not_dir hdir hp rest
      rw [he] at hq
      exact absurd hq (by simp)

/-- A walk along two lists of pieces arrives by way of the end of the first. -/
theorem walk_append {d : Disk} {q : Place} (bs : List (List Char)) :
    ∀ (as : List (List Char)) (here : Place), d.walk here (as ++ bs) = .ok q →
      ∃ mid, d.walk here as = .ok mid ∧ d.walk mid bs = .ok q := by
  intro as
  induction as with
  | nil => intro here hq; exact ⟨here, rfl, hq⟩
  | cons piece rest ih =>
    intro here hq
    rw [List.cons_append] at hq
    by_cases hp : piece = []
    · subst hp
      rw [walk_nil_piece] at hq ⊢
      exact ih here hq
    -- in a directory the walk goes on by the kind of the piece; elsewhere it ends
    by_cases hdir : d.nodeAt here = some .dir
    · rw [walk_of_dir hdir hp] at hq ⊢
      split at hq
      · next hdot => rw [if_pos hdot]; exact ih here hq
      split at hq
      · next hdot hdots => rw [if_neg hdot, if_pos hdots]; exact ih _ hq
      split at hq
      · exact absurd hq (by simp)
      · next hdot hdots hlimit =>
        rw [if_neg hdot, if_neg hdots, if_neg hlimit]
        exact ih _ hq
    · obtain ⟨e, he⟩ := walk_of_not_dir hdir hp (rest ++ bs)
      rw [he] at hq
      exact absurd hq (by simp)

/-- A walk along idle pieces stays where it is. -/
theorem walk_idle {d : Disk} {here q : Place} :
    ∀ pieces : List (List Char), (∀ piece ∈ pieces, Path.isIdle piece = true) →
      d.walk here pieces = .ok q → q = here := by
  intro pieces
  induction pieces with
  | nil => intro _ hq; exact (Except.ok.inj hq).symm
  | cons piece rest ih =>
    intro hidle hq
    have hrest := ih fun p hp => hidle p (List.mem_cons_of_mem _ hp)
    -- an idle piece is empty, which asks for nothing, or a dot, which asks for a directory
    by_cases hp : piece = []
    · subst hp
      rw [walk_nil_piece] at hq
      exact hrest hq
    by_cases hdir : d.nodeAt here = some .dir
    · have hdot : piece = ['.'] := by
        have := hidle piece List.mem_cons_self
        simp only [Path.isIdle, Bool.or_eq_true, beq_iff_eq] at this
        exact this.resolve_left hp
      rw [walk_of_dir hdir hp, if_pos hdot] at hq
      exact hrest hq
    · obtain ⟨e, he⟩ := walk_of_not_dir hdir hp rest
      rw [he] at hq
      exact absurd hq (by simp)

/-- A walk that starts with a name goes through the place with that name. -/
theorem walk_name {d : Disk} {here q : Place} {s : String} (hs : Path.IsName s)
    {rest : List (List Char)} (hq : d.walk here (s.toList :: rest) = .ok q) :
    d.walk (here ++ [s]) rest = .ok q := by
  by_cases hdir : d.nodeAt here = some .dir
  · rw [walk_of_dir hdir hs.ne_nil, if_neg hs.ne_dot, if_neg hs.ne_dotDot,
      String.ofList_toList] at hq
    split at hq
    · exact absurd hq (by simp)
    · exact hq
  · obtain ⟨e, he⟩ := walk_of_not_dir hdir hs.ne_nil rest
    rw [he] at hq
    exact absurd hq (by simp)

/-! ### Paths -/

theorem walk_of_resolve {d : Disk} {p : Path} {q : Place} (h : d.resolve p = .ok q) :
    d.walk (if p.isAbsolute then Place.root else []) (Path.splitSlash p.text.toList) = .ok q := by
  unfold resolve at h
  split at h
  · exact absurd h (by simp)
  split at h
  · exact absurd h (by simp)
  split at h
  · exact absurd h (by simp)
  · exact h

/-- **On disks with the same directories a path leads to the same place.** -/
theorem resolve_congr {d d' : Disk} (h : SameDirs d d') {p : Path} {q : Place} :
    d.resolve p = .ok q ↔ d'.resolve p = .ok q := by
  have half : ∀ {d d' : Disk}, SameDirs d d' → d.resolve p = .ok q → d'.resolve p = .ok q := by
    intro d d' h hq
    have hwalk := walk_congr h q _ _ (walk_of_resolve hq)
    unfold resolve at hq ⊢
    split at hq
    · exact absurd hq (by simp)
    split at hq
    · exact absurd hq (by simp)
    split at hq
    · exact absurd hq (by simp)
    · next hnul hempty hlimit => rw [if_neg hnul, if_neg hempty, if_neg hlimit]; exact hwalk
  exact ⟨half h, half h.symm⟩

/-- A path leads to a place that ends in the name of the path. -/
theorem resolve_fileName {d : Disk} {p : Path} {s : String} (hs : p.fileName? = some s)
    {q : Place} (hq : d.resolve p = .ok q) : ∃ parent, q = parent ++ [s] := by
  obtain ⟨hname, before, rest, hsplit, hidle⟩ := Path.fileName?_pieces hs
  have hwalk := walk_of_resolve hq
  rw [hsplit] at hwalk
  obtain ⟨parent, _, hwalk⟩ := walk_append _ _ _ hwalk
  exact ⟨parent, walk_idle rest hidle (walk_name hname hwalk)⟩

/-- A place within another ends in its name. -/
theorem resolve_child {d : Disk} {p : Path} {s : String} (hs : Path.IsName s) {q : Place}
    (hq : d.resolve (p.child s) = .ok q) : ∃ parent, q = parent ++ [s] := by
  obtain ⟨before, hsplit⟩ := Path.splitSlash_child p
  have hwalk := walk_of_resolve hq
  rw [hsplit s hs.noSlash] at hwalk
  obtain ⟨parent, _, hwalk⟩ := walk_append _ _ _ hwalk
  exact ⟨parent, (Except.ok.inj (walk_name hs hwalk)).symm⟩

theorem endsInSlash_child (p : Path) {s : String} (hs : Path.IsName s) :
    endsInSlash (p.child s) = false := by
  unfold endsInSlash
  rw [Path.text_child, String.toList_append, List.getLast?_append, beq_eq_false_iff_ne]
  cases hlast : s.toList.getLast? with
  | none => exact absurd (List.getLast?_eq_none_iff.mp hlast) hs.ne_nil
  | some c =>
    intro h
    rw [Option.some_or] at h
    exact hs.noSlash (List.mem_of_getLast? (hlast.trans h))

/-! ### What is at a path -/

/-- What is at a path. -/
def at? (d : Disk) (p : Path) : Option Node :=
  match d.locate p with
  | .ok (_, node) => some node
  | .error _ => none

theorem locate_eq_ok_iff {d : Disk} {p : Path} {q : Place} {n : Node} :
    d.locate p = .ok (q, n) ↔
      d.resolve p = .ok q ∧ d.nodeAt q = some n ∧ (n = .dir ∨ endsInSlash p = false) := by
  unfold locate
  cases d.resolve p with
  | error e => simp [bind, Except.bind]
  | ok r =>
    simp only [bind, Except.bind, Except.ok.injEq]
    cases hr : d.nodeAt r with
    | none => simp; intro h; subst h; simp [hr]
    | some node =>
      cases node <;> cases endsInSlash p <;> simp <;> grind

theorem at?_eq_some_iff {d : Disk} {p : Path} {n : Node} :
    d.at? p = some n ↔ ∃ q, d.resolve p = .ok q ∧ d.nodeAt q = some n ∧
      (n = .dir ∨ endsInSlash p = false) := by
  unfold at?
  cases hl : d.locate p with
  | error e =>
    simp only [reduceCtorEq, false_iff, not_exists]
    intro q hq
    rw [← locate_eq_ok_iff, hl] at hq
    exact absurd hq (by simp)
  | ok found =>
    obtain ⟨q, node⟩ := found
    have hq := locate_eq_ok_iff.mp hl
    constructor
    · rintro ⟨⟩
      exact ⟨q, hq⟩
    · rintro ⟨r, hr, hn, -⟩
      obtain rfl : q = r := Except.ok.inj (hq.1.symm.trans hr)
      exact congrArg some (Option.some.inj (hq.2.1.symm.trans hn))

/-- What is at a path stays when the directories do, and the place that it leads to. -/
theorem at?_congr {d d' : Disk} (h : SameDirs d d') {p : Path}
    (hp : ∀ q, d.resolve p = .ok q → d'.nodeAt q = d.nodeAt q) : d'.at? p = d.at? p := by
  apply Option.ext
  intro n
  rw [at?_eq_some_iff, at?_eq_some_iff]
  constructor
  · rintro ⟨q, hq, hn, hslash⟩
    have hq' := (resolve_congr h).mpr hq
    exact ⟨q, hq', hp q hq' ▸ hn, hslash⟩
  · rintro ⟨q, hq, hn, hslash⟩
    exact ⟨q, (resolve_congr h).mp hq, (hp q hq).trans hn, hslash⟩

/-- A path leads to a directory when it did so before, if the directories are the same. -/
theorem at?_eq_dir_congr {d d' : Disk} (h : SameDirs d d') {p : Path} :
    d.at? p = some .dir ↔ d'.at? p = some .dir := by
  rw [at?_eq_some_iff, at?_eq_some_iff]
  refine exists_congr fun q => ?_
  rw [resolve_congr h, h q]

theorem at?_of_locate {d : Disk} {p : Path} {q : Place} {n : Node} (h : d.locate p = .ok (q, n)) :
    d.at? p = some n :=
  at?_eq_some_iff.mpr ⟨q, locate_eq_ok_iff.mp h⟩

end Disk

/-! ### Bytes -/

/-- The bytes that can be read of a node: those of a file, and those that have arrived on
a stream. -/
def Node.bytes? : Node → Option Bytes
  | .dir => none
  | .file contents => some contents
  | .stream arrived => arrived

namespace Disk

/-- The bytes that can be read at a path. -/
def bytesAt? (d : Disk) (p : Path) : Option Bytes := (d.at? p).bind Node.bytes?

theorem bytesAt?_congr {d d' : Disk} {p : Path} (h : d'.at? p = d.at? p) :
    d'.bytesAt? p = d.bytesAt? p := by
  rw [bytesAt?, bytesAt?, h]

/-- What is read at a place are bytes of the node that is there. -/
theorem readAt_eq_ok {d : Disk} {p : Place} {n : Node} {offset count : Nat} {piece : Bytes}
    (hn : d.nodeAt p = some n) (hwait : d.isWaiting p = false)
    (h : d.readAt p offset count = .ok piece) :
    ∃ bytes, n.bytes? = some bytes ∧ piece = bytes.extract offset (offset + count) := by
  rw [readAt, hn] at h
  cases n with
  | dir => exact absurd h (by simp)
  | file contents => exact ⟨contents, rfl, (Except.ok.inj h).symm⟩
  | stream arrived =>
    cases arrived with
    | none => simp [isWaiting, hn] at hwait
    | some bytes => exact ⟨bytes, rfl, (Except.ok.inj h).symm⟩

end Disk
end TransferBoard
