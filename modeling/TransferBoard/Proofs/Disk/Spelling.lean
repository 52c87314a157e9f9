import Mathlib.Logic.Relation
import TransferBoard.Proofs.Disk.Pieces

/-!
# Spellings of one place

Paths are the same place when they take the same steps.  What that means for their texts is said
here without steps: what leads nowhere can be left out of a text, one slash or dot after the
other, and the paths for one place are those that can be made the same in that way.  A dot at the
start is never left out, and two dots are never touched.

## Main definitions

* `Path.pieceSteps pieces` — the steps that the pieces of a text stand for.
* `Path.Simplifies p q` — something that leads nowhere is left out.
* `Path.SpelledAlike p q` — the two can be made the same.

## Main results

* `components_child`, `same_child_iff` — the steps to places within others, and when these are
  the same.
* `same_iff_spelledAlike` — **paths are the same place exactly when they are spelled alike.**
-/

namespace TransferBoard
namespace Path

/-! ### The steps of the pieces -/

/-- The steps that the pieces of a text stand for. -/
def pieceSteps : List (List Char) → List Component
  | [] => []
  | first :: rest => firstStep first :: (rest.filter fun x => !isIdle x).map step

theorem components_eq {p : Path} (hp : p.text ≠ "") :
    p.components = pieceSteps (splitSlash p.text.toList) := by
  rw [components, if_neg hp]
  cases splitSlash p.text.toList with
  | nil => rfl
  | cons first rest => rfl

theorem pieceSteps_append {before : List (List Char)} (h : before ≠ [])
    (after : List (List Char)) :
    pieceSteps (before ++ after) =
      pieceSteps before ++ (after.filter fun x => !isIdle x).map step := by
  cases before with
  | nil => exact absurd rfl h
  | cons first rest =>
    rw [List.cons_append, pieceSteps, pieceSteps, List.filter_append, List.map_append,
      List.cons_append]

theorem step_injective : Function.Injective step := by
  intro x y h
  unfold step at h
  split at h
  · next hx =>
    split at h
    · next hy => exact hx.trans hy.symm
    · exact nomatch h
  · split at h
    · exact nomatch h
    · exact String.ofList_injective (Component.name.inj h)

/-- The first piece is told by the step that it stands for. -/
theorem firstStep_injective : Function.Injective firstStep := by
  intro x y h
  -- a step of its own kind is neither the root nor the place itself
  have hstep : ∀ z, step z ≠ .root ∧ step z ≠ .here := by
    intro z
    unfold step
    split <;> exact ⟨nofun, nofun⟩
  unfold firstStep at h
  split at h
  · next hx =>
    split at h
    · next hy => exact hx.trans hy.symm
    · split at h
      · exact nomatch h
      · exact absurd h.symm (hstep y).1
  · split at h
    · next hx =>
      split at h
      · exact nomatch h
      · split at h
        · next hy => exact hx.trans hy.symm
        · exact absurd h.symm (hstep y).2
    · split at h
      · exact absurd h (hstep x).1
      · split at h
        · exact absurd h (hstep x).2
        · exact step_injective h

/-! ### Places within another -/

section

variable {name name' : String}

theorem pieceSteps_of_name (h : IsName name) : pieceSteps [name.toList] = [.name name] := by
  rw [pieceSteps, firstStep, if_neg h.ne_nil, if_neg h.ne_dot, step, if_neg h.ne_dotDot,
    String.ofList_toList]
  rfl

theorem filter_of_name (h : IsName name) :
    ([name.toList].filter fun x => !isIdle x).map step = [.name name] := by
  have hidle : isIdle name.toList = false := by simp [isIdle, h.ne_nil, h.ne_dot]
  simp [hidle, step, h.ne_dotDot]

/-- **The steps to a place within another** are those to the other, and one down. -/
theorem components_child (p : Path) (hname : IsName name) :
    (p.child name).components = p.components ++ [.name name] := by
  have htext : (p.child name).text ≠ "" := by
    intro h
    rw [text_child, String.append_eq_empty_iff] at h
    exact hname.ne_nil (by rw [h.2]; rfl)
  have hpiece := splitSlash_eq_singleton hname.noSlash
  rw [components_eq htext, text_child, lead]
  by_cases hp : p.text = ""
  · rw [if_pos hp, String.empty_append, hpiece, pieceSteps_of_name hname, components, if_pos hp,
      List.nil_append]
  rw [if_neg hp, components_eq hp]
  by_cases hslash : p.text.toList.getLast? = some '/'
  · -- the empty piece after the slash gives way to the name
    obtain ⟨init, hinit⟩ := List.getLast?_eq_some_iff.mp hslash
    rw [if_pos hslash, String.toList_append, hinit, List.append_assoc, List.singleton_append,
      splitSlash_append_slash, splitSlash_append_slash, hpiece,
      pieceSteps_append (splitSlash_ne_nil init), pieceSteps_append (splitSlash_ne_nil init),
      filter_of_name hname]
    simp [splitSlash, isIdle]
  · have hchild : (p.text ++ "/" ++ name).toList = p.text.toList ++ '/' :: name.toList := by
      simp [String.toList_append]
    rw [if_neg hslash, hchild, splitSlash_append_slash, hpiece,
      pieceSteps_append (splitSlash_ne_nil _), filter_of_name hname]

/-- **Places with names within others** are the same when the names and the others are. -/
theorem same_child_iff {p q : Path} (hname : IsName name) (hname' : IsName name') :
    (p.child name).Same (q.child name') ↔ p.Same q ∧ name = name' := by
  rw [Same, components_child p hname, components_child q hname', Same]
  constructor
  · intro h
    obtain ⟨hinit, hlast⟩ := List.append_inj' h rfl
    exact ⟨hinit, Component.name.inj (List.cons.inj hlast).1⟩
  · rintro ⟨hinit, rfl⟩
    rw [hinit]

end

/-! ### Leaving out what leads nowhere -/

/-- Something that leads nowhere is left out: one of two slashes, a dot between slashes, a dot or
a slash at the end.  The slash that leads to the root stays, and so does a dot at the start. -/
inductive Simplifies : Path → Path → Prop
  /-- One of two slashes. -/
  | slash (before after : String) :
    Simplifies ⟨before ++ "//" ++ after⟩ ⟨before ++ "/" ++ after⟩
  /-- A dot between slashes, with one of them. -/
  | dot (before after : String) :
    Simplifies ⟨before ++ "/./" ++ after⟩ ⟨before ++ "/" ++ after⟩
  /-- A dot after the last slash. -/
  | lastDot (before : String) : Simplifies ⟨before ++ "/."⟩ ⟨before ++ "/"⟩
  /-- The slash at the end of a text that is more than that. -/
  | lastSlash (before : String) (h : before ≠ "") : Simplifies ⟨before ++ "/"⟩ ⟨before⟩

/-- Two paths can be made the same by leaving out what leads nowhere. -/
def SpelledAlike (p q : Path) : Prop := Relation.Join (Relation.ReflTransGen Simplifies) p q

/-- What is left out makes no difference to the steps. -/
theorem same_of_simplifies {p q : Path} (h : Simplifies p q) : p.Same q := by
  -- the first piece is the same each time, and so are the others that are not idle
  have hpieces : ∀ {x y : Path} (before : String) (xs ys : List (List Char)),
      x.text ≠ "" → y.text ≠ "" → splitSlash x.text.toList = splitSlash before.toList ++ xs →
      splitSlash y.text.toList = splitSlash before.toList ++ ys →
      (xs.filter fun z => !isIdle z) = (ys.filter fun z => !isIdle z) → x.Same y := by
    intro x y before xs ys hx hy hxs hys hsteps
    rw [Same, components_eq hx, components_eq hy, hxs, hys,
      pieceSteps_append (splitSlash_ne_nil _), pieceSteps_append (splitSlash_ne_nil _), hsteps]
  have hdot : splitSlash ['.'] = [['.']] := rfl
  cases h with
  | slash before after =>
    refine hpieces before ([] :: splitSlash after.toList) (splitSlash after.toList) (by simp)
      (by simp) ?_ ?_ rfl
    · simp [String.toList_append, splitSlash_append_slash, splitSlash]
    · simp [String.toList_append, splitSlash_append_slash]
  | dot before after =>
    refine hpieces before (['.'] :: splitSlash after.toList) (splitSlash after.toList) (by simp)
      (by simp) ?_ ?_ rfl
    · have htext : (before ++ "/./" ++ after).toList =
          before.toList ++ '/' :: (['.'] ++ '/' :: after.toList) := by
        simp [String.toList_append]
      rw [htext, splitSlash_append_slash, splitSlash_append_slash, hdot, List.singleton_append]
    · simp [String.toList_append, splitSlash_append_slash]
  | lastDot before =>
    refine hpieces before [['.']] [[]] (by simp) (by simp) ?_ ?_ rfl
    · simp [String.toList_append, splitSlash_append_slash, hdot]
    · simp [String.toList_append, splitSlash_append_slash, splitSlash]
  | lastSlash before hbefore =>
    refine hpieces before [[]] [] (by simp) hbefore ?_ ?_ rfl
    · simp [String.toList_append, splitSlash_append_slash, splitSlash]
    · simp

/-! ### Leaving out all of it -/

/-- The text of pieces that follow others. -/
def followed (pieces : List (List Char)) : List Char := pieces.flatMap ('/' :: ·)

theorem followed_cons (piece : List Char) (rest : List (List Char)) :
    followed (piece :: rest) = '/' :: piece ++ followed rest := List.flatMap_cons

theorem joinSlash_cons (first : List Char) (rest : List (List Char)) :
    joinSlash (first :: rest) = first ++ followed rest := by
  induction rest generalizing first with
  | nil => exact (List.append_nil first).symm
  | cons piece rest ih =>
    rw [joinSlash, ih piece, followed_cons, List.cons_append]
    exact List.cons_ne_nil piece rest

/-- The text of a first piece and others that lead somewhere.  Without any of them, the empty one
is the slash that leads to the root. -/
def simplest (first : List Char) (kept : List (List Char)) : List Char :=
  if first = [] ∧ kept = [] then ['/'] else first ++ followed kept

/-- An idle piece in the middle can be left out. -/
theorem simplifies_middle {piece : List Char} (hidle : isIdle piece = true)
    (before after : List Char) :
    Simplifies ⟨String.ofList (before ++ '/' :: piece ++ '/' :: after)⟩
      ⟨String.ofList (before ++ '/' :: after)⟩ := by
  have hmiddle : ∀ slashes : String, String.ofList (before ++ slashes.toList ++ after) =
      String.ofList before ++ slashes ++ String.ofList after := by
    intro slashes
    rw [String.ofList_append, String.ofList_append, String.ofList_toList]
  simp only [isIdle, Bool.or_eq_true, beq_iff_eq] at hidle
  rcases hidle with rfl | rfl
  · have h := Simplifies.slash (String.ofList before) (String.ofList after)
    rw [← hmiddle, ← hmiddle] at h
    simpa using h
  · have h := Simplifies.dot (String.ofList before) (String.ofList after)
    rw [← hmiddle, ← hmiddle] at h
    simpa using h

/-- An idle piece at the end can be left out, unless it is all that follows the slash that leads to
the root. -/
theorem simplifies_last {piece : List Char} (hidle : isIdle piece = true) (before : List Char) :
    Relation.ReflTransGen Simplifies ⟨String.ofList (before ++ '/' :: piece)⟩
      ⟨String.ofList (simplest before [])⟩ := by
  have hend : ∀ slashes : String, String.ofList (before ++ slashes.toList) =
      String.ofList before ++ slashes := by
    intro slashes
    rw [String.ofList_append, String.ofList_toList]
  -- the dot goes first, and then the slash unless it is the root
  have hdot : Relation.ReflTransGen Simplifies ⟨String.ofList (before ++ '/' :: piece)⟩
      ⟨String.ofList (before ++ "/".toList)⟩ := by
    simp only [isIdle, Bool.or_eq_true, beq_iff_eq] at hidle
    rcases hidle with rfl | rfl
    · exact .refl
    · have h := Simplifies.lastDot (String.ofList before)
      rw [← hend, ← hend] at h
      exact .single (by simpa using h)
  by_cases hroot : before = []
  · subst hroot
    exact hdot
  · have h := Simplifies.lastSlash (String.ofList before) (by simpa using hroot)
    rw [← hend] at h
    refine hdot.tail ?_
    rw [simplest, if_neg fun h => hroot h.1]
    simpa [followed] using h

/-- All idle pieces can be left out.  By induction on the pieces, for every text before them. -/
theorem simplifies_to_simplest (rest : List (List Char)) :
    ∀ before : List Char, before ≠ [] ∨ rest ≠ [] →
      Relation.ReflTransGen Simplifies ⟨String.ofList (before ++ followed rest)⟩
        ⟨String.ofList (simplest before (rest.filter fun x => !isIdle x))⟩ := by
  induction rest with
  | nil =>
    intro before hsome
    have hbefore : before ≠ [] := hsome.resolve_right (· rfl)
    rw [List.filter_nil, simplest, if_neg fun h => hbefore h.1]
  | cons piece rest ih =>
    intro before _
    rw [followed_cons]
    cases hidle : isIdle piece with
    | false =>
      -- the piece stays, and is part of the text before the others
      have hstays := ih (before ++ '/' :: piece) (.inl (by simp))
      rw [simplest, if_neg (by simp)] at hstays
      rw [List.filter_cons, hidle, Bool.not_false, if_pos rfl, simplest, if_neg (by simp),
        followed_cons]
      simpa using hstays
    | true =>
      rw [List.filter_cons, hidle, Bool.not_true, if_neg Bool.false_ne_true]
      cases rest with
      | nil => simpa [followed] using simplifies_last hidle before
      | cons next rest =>
        refine .head ?_ (ih before (.inr (List.cons_ne_nil _ _)))
        simpa [followed_cons] using simplifies_middle hidle before (next ++ followed rest)

/-- What is left of a path when all that leads nowhere is left out of it. -/
theorem simplifies_path {p : Path} {first : List Char} {rest : List (List Char)}
    (hp : p.text ≠ "") (h : splitSlash p.text.toList = first :: rest) :
    Relation.ReflTransGen Simplifies p
      ⟨String.ofList (simplest first (rest.filter fun x => !isIdle x))⟩ := by
  have htext : p.text.toList = first ++ followed rest := by
    rw [← joinSlash_cons, ← h, joinSlash_splitSlash]
  have hsome : first ≠ [] ∨ rest ≠ [] := by
    refine Decidable.not_and_iff_or_not.mp ?_
    rintro ⟨rfl, rfl⟩
    exact hp (String.toList_injective htext)
  have hall := simplifies_to_simplest rest first hsome
  rwa [← htext, String.ofList_toList] at hall

/-- Only the empty path takes no step. -/
theorem components_eq_nil_iff {p : Path} : p.components = [] ↔ p.text = "" := by
  refine ⟨fun h => Decidable.byContradiction fun hp => ?_, fun h => by rw [components, if_pos h]⟩
  rw [components_eq hp] at h
  cases hs : splitSlash p.text.toList with
  | nil => exact splitSlash_ne_nil _ hs
  | cons first rest => rw [hs] at h; exact nomatch h

/-- **Paths are the same place exactly when they are spelled alike.** -/
theorem same_iff_spelledAlike {p q : Path} : p.Same q ↔ p.SpelledAlike q := by
  constructor
  · intro h
    have hempty : p.text = "" ↔ q.text = "" := by
      rw [← components_eq_nil_iff, ← components_eq_nil_iff, h]
    by_cases hp : p.text = ""
    · have heq : p = q := congrArg Path.mk (hp.trans (hempty.mp hp).symm)
      exact heq ▸ ⟨p, .refl, .refl⟩
    · have hq : q.text ≠ "" := fun hq => hp (hempty.mpr hq)
      cases hps : splitSlash p.text.toList with
      | nil => exact absurd hps (splitSlash_ne_nil _)
      | cons first rest =>
      cases hqs : splitSlash q.text.toList with
      | nil => exact absurd hqs (splitSlash_ne_nil _)
      | cons first' rest' =>
      -- what is left is told by the steps, and these are the same
      rw [Same, components_eq hp, components_eq hq, hps, hqs, pieceSteps, pieceSteps] at h
      obtain ⟨hfirst, hrest⟩ := List.cons.inj h
      refine ⟨_, simplifies_path hp hps, ?_⟩
      have hkept := (List.map_inj_right fun _ _ heq => step_injective heq).mp hrest
      rw [firstStep_injective hfirst, hkept]
      exact simplifies_path hq hqs
  · rintro ⟨r, hpr, hqr⟩
    have hsame : ∀ {x y : Path}, Relation.ReflTransGen Simplifies x y → x.Same y := by
      intro x y hx
      induction hx with
      | refl => exact rfl
      | tail _ hstep ih => exact ih.trans (same_of_simplifies hstep)
    exact (hsame hpr).trans (hsame hqr).symm

example : (⟨"a//b"⟩ : Path).Same ⟨"a/b"⟩ ∧ (⟨"a/./b"⟩ : Path).Same ⟨"a/b"⟩ ∧
    (⟨"a/b/"⟩ : Path).Same ⟨"a/b"⟩ ∧ ¬ (⟨"./a"⟩ : Path).Same ⟨"a"⟩ ∧
    ¬ (⟨"a/../b"⟩ : Path).Same ⟨"b"⟩ := by decide +kernel

end Path
end TransferBoard
