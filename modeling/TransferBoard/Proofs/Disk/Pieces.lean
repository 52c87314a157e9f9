import TransferBoard.Disk.Path

/-!
# The pieces of a path

A path is taken piece by piece, so what a path leads to is decided by the pieces of
its text.  Here are the pieces of the paths that a copy makes up, and the piece that
a path takes its name from.

## Main definitions

* `Path.IsName s` — `s` is the text of a step down: no slash in it, and neither
  empty nor one of the two dotted steps.
* `Path.lead p` — what stands before the name of a place within `p`.

## Main results

* `splitSlash_append_slash`, `splitSlash_eq_singleton` — splitting at a slash, and
  without one.
* `child_extend` — a text put after a place within another is put after its name.
* `splitSlash_child` — the pieces of a place within another.
* `fileName?_pieces` — the piece that the name of a path is, with idle pieces after
  it.
-/

namespace TransferBoard
namespace Path

/-! ### Splitting at slashes -/

theorem splitSlash_append_slash (as bs : List Char) :
    splitSlash (as ++ '/' :: bs) = splitSlash as ++ splitSlash bs := by
  induction as with
  | nil => simp [splitSlash]
  | cons c cs ih =>
    rw [List.cons_append, splitSlash, splitSlash]
    by_cases hc : c = '/'
    · rw [if_pos hc, if_pos hc, ih, List.cons_append]
    · rw [if_neg hc, if_neg hc, ih]
      cases hs : splitSlash cs with
      | nil => exact absurd hs (splitSlash_ne_nil cs)
      | cons p ps => rfl

theorem splitSlash_eq_singleton {cs : List Char} (h : '/' ∉ cs) : splitSlash cs = [cs] := by
  induction cs with
  | nil => rfl
  | cons c cs ih =>
    rw [List.mem_cons, not_or] at h
    rw [splitSlash, if_neg (Ne.symm h.1), ih h.2]

/-- No piece has a slash in it. -/
theorem notMem_of_mem_splitSlash {cs piece : List Char} (h : piece ∈ splitSlash cs) :
    '/' ∉ piece := by
  induction cs generalizing piece with
  | nil =>
    obtain rfl : piece = [] := by simpa [splitSlash] using h
    exact List.not_mem_nil
  | cons c cs ih =>
    rw [splitSlash] at h
    by_cases hc : c = '/'
    · rw [if_pos hc, List.mem_cons] at h
      rcases h with rfl | h
      · exact List.not_mem_nil
      · exact ih h
    · rw [if_neg hc] at h
      cases hs : splitSlash cs with
      | nil => exact absurd hs (splitSlash_ne_nil cs)
      | cons p ps =>
        rw [hs, List.mem_cons] at h
        rcases h with rfl | h
        · rw [List.mem_cons, not_or]
          exact ⟨Ne.symm hc, ih (hs ▸ List.mem_cons_self)⟩
        · exact ih (hs ▸ List.mem_cons_of_mem p h)

/-! ### Names -/

/-- The text of a step down. -/
structure IsName (s : String) : Prop where
  /-- There is no slash in it. -/
  noSlash : '/' ∉ s.toList
  /-- It is not empty. -/
  ne_nil : s.toList ≠ []
  /-- It is not the step that leads nowhere. -/
  ne_dot : s.toList ≠ ['.']
  /-- It is not the step up. -/
  ne_dotDot : s.toList ≠ ['.', '.']

/-- A name with a longer text put after it is a name. -/
theorem IsName.append {s ext : String} (hs : IsName s) (hext : '/' ∉ ext.toList)
    (hlen : 2 ≤ ext.toList.length) : IsName (s ++ ext) := by
  have hlong : 3 ≤ (s ++ ext).toList.length := by
    have := List.length_pos_iff.mpr hs.ne_nil
    rw [String.toList_append, List.length_append]
    omega
  refine ⟨?_, ?_, ?_, ?_⟩
  · rw [String.toList_append, List.mem_append, not_or]
    exact ⟨hs.noSlash, hext⟩
  · intro h; rw [h] at hlong; exact absurd hlong (by decide)
  · intro h; rw [h] at hlong; exact absurd hlong (by decide)
  · intro h; rw [h] at hlong; exact absurd hlong (by decide)

/-! ### Places within another -/

/-- What stands before the name of a place within `p`. -/
def lead (p : Path) : String :=
  if p.text = "" then "" else if p.text.toList.getLast? = some '/' then p.text else p.text ++ "/"

theorem text_child (p : Path) (name : String) : (p.child name).text = p.lead ++ name := by
  unfold child lead
  split
  · rw [String.empty_append]
  · split
    · rfl
    · rfl

/-- A text put after a place within another is put after its name. -/
theorem child_extend (p : Path) (name ext : String) :
    (p.child name).extend ext = p.child (name ++ ext) := by
  have h : ((p.child name).extend ext).text = (p.child (name ++ ext)).text := by
    rw [extend, text_child, text_child, String.append_assoc]
  cases hl : (p.child name).extend ext
  cases hr : p.child (name ++ ext)
  rw [hl, hr] at h
  exact congrArg Path.mk h

theorem lead_cases (p : Path) : p.lead.toList = [] ∨ ∃ init, p.lead.toList = init ++ ['/'] := by
  unfold lead
  split
  · exact .inl rfl
  · split
    · next hlast => exact .inr (List.getLast?_eq_some_iff.mp hlast)
    · exact .inr ⟨p.text.toList, by simp⟩

/-- The pieces of a place within another end in its name, and those before do not
depend on the name. -/
theorem splitSlash_child (p : Path) :
    ∃ before, ∀ name : String, '/' ∉ name.toList →
      splitSlash (p.child name).text.toList = before ++ [name.toList] := by
  rcases lead_cases p with hlead | ⟨init, hlead⟩
  · refine ⟨[], ?_⟩
    intro name hname
    rw [text_child, String.toList_append, hlead, List.nil_append, splitSlash_eq_singleton hname]
    rfl
  · refine ⟨splitSlash init, ?_⟩
    intro name hname
    rw [text_child, String.toList_append, hlead, List.append_assoc, List.singleton_append,
      splitSlash_append_slash, splitSlash_eq_singleton hname]

/-! ### The name of a path -/

/-- The last of the elements that pass a test, with what comes after it. -/
theorem getLast?_filter_split {α : Type _} {test : α → Bool} {x : α} :
    ∀ l : List α, (l.filter test).getLast? = some x →
      ∃ before rest, l = before ++ x :: rest ∧ ∀ y ∈ rest, test y = false := by
  intro l
  induction l with
  | nil => intro h; exact absurd h (by simp)
  | cons a l ih =>
    intro h
    cases hl : (l.filter test).getLast? with
    | some y =>
      have hy : x = y := by
        rw [List.filter_cons] at h
        split at h
        · rw [List.getLast?_cons, hl] at h
          exact (Option.some.inj h).symm
        · rw [hl] at h
          exact (Option.some.inj h).symm
      obtain ⟨before, rest, hsplit, hrest⟩ := ih (hy ▸ hl)
      exact ⟨a :: before, rest, by rw [hsplit, List.cons_append], hrest⟩
    | none =>
      -- nothing of the rest passes, so the first element does
      have hnil : l.filter test = [] := List.getLast?_eq_none_iff.mp hl
      rw [List.filter_cons, hnil] at h
      split at h
      · obtain rfl : a = x := by simpa using h
        refine ⟨[], l, rfl, ?_⟩
        intro y hy
        cases ht : test y with
        | false => rfl
        | true => exact absurd (List.mem_filter.mpr ⟨hy, ht⟩) (hnil ▸ List.not_mem_nil)
      · exact absurd h (by simp)

theorem step_eq_name {piece : List Char} {s : String} (h : step piece = .name s) :
    piece = s.toList ∧ piece ≠ ['.', '.'] := by
  unfold step at h
  split at h
  · exact absurd h (by simp)
  · next hdots =>
    obtain rfl := Component.name.inj h
    exact ⟨String.toList_ofList.symm, hdots⟩

/-- A path takes its name from its last piece that is not idle. -/
theorem fileName?_pieces {p : Path} {s : String} (h : p.fileName? = some s) :
    IsName s ∧ ∃ before rest, splitSlash p.text.toList = before ++ s.toList :: rest ∧
      ∀ piece ∈ rest, isIdle piece = true := by
  have hlast : p.components.getLast? = some (.name s) := by
    unfold fileName? at h
    split at h
    · next hc => rw [hc, Option.some.inj h]
    · exact absurd h (by simp)
  unfold components at hlast
  split at hlast
  · exact absurd hlast (by simp)
  cases hs : splitSlash p.text.toList with
  | nil => exact absurd hs (splitSlash_ne_nil _)
  | cons first rest =>
    rw [hs] at hlast
    simp only [List.getLast?_cons, List.getLast?_map, Option.some.injEq] at hlast
    have hnoSlash : ∀ piece ∈ first :: rest, '/' ∉ piece :=
      fun piece hpiece => notMem_of_mem_splitSlash (hs ▸ hpiece)
    cases hf : (rest.filter fun x => !isIdle x).getLast? with
    | none =>
      -- all that follows is idle, so the first piece is the name
      have hnil : (rest.filter fun x => !isIdle x) = [] := List.getLast?_eq_none_iff.mp hf
      rw [hf, Option.map_none, Option.getD_none] at hlast
      unfold firstStep at hlast
      split at hlast
      · exact absurd hlast (by simp)
      split at hlast
      · exact absurd hlast (by simp)
      next hne hdot =>
      obtain ⟨rfl, hdots⟩ := step_eq_name hlast
      refine ⟨⟨hnoSlash _ List.mem_cons_self, hne, hdot, hdots⟩, [], rest, rfl, ?_⟩
      intro piece hpiece
      cases hidle : isIdle piece with
      | true => rfl
      | false =>
        have : piece ∈ rest.filter fun x => !isIdle x :=
          List.mem_filter.mpr ⟨hpiece, by simp [hidle]⟩
        exact absurd this (hnil ▸ List.not_mem_nil)
    | some piece =>
      rw [hf, Option.map_some, Option.getD_some] at hlast
      obtain ⟨rfl, hdots⟩ := step_eq_name hlast
      have hmem := List.mem_filter.mp (List.mem_of_getLast? hf)
      have hidle : isIdle s.toList = false := by simpa using hmem.2
      simp only [isIdle, Bool.or_eq_false_iff, beq_eq_false_iff_ne] at hidle
      obtain ⟨before, after, hsplit, hafter⟩ := getLast?_filter_split rest hf
      refine ⟨⟨hnoSlash _ (List.mem_cons_of_mem _ hmem.1), hidle.1, hidle.2, hdots⟩,
        first :: before, after, by rw [hsplit, List.cons_append], ?_⟩
      intro y hy
      simpa using hafter y hy

end Path
end TransferBoard
