import TransferBoard.Text.Blank

/-!
# Trimmed texts

A text is trimmed in more than one place on its way.  It makes no difference how often.

## Main definitions

* `IsTrimmed cs` — there are no blanks at the ends.

## Main results

* `isTrimmed_trimBlank` — nothing is left to trim of a trimmed text.
* `trimBlank_padded` — blanks around a trimmed text are what trimming takes away.
* `nonBlank?_of_nonBlank?` — what is left of a text by trimming is left by trimming once more.
-/

namespace TransferBoard

/-- There are no blanks at the ends. -/
def IsTrimmed (cs : List Char) : Prop :=
  (∀ c, cs.head? = some c → isBlank c = false) ∧ ∀ c, cs.getLast? = some c → isBlank c = false

theorem isTrimmed_of_no_blank {cs : List Char} (h : ∀ c ∈ cs, isBlank c = false) :
    IsTrimmed cs :=
  ⟨fun c hc => h c (List.mem_of_mem_head? hc), fun c hc => h c (List.mem_of_getLast? hc)⟩

theorem IsTrimmed.reverse {cs : List Char} (h : IsTrimmed cs) : IsTrimmed cs.reverse :=
  ⟨fun c hc => h.2 c (List.head?_reverse ▸ hc), fun c hc => h.1 c (List.getLast?_reverse ▸ hc)⟩

/-- Blanks before a text without one at its start are dropped. -/
theorem dropWhile_blanks {blanks cs : List Char} (hblanks : ∀ c ∈ blanks, isBlank c = true)
    (hcs : ∀ c, cs.head? = some c → isBlank c = false) :
    (blanks ++ cs).dropWhile isBlank = cs := by
  rw [List.dropWhile_append_of_pos hblanks]
  cases cs with
  | nil => rfl
  | cons c cs => exact List.dropWhile_cons_of_neg (by simp [hcs c rfl])

/-- Blanks around a trimmed text are what trimming takes away. -/
theorem dropBlankEnd_padded {before cs after : List Char}
    (hbefore : ∀ c ∈ before, isBlank c = true) (hcs : IsTrimmed cs)
    (hafter : ∀ c ∈ after, isBlank c = true) :
    dropBlankEnd ((before ++ cs ++ after).dropWhile isBlank) = cs := by
  have hend : ∀ c ∈ after.reverse, isBlank c = true := fun c hc => hafter c (List.mem_reverse.mp hc)
  cases cs with
  | nil =>
    have hall : ∀ c ∈ before ++ after, isBlank c = true := by
      intro c hc
      exact (List.mem_append.mp hc).elim (hbefore c) (hafter c)
    rw [List.append_nil, ← List.append_nil (before ++ after), dropWhile_blanks hall (by simp)]
    rfl
  | cons c cs =>
    have hstart : ∀ c', (c :: cs ++ after).head? = some c' → isBlank c' = false := fun c' hc' =>
      hcs.1 c' hc'
    rw [List.append_assoc, dropWhile_blanks hbefore hstart, dropBlankEnd, List.reverse_append,
      dropWhile_blanks hend hcs.reverse.1, List.reverse_reverse]

theorem isTrimmed_dropBlankEnd (cs : List Char) :
    IsTrimmed (dropBlankEnd (cs.dropWhile isBlank)) := by
  have hdropped : ∀ (cs : List Char) c, (cs.dropWhile isBlank).head? = some c →
      isBlank c = false := by
    intro cs c hc
    have hnot := List.head?_dropWhile_not isBlank cs
    rw [hc] at hnot
    simpa using hnot
  refine ⟨fun c hc => ?_, fun c hc => ?_⟩
  · -- the first character is that of the text without the blanks before it
    obtain ⟨dropped, hsplit⟩ : (cs.dropWhile isBlank).reverse.dropWhile isBlank <:+
        (cs.dropWhile isBlank).reverse := List.dropWhile_suffix isBlank
    replace hsplit := congrArg List.reverse hsplit
    rw [List.reverse_append, List.reverse_reverse] at hsplit
    refine hdropped cs c ?_
    rw [← hsplit, List.head?_append, ← dropBlankEnd, hc]
    rfl
  · rw [dropBlankEnd, List.getLast?_reverse] at hc
    exact hdropped _ c hc

theorem isTrimmed_trimBlank (s : String) : IsTrimmed (trimBlank s).toList := by
  rw [trimBlank, String.toList_ofList]
  exact isTrimmed_dropBlankEnd s.toList

/-- **Blanks around a trimmed text are what trimming takes away.** -/
theorem trimBlank_padded {before s after : String}
    (hbefore : ∀ c ∈ before.toList, isBlank c = true) (hs : IsTrimmed s.toList)
    (hafter : ∀ c ∈ after.toList, isBlank c = true) : trimBlank (before ++ s ++ after) = s := by
  rw [trimBlank, String.toList_append, String.toList_append, dropBlankEnd_padded hbefore hs hafter,
    String.ofList_toList]

theorem trimBlank_of_isTrimmed {s : String} (hs : IsTrimmed s.toList) : trimBlank s = s := by
  have hpadded : trimBlank ("" ++ s ++ "") = s := trimBlank_padded (by simp) hs (by simp)
  simpa using hpadded

theorem trimBlank_trimBlank (s : String) : trimBlank (trimBlank s) = trimBlank s :=
  trimBlank_of_isTrimmed (isTrimmed_trimBlank s)

/-- **What is left of a text by trimming is left by trimming once more.** -/
theorem nonBlank?_of_nonBlank? {s text : String} (h : nonBlank? s = some text) :
    nonBlank? text = some text := by
  simp only [nonBlank?] at h ⊢
  split at h
  · exact absurd h (by simp)
  · next hsome =>
    obtain rfl := Option.some.inj h
    rw [trimBlank_trimBlank, if_neg hsome]

end TransferBoard
