import Mathlib.Data.List.TakeWhile
import TransferBoard.Batch.Screen
import TransferBoard.Proofs.Terminal.LineText
import TransferBoard.Proofs.Text.Trimmed

/-!
# The batch screen edits a list

The batch screen and its line prompt take their keys from one source.  What comes of all keys can
be said by an editor of a list that takes one key at a time, and always knows whether the key is
for the menu or for the line.  Nothing that is drawn has a part in it.

## Main definitions

* `ListEditor` — the list, and whether the next key is for the menu or for a line.
* `ListEditor.press` — what a key makes of it: the editor afterwards, or how it is left.
* `ListEditor.run` — how it is left, and the keys that are left then.
* `ListEditor.entries` — the lines that are added until then.
* `ListEditor.Sound` — what is known of the list at any time.

## Main results

* `SourceList.items_ofItems` — the list to start with.
* `ListEditor.run_typed`, `ListEditor.run_prompt` — what comes of the keys of a line.
* `runBatchEntry_press` — the screen does what the editor does, from any list.
* `ListEditor.sound_press`, `ListEditor.of_run_start` — the lists that can be started.
* `batch_screen_edits_a_list` — **the batch screen is an editor of a list.**
-/

namespace TransferBoard

open KeyAnswers (endsLine)

/-! ### The list -/

namespace SourceList

theorem items_push {l : SourceList} (h : l.items.length < maxSources) (item : String) :
    (l.push item).2.items = l.items ++ (nonBlank? item).toList := by
  rw [push]
  cases nonBlank? item with
  | none => exact (List.append_nil _).symm
  | some t => simp [h]

theorem push_of_full {l : SourceList} (h : ¬ l.items.length < maxSources) (item : String) :
    (l.push item).2 = l := by
  rw [push]
  cases nonBlank? item with
  | none => rfl
  | some t => simp [h]

/-- Adds the line of a line prompt, if there is one. -/
def addLine (l : SourceList) : Option String → SourceList
  | none => l
  | some line => (l.push line).2

theorem items_addLine {l : SourceList} (h : l.items.length < maxSources) (line : Option String) :
    (l.addLine line).items = l.items ++ (line.bind nonBlank?).toList := by
  cases line with
  | none => exact (List.append_nil _).symm
  | some line =>
    rw [addLine, Option.bind_some]
    exact items_push h line

/-- The list to start with: the first ten items that are not blank, trimmed. -/
theorem items_ofItems (items : List String) :
    (ofItems items).items = (items.filterMap nonBlank?).take maxSources := by
  -- by induction on the items, for any list before them
  suffices hall : ∀ l : SourceList, (items.foldl (fun l item => (l.push item).2) l).items =
      (l.items ++ items.filterMap nonBlank?).take maxSources from hall {}
  induction items with
  | nil =>
    intro l
    rw [List.filterMap_nil, List.append_nil, List.take_of_length_le l.length_le]
    rfl
  | cons item items ih =>
    intro l
    have hcons : (item :: items).filterMap nonBlank? =
        (nonBlank? item).toList ++ items.filterMap nonBlank? := by
      rw [List.filterMap_cons]
      cases nonBlank? item <;> rfl
    rw [List.foldl_cons, ih, hcons]
    by_cases h : l.items.length < maxSources
    · rw [items_push h, List.append_assoc]
    · have hfull : l.items.length = maxSources :=
        Nat.le_antisymm l.length_le (Nat.not_lt.mp h)
      rw [push_of_full h, List.take_left' hfull, List.take_left' hfull]

end SourceList

/-! ### The editor -/

/-- What the next key is for. -/
inductive ListEditor.Mode where
  /-- For the menu. -/
  | menu
  /-- For the line, for which some keys have been typed. -/
  | prompt (typed : List Key)
  deriving DecidableEq, Repr

/-- An editor of a list. -/
structure ListEditor where
  /-- The list. -/
  items : List String
  /-- What the next key is for. -/
  mode : ListEditor.Mode := .menu
  deriving DecidableEq, Repr

namespace ListEditor

/-- The editor with the first ten items that are not blank, trimmed. -/
def start (items : List String) : ListEditor := ⟨(items.filterMap nonBlank?).take 10, .menu⟩

/-- The line that a key adds: Enter adds what has been typed, trimmed, unless it is blank. -/
def entry? (ed : ListEditor) (key : Key) : Option String :=
  match ed.mode, key with
  | .prompt typed, .enter => nonBlank? (lineText typed)
  | _, _ => none

/-- What a key makes of the editor: how it is left, or the editor afterwards. -/
def press (ed : ListEditor) (key : Key) : BatchOutcome ⊕ ListEditor :=
  match ed.mode, key with
  | .menu, .char 'a' => .inr (if ed.items.length < 10 then ⟨ed.items, .prompt []⟩ else ed)
  | .menu, .char 'd' => .inr ⟨ed.items.dropLast, .menu⟩
  | .menu, .char 's' => if ed.items = [] then .inr ed else .inl (.start ed.items)
  | .menu, .char 'q' => .inl .quit
  | .menu, .esc => .inl .quit
  | .menu, _ => .inr ed
  | .prompt _, .enter => .inr ⟨ed.items ++ (ed.entry? .enter).toList, .menu⟩
  | .prompt _, .esc => .inr ⟨ed.items, .menu⟩
  | .prompt typed, key => .inr ⟨ed.items, .prompt (typed ++ [key])⟩

/-- How the editor is left, and the keys that are left then.  Closed input leaves it. -/
def run (ed : ListEditor) : List Key → BatchOutcome × List Key
  | [] => (.quit, [])
  | key :: keys =>
    match ed.press key with
    | .inl outcome => (outcome, keys)
    | .inr ed => ed.run keys

/-- The lines that are added until the editor is left. -/
def entries (ed : ListEditor) : List Key → List String
  | [] => []
  | key :: keys =>
    (ed.entry? key).toList ++
      match ed.press key with
      | .inl _ => []
      | .inr ed => ed.entries keys

variable {ed ed' : ListEditor} {items : List String} {key : Key} {keys : List Key}

theorem run_of_leaves {outcome : BatchOutcome} (h : ed.press key = .inl outcome) :
    ed.run (key :: keys) = (outcome, keys) := by
  rw [run, h]

theorem run_of_press (h : ed.press key = .inr ed') : ed.run (key :: keys) = ed'.run keys := by
  rw [run, h]

/-- What a key at the menu makes of the editor, by what it asks for. -/
theorem press_menu (items : List String) (key : Key) :
    press ⟨items, .menu⟩ key = match menuAction key with
      | .add => .inr (if items.length < 10 then ⟨items, .prompt []⟩ else ⟨items, .menu⟩)
      | .drop => .inr ⟨items.dropLast, .menu⟩
      | .start => if items = [] then .inr ⟨items, .menu⟩ else .inl (.start items)
      | .quit => .inl .quit
      | .none => .inr ⟨items, .menu⟩ := by
  fun_cases menuAction key with
  | case1 => rfl
  | case2 => rfl
  | case3 => rfl
  | case4 => rfl
  | case5 => rfl
  | case6 key ha hd hs hq hesc => simp [press]

theorem press_prompt {typed : List Key} (h : endsLine key = false) :
    press ⟨items, .prompt typed⟩ key = .inr ⟨items, .prompt (typed ++ [key])⟩ := by
  cases key with
  | enter | esc => exact absurd h (by decide)
  | char | up | down | backspace | other => rfl

theorem entry?_menu (items : List String) (key : Key) : entry? ⟨items, .menu⟩ key = none := rfl

theorem entry?_prompt {typed : List Key} (h : endsLine key = false) :
    entry? ⟨items, .prompt typed⟩ key = none := by
  cases key with
  | enter => exact absurd h (by decide)
  | char | up | down | esc | backspace | other => rfl

theorem entry?_enter (items : List String) (typed : List Key) :
    entry? ⟨items, .prompt typed⟩ .enter = nonBlank? (lineText typed) := rfl

theorem entry?_esc (items : List String) (typed : List Key) :
    entry? ⟨items, .prompt typed⟩ .esc = none := rfl

theorem press_enter (items : List String) (typed : List Key) :
    press ⟨items, .prompt typed⟩ .enter =
      .inr ⟨items ++ (nonBlank? (lineText typed)).toList, .menu⟩ := rfl

theorem press_esc (items : List String) (typed : List Key) :
    press ⟨items, .prompt typed⟩ .esc = .inr ⟨items, .menu⟩ := rfl

/-- The keys of a line are for the line, whatever they are at the menu.  By induction on them, for
all that has been typed before. -/
theorem run_typed {more : List Key} (hmore : ∀ key ∈ more, endsLine key = false)
    (items : List String) (keys : List Key) : ∀ typed : List Key,
      run ⟨items, .prompt typed⟩ (more ++ keys) = run ⟨items, .prompt (typed ++ more)⟩ keys := by
  induction more with
  | nil => exact fun typed => by rw [List.append_nil, List.nil_append]
  | cons key more ih =>
    intro typed
    rw [List.cons_append, run_of_press (press_prompt (hmore key List.mem_cons_self)),
      ih (fun k hk => hmore k (List.mem_cons_of_mem key hk)), List.append_assoc]
    rfl

/-- What comes of the keys for a line and of those after it. -/
theorem run_prompt (items : List String) (keys : List Key) :
    run ⟨items, .prompt []⟩ keys =
      run ⟨items ++ ((KeyAnswers.line (keys.takeWhile (!endsLine ·))
        (keys.dropWhile (!endsLine ·)).head?).bind nonBlank?).toList, .menu⟩
        (keys.dropWhile (!endsLine ·)).tail := by
  have htyped : ∀ key ∈ keys.takeWhile (!endsLine ·), endsLine key = false := fun key hkey => by
    simpa using List.mem_takeWhile_imp hkey
  have hend := List.head?_dropWhile_not (!endsLine ·) keys
  conv_lhs => rw [← List.takeWhile_append_dropWhile (p := (!endsLine ·)) (l := keys)]
  rw [run_typed htyped, List.nil_append]
  -- the line takes the keys up to the first one that ends it, and that one says what becomes of it
  cases hrest : keys.dropWhile (!endsLine ·) with
  | nil =>
    rw [List.head?_nil, KeyAnswers.line, if_neg nofun, Option.bind_none, Option.toList_none]
    rfl
  | cons key rest =>
    have hends : endsLine key = true := by simpa [hrest] using hend
    rcases eq_of_endsLine hends with rfl | rfl
    · rw [run_of_press (press_enter items _), lineText_eq, List.head?_cons, KeyAnswers.line,
        if_pos rfl, Option.bind_some, List.tail_cons]
    · rw [run_of_press (press_esc items _), List.head?_cons, KeyAnswers.line, if_neg (by decide),
        Option.bind_none, Option.toList_none, List.append_nil]
      rfl

/-! ### What is known of the list -/

/-- What is known of the list at any time, when some lines have been added so far. -/
structure Sound (ed : ListEditor) (added : List String) : Prop where
  /-- There are at most ten items. -/
  fits : ed.items.length ≤ 10
  /-- While a line is typed, there is room for it. -/
  room : ∀ typed, ed.mode = .prompt typed → ed.items.length < 10
  /-- They are trimmed and not blank. -/
  trimmed : ∀ t ∈ ed.items, IsTrimmed t.toList ∧ t ≠ ""
  /-- They are in the order in which they were added. -/
  ordered : ed.items.Sublist added

theorem isTrimmed_of_nonBlank? {line t : String} (h : nonBlank? line = some t) :
    IsTrimmed t.toList ∧ t ≠ "" := by
  rw [nonBlank?] at h
  split at h
  · exact absurd h (by simp)
  · next hne =>
    obtain rfl := Option.some.inj h
    exact ⟨isTrimmed_trimBlank line, hne⟩

theorem sound_start (items : List String) : (start items).Sound (start items).items where
  fits := List.length_take_le _ _
  room _ h := nomatch h
  trimmed t ht := by
    obtain ⟨line, -, h⟩ := List.mem_filterMap.mp (List.mem_of_mem_take ht)
    exact isTrimmed_of_nonBlank? h
  ordered := .refl _

/-- One more line is added at the end, if there is room for it. -/
theorem Sound.add {added : List String} (h : ed.Sound added) (hroom : ed.items.length < 10)
    {line : Option String} (hline : ∀ t, line = some t → IsTrimmed t.toList ∧ t ≠ "") :
    Sound ⟨ed.items ++ line.toList, .menu⟩ (added ++ line.toList) where
  fits := by
    rw [List.length_append]
    have := line.length_toList_le
    omega
  room _ h := nomatch h
  trimmed t ht := (List.mem_append.mp ht).elim (h.trimmed t) fun ht =>
    hline t (Option.mem_toList.mp ht)
  ordered := h.ordered.append_right _

/-- What is known of the list stays true of what is left of it. -/
theorem Sound.of_sublist {added : List String} (h : ed.Sound added) {items : List String}
    (hsub : items.Sublist ed.items) {mode : Mode}
    (hroom : ∀ typed, mode = .prompt typed → items.length < 10) :
    Sound ⟨items, mode⟩ added where
  fits := Nat.le_trans hsub.length_le h.fits
  room := hroom
  trimmed t ht := h.trimmed t (hsub.subset ht)
  ordered := hsub.trans h.ordered

/-- **What is known of the list is kept by each key.** -/
theorem sound_press {added : List String} (h : ed.Sound added) (hpress : ed.press key = .inr ed') :
    ed'.Sound (added ++ (ed.entry? key).toList) := by
  obtain ⟨items, mode⟩ := ed
  cases mode with
  | menu =>
    rw [entry?_menu, Option.toList_none, List.append_nil]
    rw [press_menu] at hpress
    cases haction : menuAction key with
    | add =>
      rw [haction] at hpress
      obtain rfl := Sum.inr.inj hpress
      split
      · next hroom => exact h.of_sublist (.refl items) fun _ _ => hroom
      · exact h
    | drop =>
      rw [haction] at hpress
      obtain rfl := Sum.inr.inj hpress
      exact h.of_sublist (List.dropLast_sublist items) nofun
    | start =>
      rw [haction] at hpress
      -- an empty list cannot be started; any other one leaves the editor
      by_cases hnil : items = []
      · obtain rfl := Sum.inr.inj ((if_pos hnil).symm.trans hpress)
        exact h
      · exact nomatch (if_neg hnil).symm.trans hpress
    | quit =>
      rw [haction] at hpress
      exact nomatch hpress
    | none =>
      rw [haction] at hpress
      obtain rfl := Sum.inr.inj hpress
      exact h
  | prompt typed =>
    have hroom := h.room typed rfl
    -- what is typed is kept apart from the list until the line ends
    cases hends : endsLine key with
    | false =>
      obtain rfl := Sum.inr.inj ((press_prompt hends).symm.trans hpress)
      rw [entry?_prompt hends, Option.toList_none, List.append_nil]
      exact h.of_sublist (.refl items) fun _ _ => hroom
    | true =>
      rcases eq_of_endsLine hends with rfl | rfl
      · obtain rfl := Sum.inr.inj ((press_enter items typed).symm.trans hpress)
        rw [entry?_enter]
        exact h.add hroom fun t ht => isTrimmed_of_nonBlank? ht
      · obtain rfl := Sum.inr.inj ((press_esc items typed).symm.trans hpress)
        rw [entry?_esc, Option.toList_none, List.append_nil]
        exact h.of_sublist (.refl items) nofun

/-- Only a list with items can be started. -/
theorem of_press_start {l : List String} (h : ed.press key = .inl (.start l)) :
    l = ed.items ∧ l ≠ [] := by
  obtain ⟨items, mode⟩ := ed
  cases mode with
  | menu =>
    rw [press_menu] at h
    cases haction : menuAction key with
    | start =>
      rw [haction] at h
      by_cases hnil : items = []
      · exact nomatch (if_pos hnil).symm.trans h
      · obtain rfl := BatchOutcome.start.inj (Sum.inl.inj ((if_neg hnil).symm.trans h))
        exact ⟨rfl, hnil⟩
    | add | drop | quit | none =>
      rw [haction] at h
      exact nomatch h
  | prompt typed =>
    cases key with
    | char | up | down | esc | enter | backspace | other => exact nomatch h

/-- **A list that is started** has between one and ten items, all of them trimmed and not blank, in
the order in which they were added. -/
theorem of_run_start {l : List String} (keys : List Key) : ∀ {ed : ListEditor}
    {added : List String}, ed.Sound added → (ed.run keys).1 = .start l →
      1 ≤ l.length ∧ l.length ≤ 10 ∧ (∀ t ∈ l, IsTrimmed t.toList ∧ t ≠ "") ∧
        l.Sublist (added ++ ed.entries keys) := by
  induction keys with
  | nil => exact fun _ h => nomatch h
  | cons key keys ih =>
    intro ed added h hrun
    rw [entries]
    cases hpress : ed.press key with
    | inl outcome =>
      rw [run_of_leaves hpress] at hrun
      obtain rfl : outcome = .start l := hrun
      -- the list as it stands is the one that is started
      obtain ⟨rfl, hne⟩ := of_press_start hpress
      exact ⟨List.length_pos_iff.mpr hne, h.fits, h.trimmed,
        h.ordered.trans (List.sublist_append_left _ _)⟩
    | inr ed' =>
      rw [run_of_press hpress] at hrun
      rw [← List.append_assoc]
      exact ih (sound_press h hpress) hrun

end ListEditor

/-! ### The screen -/

section

variable {s : Surface}

theorem Surface.ShowsAll.exists_present (hs : s.ShowsAll) (calls : List DrawCall) :
    ∃ s' : Surface, s'.ShowsAll ∧ s.present calls = (.ok (), s') := by
  obtain ⟨hok, hs'⟩ := hs.present calls
  exact ⟨_, hs', Prod.ext hok rfl⟩

/-- What the screen makes of one key, when all can be shown.  A line takes the keys up to the one
that ends it. -/
theorem runBatchEntry_action (hs : s.ShowsAll) (list : SourceList) (notice : Option String)
    (key : Key) (keys : List Key) : ∃ s' : Surface, s'.ShowsAll ∧
      runBatchEntry list notice ((key :: keys).map .press) s = match menuAction key with
        | .add =>
          if list.isFull then
            runBatchEntry list (some BatchScreen.fullNotice) (keys.map .press) s'
          else
            runBatchEntry (list.addLine (KeyAnswers.line (keys.takeWhile (!endsLine ·))
              (keys.dropWhile (!endsLine ·)).head?)) none
              ((keys.dropWhile (!endsLine ·)).tail.map .press) s'
        | .drop => runBatchEntry list.pop.2 none (keys.map .press) s'
        | .start =>
          if list.items = [] then
            runBatchEntry list (some BatchScreen.emptyNotice) (keys.map .press) s'
          else (.ok (.start list.items), keys.map .press, s')
        | .quit => (.ok .quit, keys.map .press, s')
        | .none => runBatchEntry list none (keys.map .press) s' := by
  obtain ⟨s₁, hs₁, hdrawn⟩ := hs.exists_present (BatchScreen.calls list notice s.height)
  rw [List.map_cons, runBatchEntry, hdrawn]
  cases haction : menuAction key with
  | drop | start | quit | none => exact ⟨s₁, hs₁, by simp only [haction]⟩
  | add =>
    cases hfull : list.isFull with
    | true => exact ⟨s₁, hs₁, by simp only [haction, if_true]⟩
    | false =>
      -- the line is read below the menu, and takes the keys up to its end
      obtain ⟨s₂, hs₂, hprompt⟩ := hs₁.exists_present [BatchScreen.promptCall ""]
      have hecho : ∀ text (s : Surface), s.ShowsAll → (BatchScreen.echo text s).1 = .ok () ∧
          (BatchScreen.echo text s).2.ShowsAll := fun _ _ h => h.present _
      obtain ⟨s₃, hs₃, hread⟩ := readLine_press hecho keys [] s₂ hs₂
      rw [List.reverse_nil, ← KeyAnswers.line] at hread
      refine ⟨s₃, hs₃, ?_⟩
      simp only [haction, hprompt, hread, Bool.false_eq_true, if_false]
      cases KeyAnswers.line (keys.takeWhile (!endsLine ·)) (keys.dropWhile (!endsLine ·)).head? with
      | none => rfl
      | some line => rfl

/-- **The screen does what the editor does**, from any list.  By strong induction on the number of
keys, because a line takes several of them. -/
theorem runBatchEntry_press (hs : s.ShowsAll) (list : SourceList) (notice : Option String)
    (keys : List Key) : ∃ s' : Surface, s'.ShowsAll ∧
      runBatchEntry list notice (keys.map .press) s =
        (.ok (ListEditor.run ⟨list.items, .menu⟩ keys).1,
          (ListEditor.run ⟨list.items, .menu⟩ keys).2.map .press, s') := by
  induction hlen : keys.length using Nat.strongRecOn generalizing s list notice keys with
  | ind n ih =>
    subst hlen
    cases keys with
    | nil =>
      obtain ⟨s₁, hs₁, hdrawn⟩ := hs.exists_present (BatchScreen.calls list notice s.height)
      exact ⟨s₁, hs₁, by rw [List.map_nil, runBatchEntry, hdrawn]; rfl⟩
    | cons key keys =>
      -- one key of the screen is one key of the editor, a line is several
      obtain ⟨s₁, hs₁, hscreen⟩ := runBatchEntry_action hs list notice key keys
      have hmenu := ListEditor.press_menu list.items key
      have hrest := fun (list : SourceList) (notice : Option String) =>
        ih keys.length (Nat.lt_succ_self _) hs₁ list notice keys rfl
      rw [hscreen]
      cases haction : menuAction key with
      | add =>
        rw [haction] at hmenu
        rw [ListEditor.run_of_press hmenu]
        by_cases hroom : list.items.length < maxSources
        · have hfull : list.isFull = false := decide_eq_false (Nat.not_le.mpr hroom)
          -- the keys that the line leaves are fewer, so the induction reaches them
          have hleft : (keys.dropWhile (!endsLine ·)).tail.length ≤ keys.length :=
            ((List.tail_suffix _).trans (List.dropWhile_suffix _)).length_le
          obtain ⟨s₂, hs₂, hline⟩ := ih _ (Nat.lt_succ_of_le hleft) hs₁
            (list.addLine (KeyAnswers.line (keys.takeWhile (!endsLine ·))
              (keys.dropWhile (!endsLine ·)).head?)) none (keys.dropWhile (!endsLine ·)).tail rfl
          rw [SourceList.items_addLine hroom] at hline
          refine ⟨s₂, hs₂, ?_⟩
          rw [if_pos (show list.items.length < 10 from hroom), ListEditor.run_prompt]
          simp only [hfull, Bool.false_eq_true, if_false]
          exact hline
        · -- the list is full, and the editor stays at its menu as well
          have hfull : list.isFull = true := decide_eq_true (Nat.not_lt.mp hroom)
          rw [if_neg (show ¬ list.items.length < 10 from hroom)]
          simp only [hfull, if_true]
          exact hrest list _
      | drop =>
        rw [haction] at hmenu
        rw [ListEditor.run_of_press hmenu]
        exact hrest list.pop.2 none
      | start =>
        rw [haction] at hmenu
        by_cases hnil : list.items = []
        · rw [ListEditor.run_of_press (hmenu.trans (if_pos hnil))]
          simp only [if_pos hnil]
          exact hrest list _
        · rw [ListEditor.run_of_leaves (hmenu.trans (if_neg hnil))]
          simp only [if_neg hnil]
          exact ⟨s₁, hs₁, rfl⟩
      | quit =>
        rw [haction] at hmenu
        rw [ListEditor.run_of_leaves hmenu]
        exact ⟨s₁, hs₁, rfl⟩
      | none =>
        rw [haction] at hmenu
        rw [ListEditor.run_of_press hmenu]
        exact hrest list none

/-- What the caller is told, and the keys that are left, when a list is edited on a screen. -/
def batchAnswer (list : SourceList) (keys : List Key) (s : Surface) :
    Except OsError BatchOutcome × List KeyEvent :=
  ((runBatchEntry list none (keys.map .press) s).1,
    (runBatchEntry list none (keys.map .press) s).2.1)

theorem batchAnswer_eq (hs : s.ShowsAll) (list : SourceList) (keys : List Key) :
    batchAnswer list keys s = (.ok (ListEditor.run ⟨list.items, .menu⟩ keys).1,
      (ListEditor.run ⟨list.items, .menu⟩ keys).2.map .press) := by
  obtain ⟨s', -, hrun⟩ := runBatchEntry_press hs list none keys
  rw [batchAnswer, hrun]

/-- What is typed for a line is no command. -/
theorem ListEditor.run_add {items : List String} (hroom : items.length < 10) {typed : List Key}
    (htyped : ∀ key ∈ typed, endsLine key = false) (keys : List Key) :
    run ⟨items, .menu⟩ (.char 'a' :: typed ++ keys) = run ⟨items, .prompt typed⟩ keys := by
  rw [List.cons_append, run_of_press (press_menu items (.char 'a'))]
  show run (if items.length < 10 then ⟨items, .prompt []⟩ else ⟨items, .menu⟩) (typed ++ keys) = _
  rw [if_pos hroom, run_typed htyped, List.nil_append]

/-- **The batch screen is an editor of a list.**  All keys are there, and then the input is closed;
whatever is drawn can be shown.  Then the screen is left as the editor of the first ten items is,
with the same keys left.  What is typed for a line is no command, whatever it is: Enter adds the
line to the list and escape does not, and the keys after that are for the menu again.  A list that
is started has between one and ten items, trimmed and not blank, in the order in which they were
added. -/
theorem batch_screen_edits_a_list (items : List String) (keys : List Key) (hs : s.ShowsAll) :
    (∃ s' : Surface, s'.ShowsAll ∧
      runBatchEntry (.ofItems items) none (keys.map .press) s =
        (.ok ((ListEditor.start items).run keys).1,
          ((ListEditor.start items).run keys).2.map .press, s')) ∧
    (∀ (list : SourceList) (typed rest : List Key), list.items.length < 10 →
      (∀ key ∈ typed, key ≠ .enter ∧ key ≠ .esc) →
        batchAnswer list (.char 'a' :: typed ++ .enter :: rest) s =
            batchAnswer (list.push (lineText typed)).2 rest s ∧
          batchAnswer list (.char 'a' :: typed ++ .esc :: rest) s = batchAnswer list rest s ∧
          batchAnswer list (.char 'a' :: typed) s = (.ok .quit, [])) ∧
    ∀ l, ((ListEditor.start items).run keys).1 = .start l →
      1 ≤ l.length ∧ l.length ≤ 10 ∧ (∀ t ∈ l, IsTrimmed t.toList ∧ t ≠ "") ∧
        l.Sublist ((ListEditor.start items).items ++ (ListEditor.start items).entries keys) := by
  refine ⟨?_, fun list typed rest hroom htyped => ?_, fun l hl =>
    ListEditor.of_run_start keys (ListEditor.sound_start items) hl⟩
  · have hstart : ListEditor.start items = ⟨(SourceList.ofItems items).items, .menu⟩ := by
      rw [SourceList.items_ofItems]
      rfl
    rw [hstart]
    exact runBatchEntry_press hs _ none keys
  · -- no key of the line ends it, so none of them is a command
    have hline : ∀ key ∈ typed, endsLine key = false := fun key hkey => by
      simpa [endsLine] using htyped key hkey
    simp only [batchAnswer_eq hs, SourceList.items_push hroom]
    refine ⟨?_, ?_, ?_⟩
    · rw [ListEditor.run_add hroom hline, ListEditor.run_of_press (ListEditor.press_enter _ _)]
    · rw [ListEditor.run_add hroom hline, ListEditor.run_of_press (ListEditor.press_esc _ _)]
    · rw [← List.append_nil (.char 'a' :: typed), ListEditor.run_add hroom hline]
      rfl

/-- A list is edited on a screen with no room for it: an item is dropped, the line for another one
is made of keys that are commands at the menu, a third one is given up.  One key is left. -/
theorem batch_edited_on_a_small_screen :
    let items := ["x", " ", " y "]
    let keys : List Key :=
      [.char 'd', .char 'a', .char 's', .char 'q', .backspace, .char ' ', .enter, .char 'a',
        .char 'd', .esc, .up, .char 's', .char 'z']
    ∃ s' : Surface, runBatchEntry (.ofItems items) none (keys.map .press) (.new 5 2) =
      (.ok (.start ["x", "s"]), [.press (.char 'z')], s') := by
  intro items keys
  obtain ⟨⟨s', -, hrun⟩, -⟩ := batch_screen_edits_a_list items keys (s := .new 5 2) fun _ _ => rfl
  have hedited : (ListEditor.start items).run keys = (.start ["x", "s"], [.char 'z']) := by
    decide +kernel
  rw [hedited] at hrun
  exact ⟨s', hrun⟩

end

end TransferBoard
