import Mathlib.Data.List.Induction
import TransferBoard.Proofs.Terminal.LineText

/-!
# The course of a line prompt

A line prompt takes keys up to the first one that ends the line.  After each key that edits, the
text of the keys so far is shown.  The prompt ends early when a text cannot be shown, or when
there is no key to be had.

## Main definitions

* `echoTexts keys` — the texts that are shown while some keys are typed.
* `Shows echo s texts s'` — showing some texts, one after the other, succeeds.
* `LineEnd` — how a line ends: what the caller is told and the events that are left.
* `LineCourse echo s events` — **the course of a line prompt**: what the caller is told, the events
  that are left, the state afterwards, and each text that was to be shown.
* `recording echo` — shows texts and notes them.

## Main results

* `readLine_typed` — the keys before the end, by induction on them.
* `readLine_of_lineCourse`, `exists_lineCourse` — a line prompt takes its course, and there is
  always one.
* `readLine_iff_lineCourse` — **a line prompt does what its course says, and nothing else.**
-/

namespace TransferBoard

open KeyAnswers (endsLine type)

/-! ### The course -/

/-- The texts that are shown while some keys are typed: after each key that edits, the text of the
keys up to it. -/
def echoTexts (keys : List Key) : List String :=
  (List.range keys.length).filterMap fun i =>
    if (keys[i]?).any edits then some (lineText (keys.take (i + 1))) else none

variable {σ : Type}

/-- Showing some texts, one after the other, succeeds. -/
inductive Shows (echo : String → Asked σ Unit) (s : σ) : List String → σ → Prop
  /-- There is nothing to show. -/
  | nothing : Shows echo s [] s
  /-- One more text is shown. -/
  | more {texts : List String} {text : String} {s₁ s₂ : σ} (h : Shows echo s texts s₁)
      (htext : echo text s₁ = (.ok (), s₂)) : Shows echo s (texts ++ [text]) s₂

/-- How a line with a text ends: what the caller is told and the events that are left. -/
inductive LineEnd (text : String) :
    List KeyEvent → Except OsError (Option String) → List KeyEvent → Prop
  /-- Enter delivers the text. -/
  | enter (left : List KeyEvent) : LineEnd text (.press .enter :: left) (.ok (some text)) left
  /-- Escape gives it up. -/
  | esc (left : List KeyEvent) : LineEnd text (.press .esc :: left) (.ok none) left
  /-- So does closed input. -/
  | closed : LineEnd text [] (.ok none) []
  /-- A key could not be delivered. -/
  | failure (cause : OsError) (left : List KeyEvent) :
      LineEnd text (.failure cause :: left) (.error cause) left
  /-- There will be no keys any more. -/
  | crash (left : List KeyEvent) : LineEnd text (.crash :: left) (.error brokenSource) left

/-- The course of a line prompt: what the caller is told, the events that are left, the state
afterwards, and each text that was to be shown, in this order. -/
inductive LineCourse (echo : String → Asked σ Unit) (s : σ) :
    List KeyEvent → Except OsError (Option String) → List KeyEvent → σ → List String → Prop
  /-- All texts are shown, and the line ends. -/
  | ended {keys : List Key} {rest left : List KeyEvent} {result : Except OsError (Option String)}
      {s' : σ} (hkeys : ∀ key ∈ keys, endsLine key = false)
      (hshown : Shows echo s (echoTexts keys) s')
      (hend : LineEnd (lineText keys) rest result left) :
      LineCourse echo s (keys.map .press ++ rest) result left s' (echoTexts keys)
  /-- After a key that edits, the text cannot be shown. -/
  | echoFailed {keys : List Key} {key : Key} {cause : OsError} {s₁ s' : σ}
      (hkeys : ∀ key ∈ keys, endsLine key = false) (hshown : Shows echo s (echoTexts keys) s₁)
      (hedits : edits key = true)
      (hfailed : echo (lineText (keys ++ [key])) s₁ = (.error cause, s')) (left : List KeyEvent) :
      LineCourse echo s (keys.map .press ++ .press key :: left) (.error cause) left s'
        (echoTexts (keys ++ [key]))

/-! ### One more key -/

theorem echoTexts_concat (keys : List Key) (key : Key) :
    echoTexts (keys ++ [key]) =
      echoTexts keys ++ if edits key then [lineText (keys ++ [key])] else [] := by
  rw [echoTexts, List.length_append, List.length_singleton, List.range_succ, List.filterMap_append]
  congr 1
  · refine List.filterMap_congr fun i hi => ?_
    have hlt := List.mem_range.mp hi
    rw [List.getElem?_append_left hlt, List.take_append_of_le_length hlt]
  · rw [List.filterMap_cons, List.getElem?_concat_length, Option.any_some,
      List.take_of_length_le (by simp)]
    cases edits key <;> rfl

/-- A key that edits makes of the text what a line prompt makes of the text it holds, with its last
character first. -/
theorem lineEdit_of_edits {key : Key} (h : edits key = true) (text : List Char) :
    ∃ f, lineEdit key = .edit f ∧ f text.reverse = (type text key).reverse := by
  cases key with
  | char c =>
    have hprinting : isControl c = false := Bool.not_eq_true' _ ▸ h
    refine ⟨(c :: ·), by rw [lineEdit, hprinting]; rfl, ?_⟩
    rw [KeyAnswers.type_char, hprinting]
    simp
  | backspace => exact ⟨List.tail, rfl, by rw [KeyAnswers.type_backspace, List.tail_reverse]⟩
  | up | down | esc | enter | other => exact absurd h (by decide)

/-- Any other key that does not end the line leaves the text alone. -/
theorem lineEdit_of_not_edits {key : Key} (hends : endsLine key = false) (h : edits key = false)
    (text : List Char) : lineEdit key = .ignore ∧ type text key = text := by
  cases key with
  | char c =>
    have hcontrol : isControl c = true := Bool.not_eq_false' _ ▸ h
    rw [lineEdit, KeyAnswers.type_char, hcontrol]
    exact ⟨rfl, rfl⟩
  | backspace => exact absurd h (by decide)
  | enter | esc => exact absurd hends (by decide)
  | up | down | other => exact ⟨rfl, rfl⟩

/-- What a line prompt holds after some keys: their text with its last character first. -/
def held (keys : List Key) : List Char := (keys.foldl type []).reverse

theorem held_concat (keys : List Key) (key : Key) :
    held (keys ++ [key]) = (type (keys.foldl type []) key).reverse := by
  rw [held, List.foldl_append, List.foldl_cons, List.foldl_nil]

theorem ofList_reverse_held (keys : List Key) :
    String.ofList (held keys).reverse = lineText keys := by
  rw [held, List.reverse_reverse, lineText_eq]

section

variable {echo : String → Asked σ Unit} {s s' : σ} {keys : List Key} {key : Key}

theorem shows_nil_iff : Shows echo s [] s' ↔ s' = s := by
  refine ⟨fun h => ?_, fun h => h ▸ .nothing⟩
  generalize hall : ([] : List String) = all at h
  cases h with
  | nothing => rfl
  | more => exact absurd hall (by simp)

theorem shows_concat_iff {texts : List String} {text : String} :
    Shows echo s (texts ++ [text]) s' ↔
      ∃ s₁, Shows echo s texts s₁ ∧ echo text s₁ = (.ok (), s') := by
  refine ⟨fun h => ?_, fun ⟨_, h, htext⟩ => .more h htext⟩
  generalize hall : texts ++ [text] = all at h
  cases h with
  | nothing => exact absurd hall (by simp)
  | more h htext =>
    obtain ⟨rfl, hlast⟩ := List.append_inj' hall rfl
    obtain rfl := List.singleton_inj.mp hlast
    exact ⟨_, h, htext⟩

/-- After a key that edits, the new text is shown. -/
theorem readLine_edit (h : edits key = true) (keys : List Key) (rest : List KeyEvent) (s : σ) :
    readLine echo (held keys) (.press key :: rest) s =
      match echo (lineText (keys ++ [key])) s with
      | (.error cause, s') => (.error cause, rest, s')
      | (.ok (), s') => readLine echo (held (keys ++ [key])) rest s' := by
  obtain ⟨f, hedit, hf⟩ := lineEdit_of_edits h (keys.foldl type [])
  rw [← ofList_reverse_held, held_concat, ← hf, readLine, hedit]
  rfl

/-- Any other key before the end of the line changes nothing. -/
theorem readLine_ignored (hends : endsLine key = false) (h : edits key = false)
    (rest : List KeyEvent) (s : σ) :
    readLine echo (held keys) (.press key :: rest) s =
      readLine echo (held (keys ++ [key])) rest s := by
  obtain ⟨hedit, htype⟩ := lineEdit_of_not_edits hends h (keys.foldl type [])
  rw [held_concat, htype, ← held, readLine, hedit]

/-- The keys before the end of a line are taken one by one, if all that is to be shown is shown.
By induction on the keys, from the last one. -/
theorem readLine_typed (hkeys : ∀ key ∈ keys, endsLine key = false)
    (hshown : Shows echo s (echoTexts keys) s') (rest : List KeyEvent) :
    readLine echo [] (keys.map .press ++ rest) s = readLine echo (held keys) rest s' := by
  induction keys using List.reverseRecOn generalizing s' rest with
  | nil =>
    rw [shows_nil_iff.mp hshown]
    rfl
  | append_singleton keys key ih =>
    have hbefore : ∀ key ∈ keys, endsLine key = false := fun key hkey =>
      hkeys key (List.mem_append_left _ hkey)
    have hends := hkeys key (List.mem_append_right keys (List.mem_singleton.mpr rfl))
    rw [echoTexts_concat] at hshown
    rw [List.map_append, List.append_assoc, List.map_singleton, List.singleton_append]
    -- the last key has been echoed, or ignored
    cases hedits : edits key with
    | true =>
      obtain ⟨s₁, hshown, hecho⟩ := shows_concat_iff.mp (hedits ▸ hshown)
      rw [ih hbefore hshown, readLine_edit hedits, hecho]
    | false =>
      rw [hedits, if_neg Bool.false_ne_true, List.append_nil] at hshown
      rw [ih hbefore hshown, readLine_ignored hends hedits]

/-- A line prompt ends as the line does. -/
theorem readLine_of_lineEnd {rest left : List KeyEvent}
    {result : Except OsError (Option String)} (h : LineEnd (lineText keys) rest result left)
    (s : σ) : readLine echo (held keys) rest s = (result, left, s) := by
  cases h with
  | enter => rw [← ofList_reverse_held]; rfl
  | esc | closed | failure | crash => rfl

/-! ### The whole course -/

variable {events left : List KeyEvent} {result : Except OsError (Option String)}
  {calls : List String}

/-- **A line prompt takes its course.** -/
theorem readLine_of_lineCourse (h : LineCourse echo s events result left s' calls) :
    readLine echo [] events s = (result, left, s') := by
  cases h with
  | ended hkeys hshown hend => rw [readLine_typed hkeys hshown, readLine_of_lineEnd hend]
  | echoFailed hkeys hshown hedits hfailed =>
    rw [readLine_typed hkeys hshown, readLine_edit hedits, hfailed]

/-- There is always a course.  By induction on the events to come, for all keys before them. -/
theorem exists_lineCourse_after (rest : List KeyEvent) :
    ∀ (keys : List Key) (s₁ : σ), (∀ key ∈ keys, endsLine key = false) →
      Shows echo s (echoTexts keys) s₁ → ∃ result left s' calls,
        LineCourse echo s (keys.map .press ++ rest) result left s' calls := by
  induction rest with
  | nil => exact fun keys s₁ hkeys hshown => ⟨_, _, _, _, .ended hkeys hshown .closed⟩
  | cons event rest ih =>
    intro keys s₁ hkeys hshown
    cases event with
    | failure cause => exact ⟨_, _, _, _, .ended hkeys hshown (.failure cause rest)⟩
    | crash => exact ⟨_, _, _, _, .ended hkeys hshown (.crash rest)⟩
    | press key =>
      cases hends : endsLine key with
      | true =>
        rcases eq_of_endsLine hends with rfl | rfl
        · exact ⟨_, _, _, _, .ended hkeys hshown (.enter rest)⟩
        · exact ⟨_, _, _, _, .ended hkeys hshown (.esc rest)⟩
      | false =>
        have hmore : ∀ k ∈ keys ++ [key], endsLine k = false := fun k hk =>
          (List.mem_append.mp hk).elim (hkeys k) fun hk => List.mem_singleton.mp hk ▸ hends
        -- a key that does not end the line makes what is typed longer
        have hnext : ∀ s₂, Shows echo s (echoTexts (keys ++ [key])) s₂ → ∃ result left s' calls,
            LineCourse echo s (keys.map .press ++ .press key :: rest) result left s' calls := by
          intro s₂ hshown
          simpa using ih (keys ++ [key]) s₂ hmore hshown
        rw [echoTexts_concat] at hnext
        -- only a key that changes the line is echoed
        cases hedits : edits key with
        | false =>
          rw [hedits, if_neg Bool.false_ne_true, List.append_nil] at hnext
          exact hnext s₁ hshown
        | true =>
          rw [hedits, if_pos rfl] at hnext
          rcases hecho : echo (lineText (keys ++ [key])) s₁ with ⟨answer, s₂⟩
          cases answer with
          | ok => exact hnext s₂ (.more hshown hecho)
          | error cause => exact ⟨_, _, _, _, .echoFailed hkeys hshown hedits hecho rest⟩

theorem exists_lineCourse (echo : String → Asked σ Unit) (events : List KeyEvent) (s : σ) :
    ∃ result left s' calls, LineCourse echo s events result left s' calls :=
  exists_lineCourse_after events [] s (fun _ hkey => nomatch hkey) .nothing

end

/-! ### The texts that are shown -/

/-- Shows a text, and notes that it was to be shown. -/
def recording (echo : String → Asked σ Unit) (text : String) : Asked (σ × List String) Unit :=
  fun s => ((echo text s.1).1, ((echo text s.1).2, s.2 ++ [text]))

section

variable {echo : String → Asked σ Unit} {s s' : σ} {events left : List KeyEvent}
  {result : Except OsError (Option String)} {calls : List String}

theorem Shows.recording {texts : List String} (h : Shows echo s texts s') :
    Shows (recording echo) (s, []) texts (s', texts) := by
  induction h with
  | nothing => exact .nothing
  | more _ htext ih => exact .more ih (by rw [TransferBoard.recording, htext])

/-- Noting the texts does not change the course. -/
theorem LineCourse.recording (h : LineCourse echo s events result left s' calls) :
    LineCourse (recording echo) (s, []) events result left (s', calls) calls := by
  cases h with
  | ended hkeys hshown hend => exact .ended hkeys hshown.recording hend
  | @echoFailed keys key cause s₁ s' hkeys hshown hedits hfailed left =>
    have hcalls : echoTexts (keys ++ [key]) = echoTexts keys ++ [lineText (keys ++ [key])] := by
      rw [echoTexts_concat, hedits, if_pos rfl]
    refine .echoFailed hkeys hshown.recording hedits ?_ left
    rw [TransferBoard.recording, hfailed, hcalls]

/-- The line that is delivered is the text of some keys. -/
theorem LineCourse.exists_lineText {line : String}
    (h : LineCourse echo s events (.ok (some line)) left s' calls) :
    ∃ keys, line = lineText keys := by
  cases h with
  | @ended keys _ _ _ _ _ _ hend =>
    cases hend with
    | enter => exact ⟨keys, rfl⟩

end

/-- **A line prompt does what its course says, and nothing else.**  Noting the texts that are to be
shown shows which ones these are; without that, all else is the same.  There is no control
character in a line that is delivered. -/
theorem readLine_iff_lineCourse (echo : String → Asked σ Unit) (events : List KeyEvent) (s : σ) :
    (∀ result left s' calls,
      readLine (recording echo) [] events (s, []) = (result, left, s', calls) ↔
        LineCourse echo s events result left s' calls) ∧
    (∀ result left s', readLine echo [] events s = (result, left, s') ↔
      ∃ calls, LineCourse echo s events result left s' calls) ∧
    ∀ line left s', readLine echo [] events s = (.ok (some line), left, s') →
      ∀ c ∈ line.toList, isControl c = false := by
  -- there is a course, and reading follows it; so it is the only one
  obtain ⟨result₀, left₀, s₀, calls₀, hcourse⟩ := exists_lineCourse echo events s
  have hread := readLine_of_lineCourse hcourse
  have hrecorded := readLine_of_lineCourse hcourse.recording
  refine ⟨fun result left s' calls => ⟨fun h => ?_, fun h => readLine_of_lineCourse h.recording⟩,
    fun result left s' => ⟨fun h => ?_, fun ⟨_, h⟩ => readLine_of_lineCourse h⟩,
    fun line left s' h => ?_⟩
  · cases hrecorded.symm.trans h
    exact hcourse
  · cases hread.symm.trans h
    exact ⟨calls₀, hcourse⟩
  · cases hread.symm.trans h
    obtain ⟨keys, rfl⟩ := hcourse.exists_lineText
    exact fun c hc => isControl_lineText hc

end TransferBoard
