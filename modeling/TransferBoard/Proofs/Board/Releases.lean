import TransferBoard.Board.Session
import TransferBoard.Proofs.Board.Frames
import TransferBoard.Proofs.Verify.Preserves

/-!
# Who gives the terminal back

What is drawn for a frame, a panel or a prompt is put into rows and shown; none of it gives the
terminal back.

## Main definitions

* `Surface.releases` — the number of times that the terminal was given back.
* `PromptScreen.Undrawn P` — drawing and showing has no part in `P`.

## Main results

* `releases_present` — drawing and showing leaves the number.
* `release_notMem_calls`, `release_notMem_panelCalls` — no frame and no panel gives the terminal
  back.
* `preserves_terminalPrompter` — and no question on the terminal does.
-/

namespace TransferBoard

namespace Surface

/-- The number of times that the terminal was given back. -/
def releases (s : Surface) : Nat := s.calls.count .release

/-- Drawing and showing gives the terminal back as often as the calls say. -/
theorem releases_present (s : Surface) (calls : List DrawCall) :
    (s.present calls).2.releases = s.releases + calls.count .release := by
  obtain ⟨ending, hending, hcalls⟩ := s.calls_present calls
  have hne : ending ≠ .release := by rcases hending with rfl | rfl <;> exact DrawCall.noConfusion
  rw [releases, releases, hcalls, List.count_cons_of_ne hne, List.count_append, List.count_reverse,
    Nat.add_comm]

theorem releases_present_of_notMem (s : Surface) {calls : List DrawCall}
    (h : .release ∉ calls) : (s.present calls).2.releases = s.releases := by
  rw [releases_present, List.count_eq_zero_of_not_mem h, Nat.add_zero]

end Surface

/-! ### Frames -/

theorem Frame.release_notMem_blocks (width : Nat) (now : Moment) (entries : List Entry) :
    ∀ top, .release ∉ Frame.blocks width now entries top := by
  induction entries with
  | nil => exact fun _ => List.not_mem_nil
  | cons e rest ih =>
    intro top hmem
    rcases List.mem_append.mp hmem with hmem | hmem
    · unfold Frame.block Frame.activeBlock Frame.endedBlock at hmem
      split at hmem
      · simp at hmem
      · split at hmem
        · simp at hmem
        · split at hmem <;> simp at hmem
    · exact ih _ hmem

theorem Frame.release_notMem_calls (s : BoardState) (width height : Nat) (now : Moment) :
    .release ∉ Frame.calls s width height now := by
  have hheader : .release ∉ Frame.header s width := by
    unfold Frame.header
    split
    simp
  have hfooter : .release ∉ Frame.footer s width height := by
    unfold Frame.footer
    split <;> simp
  have hbody : .release ∉ Frame.body s width height now := by
    rw [Frame.body, List.mem_cons, not_or]
    exact ⟨DrawCall.noConfusion, Frame.release_notMem_blocks width now _ _⟩
  rw [Frame.calls, List.mem_append, List.mem_append]
  exact fun h => h.elim (Or.elim · hheader hfooter) hbody

/-- **No redraw gives the terminal back.** -/
theorem Dashboard.releases_redraw (d : Dashboard) (forced : Bool) (now : Moment) :
    (d.redraw forced now).surface.releases = d.surface.releases := by
  rw [redraw_eq]
  split
  · rw [surface_compose]
    exact d.surface.releases_present_of_notMem (Frame.release_notMem_calls _ _ _ _)
  · rfl

/-! ### Questions on the terminal -/

theorem release_notMem_lineCalls (lines : List PanelLine) :
    ∀ row, .release ∉ lineCalls lines row := by
  induction lines with
  | nil => exact fun _ => List.not_mem_nil
  | cons line rest ih =>
    intro row
    rw [lineCalls, List.mem_cons, not_or]
    exact ⟨DrawCall.noConfusion, ih _⟩

namespace PromptScreen

theorem release_notMem_panelCalls (s : PromptScreen) (lines : List PanelLine) (hint : String) :
    .release ∉ s.panelCalls lines hint := by
  have hlines := release_notMem_lineCalls lines s.firstRow
  unfold panelCalls
  split <;> split <;> simp [hlines]

/-- What holds of a screen holds whatever is drawn on it and shown. -/
def Undrawn (P : PromptScreen → Prop) : Prop :=
  ∀ calls, .release ∉ calls → Preserves P fun s => s.present calls

section

variable {P : PromptScreen → Prop}

theorem preserves_panel (hP : Undrawn P) (lines : List PanelLine) (hint : String) :
    Preserves P (panel lines hint) := by
  intro s hs
  have hshown : P (s.present (s.panelCalls lines hint)).2 :=
    hP _ (s.release_notMem_panelCalls lines hint) s hs
  unfold panel
  split
  · next s' hs' => rwa [hs'] at hshown
  · next e s' hs' => rwa [hs'] at hshown

theorem preserves_afterPanel (hP : Undrawn P) {α : Type} {lines : List PanelLine} {hint : String}
    {question : Nat → Asked PromptScreen α} (h : ∀ row, Preserves P (question row)) :
    Preserves P (afterPanel lines hint question) := by
  intro s hs
  have hshown := preserves_panel hP lines hint s hs
  unfold afterPanel
  split
  · next e s' hs' => rwa [hs'] at hshown
  · next row s' hs' =>
    rw [hs'] at hshown
    exact h row s' hshown

theorem preserves_echoAt (hP : Undrawn P) (row : Nat) (text : String) :
    Preserves P (echoAt row text) :=
  hP _ (by simp)

end

/-- A line is typed key by key, and each echo is drawn. -/
theorem preserves_readLine {σ : Type} {P : σ → Prop} {echo : String → Asked σ Unit}
    (h : ∀ text, Preserves P (echo text)) (keys : List KeyEvent) :
    ∀ typed s, P s → P (readLine echo typed keys s).2.2 := by
  induction keys with
  | nil => exact fun _ _ hs => hs
  | cons event rest ih =>
    intro typed s hs
    cases event with
    | failure cause => exact hs
    | crash => exact hs
    | press key =>
      rw [readLine]
      split
      · exact hs
      · exact hs
      · exact ih typed s hs
      · next f _ =>
        -- the key has changed the line, which is echoed; the line goes on if that could be shown
        have hshown := h (String.ofList (f typed).reverse) s hs
        split
        · next e s' hs' => rwa [hs'] at hshown
        · next s' hs' =>
          rw [hs'] at hshown
          exact ih (f typed) s' hshown

/-! ### Questions do not give the terminal back -/

variable {n : Nat}

/-- The terminal has been given back so many times. -/
def Released (n : Nat) (s : PromptScreen) : Prop := s.surface.releases = n

theorem undrawn_released : Undrawn (Released n) := fun _ h s hs =>
  (s.surface.releases_present_of_notMem h).trans hs

theorem preserves_answerKeys {α : Type}
    (answer : List KeyEvent → Except OsError α × List KeyEvent) :
    Preserves (Released n) (answerKeys answer) := fun _ hs => hs

theorem preserves_answerLine (row : Nat) : Preserves (Released n) (answerLine row) := fun s hs =>
  preserves_readLine (preserves_echoAt undrawn_released row) s.keys [] s hs

/-- **No question on the terminal gives it back.** -/
theorem preserves_terminalPrompter : terminalPrompter.Preserves (Released n) where
  confirmStart _ := preserves_afterPanel undrawn_released fun _ => preserves_answerKeys _
  chooseKind _ _ _ := preserves_afterPanel undrawn_released fun _ => preserves_answerKeys _
  calculating _ _ := preserves_afterPanel undrawn_released fun _ _ hs => hs
  expectedDigest _ := preserves_afterPanel undrawn_released preserves_answerLine
  report _ _ hs := hs
  summary _ := preserves_afterPanel undrawn_released fun _ => preserves_answerKeys _

end PromptScreen
end TransferBoard
