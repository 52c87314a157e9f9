import Mathlib.Algebra.GroupWithZero.Nat
import TransferBoard.Proofs.Board.Frames
import TransferBoard.Proofs.Board.LateDigest
import TransferBoard.Proofs.Board.Through
import TransferBoard.Proofs.Lists

/-!
# The bytes of an entry

Producers tell the bytes of their transfers in portions, each one through the handle of its
transfer and under the lock.  Portions of many transfers arrive in any order, slots are used
again in between, and a count stops at the largest word.  The count of an entry is still the
sum of its own portions.

## Main definitions

* `updatesThrough h sections` — the portions that are told through a handle.

## Main results

* `counts_foldl` — what a list of sections does to the count of an entry.
* `entry?_run` — the count of an entry after a list of sections, from the one before.
* `finish_again` — who finishes a finished transfer changes nothing.
* `no_update_is_lost` — **over any sections**: the count is the sum.
-/

namespace TransferBoard

namespace BoardSection

/-- The bytes that a section tells through a handle. -/
def update? (h : Handle) : BoardSection → Option UInt64
  | advance h' delta _ => if h' = h then some delta else none
  | _ => none

end BoardSection

/-- The portions that sections tell through a handle, in their order. -/
def updatesThrough (h : Handle) (sections : List BoardSection) : List UInt64 :=
  sections.filterMap (BoardSection.update? h)

/-- The sum of portions, without a bound. -/
def bytesOf (portions : List UInt64) : Nat := (portions.map UInt64.toNat).sum

theorem bytesOf_perm {portions portions' : List UInt64} (h : portions.Perm portions') :
    bytesOf portions = bytesOf portions' := (h.map UInt64.toNat).sum_nat

/-- The entry has counted portions, up to the largest count, and its size is as it was. -/
def Entry.Counts (portions : List UInt64) (e e' : Entry) : Prop :=
  e'.current.toNat = min 0xFFFFFFFFFFFFFFFF (e.current.toNat + bytesOf portions) ∧
    e'.total = e.total

theorem Entry.counts_nil (e : Entry) : e.Counts [] e := by
  have := e.current.toNat_lt
  refine ⟨?_, rfl⟩
  simp only [bytesOf, List.map_nil, List.sum_nil]
  omega

theorem Entry.Counts.append {portions portions' : List UInt64} {e e' e'' : Entry}
    (h : e.Counts portions e') (h' : e'.Counts portions' e'') :
    e.Counts (portions ++ portions') e'' := by
  refine ⟨?_, h'.2.trans h.2⟩
  rw [h'.1, h.1]
  simp only [bytesOf, List.map_append, List.sum_append_nat]
  omega

theorem Entry.counts_advance (e : Entry) (delta : UInt64) (hint : Float) :
    e.Counts [delta] (e.advance delta hint) := by
  refine ⟨?_, rfl⟩
  rw [Entry.advance, toNat_addSaturating]
  simp [bytesOf]

/-- A section counts what it tells, unless it finishes the transfer. -/
theorem BoardSection.counts_editThrough {h : Handle} {sec : BoardSection}
    (hsec : sec ≠ .markFinished h) (e : Entry) :
    e.Counts (sec.update? h).toList (sec.editThrough h e) := by
  cases sec with
  | advance h' delta hint =>
    simp only [update?, editThrough, edit?]
    split
    · exact e.counts_advance delta hint
    · exact e.counts_nil
  | markFinished h' =>
    -- another entry is finished
    have hne : h' ≠ h := fun heq => hsec (heq ▸ rfl)
    simp only [update?, editThrough, edit?, if_neg hne]
    exact e.counts_nil
  | settleDigest h' result =>
    simp only [update?, editThrough, edit?]
    split
    · cases result <;> exact e.counts_nil
    · exact e.counts_nil
  | setPath h' path =>
    simp only [update?, editThrough, edit?]
    split <;> exact e.counts_nil
  | markStopped h' reason =>
    simp only [update?, editThrough, edit?]
    split <;> exact e.counts_nil
  | _ => exact e.counts_nil

/-! ### The finish of an entry -/

theorem Entry.active_finish (e : Entry) : e.finish.active = false := by
  unfold Entry.finish
  split <;> rfl

theorem Entry.current_finish (e : Entry) : e.finish.current = e.finish.total := by
  unfold Entry.finish
  split <;> rfl

theorem Entry.total_finish (e : Entry) :
    e.finish.total = if e.total = 0 then e.current else e.total := by
  unfold Entry.finish
  split <;> rfl

/-- What is complete stays as it is. -/
theorem Entry.finish_finish (e : Entry) : e.finish.finish = e.finish := by
  have hactive := e.active_finish
  have hcurrent := e.current_finish
  generalize e.finish = e' at hactive hcurrent
  cases e'
  simp only at hactive hcurrent
  subst hactive hcurrent
  unfold Entry.finish
  split <;> rfl

namespace BoardState

/-- A change that leaves the entry leaves the state. -/
theorem modify_of_fixed {s : BoardState} {h : Handle} {e : Entry} (hfinds : s.entry? h = some e)
    {f : Entry → Entry} (hf : f e = e) : s.modify h f = s := by
  simp only [modify, hfinds, hf, set_of_getElem? (getElem?_of_finds hfinds)]

theorem fitTo_fitTo (s : BoardState) (capacity : Nat) :
    (s.fitTo capacity).fitTo capacity = s.fitTo capacity := by
  unfold fitTo clampScroll Controls.clampScroll
  simp only [Controls.maxScroll, entryCount, entries, Nat.min_assoc, Nat.min_self]

end BoardState

namespace Dashboard

variable {d : Dashboard} {h : Handle}

/-! ### The entry of a handle -/

theorem counts_foldl {sections : List BoardSection} (hgoing : .markFinished h ∉ sections)
    (e : Entry) : e.Counts (updatesThrough h sections)
      (sections.foldl (fun e sec => sec.editThrough h e) e) := by
  induction sections generalizing e with
  | nil => exact e.counts_nil
  | cons sec rest ih =>
    obtain ⟨hsec, hrest⟩ := not_or.mp (mt List.mem_cons.mpr hgoing)
    have hcounts := (BoardSection.counts_editThrough (Ne.symm hsec) e).append (ih hrest _)
    have hsplit : updatesThrough h (sec :: rest) =
        (sec.update? h).toList ++ updatesThrough h rest := by
      simp only [updatesThrough, List.filterMap_cons]
      cases sec.update? h <;> rfl
    rwa [hsplit]

/-- **The count of an entry after a list of sections.**  No section in it finishes the
transfer. -/
theorem entry?_run (hdetached : d.entry? Handle.detached = none)
    (hgiven : h.generation ≤ d.state.allocations) {sections : List BoardSection}
    (hgoing : .markFinished h ∉ sections) {e : Entry}
    (hfinds : entry? (d.run sections) h = some e) :
    ∃ e₀, d.entry? h = some e₀ ∧ e₀.Counts (updatesThrough h sections) e := by
  obtain ⟨e₀, hfinds₀, rfl⟩ := entry?_edited hdetached hgiven hfinds
  exact ⟨e₀, hfinds₀, counts_foldl hgoing e₀⟩

/-- A new entry starts from the bytes that its transfer was announced with. -/
theorem entry?_track (hdetached : d.entry? Handle.detached = none) (r : EntryRequest)
    (now : Moment) :
    (d.track r now).1.generation ≤ (d.track r now).2.state.allocations ∧
      ∀ e, entry? (d.track r now).2 (d.track r now).1 = some e →
        e.current = r.initial ∧ e.total = r.total := by
  refine ⟨generation_track_le d r now, fun e hfinds => ?_⟩
  obtain ⟨slot, generation, rfl⟩ := entry?_announced hdetached r now hfinds
  exact ⟨rfl, rfl⟩

/-! ### The finish on the dashboard -/

/-- A frame right after a frame leaves the state: it has been fitted to the surface. -/
theorem redraw_redraw (d : Dashboard) (now later : Moment) :
    ((d.redraw true now).redraw true later).state = (d.redraw true now).state := by
  cases hlive : d.live with
  | false => simp only [redraw, hlive, Bool.not_false, if_true]
  | true =>
    have hlive' : (d.compose now).live = true := hlive
    rw [redraw_of_live hlive, redraw_of_live hlive', state_compose (d.compose now),
      (d.size_compose now).2, state_compose, BoardState.fitTo_fitTo]

theorem entry?_finish (d : Dashboard) {e : Entry} (hfinds : d.entry? h = some e) (now : Moment) :
    entry? (d.finish h now) h = some e.finish := by
  refine BoardState.finds_iff.mpr ⟨?_, ?_⟩
  · rw [finish, (state_redraw (d.markFinished h) true now).1, markFinished, modify,
      BoardState.slot?_modify hfinds, if_pos rfl]
  · exact (EntryEdit.finish.generation_edit e).trans (BoardState.finds_iff.mp hfinds).2

/-- **Who finishes a finished transfer changes nothing.** -/
theorem finish_again (d : Dashboard) (h : Handle) (now later : Moment) :
    ((d.finish h now).finish h later).state = (d.finish h now).state := by
  have hsame : (d.finish h now).markFinished h = d.finish h now := by
    have hstate : (d.finish h now).state.modify h Entry.finish = (d.finish h now).state := by
      cases hfinds : d.entry? h with
      | some e => exact BoardState.modify_of_fixed (d.entry?_finish hfinds now) e.finish_finish
      | none =>
        apply BoardState.modify_of_finds_none
        rw [finish, markFinished, modify, BoardState.modify_of_finds_none hfinds]
        unfold BoardState.entry?
        rw [(state_redraw d true now).1]
        exact hfinds
    rw [markFinished, modify, hstate]
  show (((d.finish h now).markFinished h).redraw true later).state = _
  rw [hsame]
  exact redraw_redraw (d.markFinished h) now later

/-- **No update is lost, told twice or told to another transfer.**  A transfer is announced on a
dashboard with any past, and producers, keys and the session use the dashboard after that, in
any order.  As long as its handle finds an entry and nobody finishes the transfer through it:

* the bytes of the entry are those it was announced with and those told through its handle, up
  to the largest count, and its size is the one it was announced with;
* another course of the same updates, in whatever order and among whatever else, leads to the
  same bytes;
* a finish makes the entry a complete one, of the announced size if that is known and of the
  bytes that were counted if not; and a second finish changes nothing. -/
theorem no_update_is_lost (surface : Surface) (interval : Nat) (past : List BoardSection)
    (r : EntryRequest) (now : Moment) (rest : List BoardSection) :
    let start := (fresh surface interval).run past
    let h := (start.track r now).1
    let d := (start.after (.track r now)).run rest
    .markFinished h ∉ rest → ∀ e, d.entry? h = some e →
      (e.current.toNat = min 0xFFFFFFFFFFFFFFFF (r.initial.toNat + bytesOf (updatesThrough h rest)) ∧
        e.total = r.total) ∧
      (∀ rest' e', .markFinished h ∉ rest' →
        entry? ((start.after (.track r now)).run rest') h = some e' →
        (updatesThrough h rest').Perm (updatesThrough h rest) → e'.current = e.current) ∧
      ∀ later, ∃ e', entry? (d.finish h later) h = some e' ∧
        e'.active = false ∧ e'.current = e'.total ∧
        e'.total = (if r.total = 0 then e.current else r.total) ∧
        ∀ again, ((d.finish h later).finish h again).state = (d.finish h later).state := by
  intro start h d hgoing e hfinds
  have hdetached := detached_finds_none_run surface interval past
  obtain ⟨hgiven, hnew⟩ := entry?_track hdetached r now
  -- the count of any course that leaves the entry unfinished; two courses are compared by it
  have hcount : ∀ rest e, .markFinished h ∉ rest →
      entry? ((start.after (.track r now)).run rest) h = some e →
      e.current.toNat = min 0xFFFFFFFFFFFFFFFF (r.initial.toNat + bytesOf (updatesThrough h rest)) ∧
        e.total = r.total := by
    intro rest e hgoing hfinds
    obtain ⟨e₀, hfinds₀, hcurrent, htotal⟩ :=
      entry?_run (detached_finds_none_after hdetached (.track r now)) hgiven hgoing hfinds
    obtain ⟨hcurrent₀, htotal₀⟩ := hnew e₀ hfinds₀
    rw [hcurrent₀] at hcurrent
    exact ⟨hcurrent, htotal.trans htotal₀⟩
  obtain ⟨hcurrent, htotal⟩ := hcount rest e hgoing hfinds
  refine ⟨⟨hcurrent, htotal⟩, ?_, ?_⟩
  · intro rest' e' hgoing' hfinds' hperm
    have hcurrent' := (hcount rest' e' hgoing' hfinds').1
    -- the sum does not depend on the order of the updates
    rw [bytesOf_perm hperm, ← hcurrent] at hcurrent'
    exact UInt64.toNat_inj.mp hcurrent'
  · intro later
    refine ⟨e.finish, d.entry?_finish hfinds later, ?_⟩
    rw [← htotal]
    refine ⟨e.active_finish, e.current_finish, e.total_finish, fun again => ?_⟩
    exact finish_again d h later again

/-- A count that reaches the largest word, among the updates of another transfer, those of a
handle whose slot has been used again, and a stop. -/
theorem updates_to_the_largest_count :
    let r : EntryRequest := { name := "a", initial := 0xFFFFFFFFFFFFFFF0, total := 5 }
    let rest : List BoardSection :=
      [.track { name := "b" } 0, .advance ⟨0, 1⟩ 8 0, .advance ⟨1, 2⟩ 7 0,
       .markStopped ⟨1, 2⟩ "cancelled", .track { name := "c" } 0, .advance ⟨0, 1⟩ 100 0,
       .advance ⟨1, 2⟩ 9 0, .markStopped ⟨0, 1⟩ "cancelled", .redraw true 0, .advance ⟨0, 1⟩ 1 0]
    let d := ((fresh (Surface.new 80 24) 0).after (.track r 0)).run rest
    ∃ e e', d.entry? ⟨0, 1⟩ = some e ∧ e.current = 0xFFFFFFFFFFFFFFFF ∧ e.total = 5 ∧
      entry? (d.finish ⟨0, 1⟩ 0) ⟨0, 1⟩ = some e' ∧ e'.active = false ∧ e'.current = 5 := by
  intro r rest d
  obtain ⟨e, hfinds⟩ : ∃ e, d.entry? ⟨0, 1⟩ = some e :=
    Option.isSome_iff_exists.mp (by decide +kernel)
  obtain ⟨⟨hcurrent, htotal⟩, -, hfinish⟩ :=
    no_update_is_lost (Surface.new 80 24) 0 [] r 0 rest (by simp [rest]) e hfinds
  obtain ⟨e', hfinds', hactive, hwhole, htotal', -⟩ := hfinish 0
  refine ⟨e, e', hfinds, ?_, htotal, hfinds', hactive, hwhole.trans htotal'⟩
  apply UInt64.toNat_inj.mp
  rw [hcurrent]
  decide +kernel

end Dashboard
end TransferBoard
