import TransferBoard.Proofs.Board.Sections

/-!
# The verified mark and its digest

An entry is marked as verified when a digest was calculated for it and is the expected
one.  Five fields tell of the digest of an entry, and an outcome that is stored resets
some of them: a digest resets all five, a failure leaves the mark as it was.  So the
mark can outlive its digest, and it does so in one way only: a failure is stored in an
entry that is marked already.

## Main definitions

* `Entry.Backed` — the mark of an entry, if there is one, has its digest.
* `Dashboard.AllBacked` — that holds of every entry.
* `Dashboard.Spoils` — a section stores a failure in an entry that is marked.

## Main results

* `backed_settleDigest_ok`, `backed_settleDigest_error_iff` — what each outcome does
  to the mark.
* `allBacked_after_iff` — among sections, exactly the spoiling ones break the rule.
* `marks_have_digests_iff` — **over a whole run**: every mark has its digest at every
  moment exactly when no section of the run is a spoiling one.
* `mark_outlives_digest` — a run of calls in which the mark outlives its digest.
-/

namespace TransferBoard

/-- The mark of an entry, if there is one, has its digest: it was calculated, nothing
went wrong, and it is the expected one. -/
def Entry.Backed (e : Entry) : Prop :=
  e.verified = true → e.computed = true ∧ e.digestError = none ∧
    ∃ digest expected, e.digest = some digest ∧ e.expected = some expected ∧
      digestsMatch digest expected = true

namespace Entry

theorem backed_of_not_verified {e : Entry} (h : e.verified = false) : e.Backed := by
  intro hv
  rw [h] at hv
  exact absurd hv (by decide)

/-- A digest settles the mark, whatever the entry was like before. -/
theorem backed_settleDigest_ok (e : Entry) (digest : String) :
    (e.settleDigest (.ok digest)).Backed := by
  intro hv
  refine ⟨rfl, rfl, ?_⟩
  cases hexp : e.expected with
  | none => simp [settleDigest, hexp] at hv
  | some expected =>
    refine ⟨digest, expected, rfl, hexp, ?_⟩
    simpa [settleDigest, hexp] using hv

/-- A failure leaves the mark, but not the digest. -/
theorem backed_settleDigest_error_iff (e : Entry) (cause : DigestError) :
    (e.settleDigest (.error cause)).Backed ↔ e.verified = false := by
  constructor
  · intro h
    cases hv : e.verified with
    | false => rfl
    | true =>
      obtain ⟨hcomputed, -⟩ := h hv
      exact absurd hcomputed (by simp [settleDigest])
  · intro hv
    exact backed_of_not_verified hv

theorem backed_finish {e : Entry} (h : e.Backed) : e.finish.Backed := by
  unfold finish
  split <;> exact h

end Entry

/-- A new entry is not marked. -/
theorem EntryRequest.backed_entry (r : EntryRequest) (slot generation : Nat) (now : Moment) :
    (r.entry slot generation now).Backed :=
  Entry.backed_of_not_verified rfl

namespace Dashboard

/-- The marks of all entries have their digests. -/
def AllBacked (d : Dashboard) : Prop := ∀ i e, d.state.slot? i = some e → e.Backed

/-- The section stores a failure in an entry that is marked as verified. -/
def Spoils (d : Dashboard) (sec : BoardSection) : Prop :=
  ∃ h cause e, sec = .settleDigest h (.error cause) ∧ d.entry? h = some e ∧ e.verified = true

theorem allBacked_fresh (surface : Surface) (interval : Nat) :
    (fresh surface interval).AllBacked := by
  intro i e h
  exact absurd h (by simp [fresh, BoardState.slot?])

/-- A change of an entry keeps the rule unless it stores a failure in a marked one. -/
theorem backed_edit {d : Dashboard} {sec : BoardSection} {h : Handle} {edit : EntryEdit} {e : Entry}
    (hedit : sec.edit? = some (h, edit)) (hfinds : d.entry? h = some e) (he : e.Backed)
    (hclean : ¬ d.Spoils sec) : (edit.edit e).Backed := by
  cases sec with
  | setPath hd path => obtain ⟨rfl, rfl⟩ := Prod.mk.inj (Option.some.inj hedit); exact he
  | advance hd delta hint => obtain ⟨rfl, rfl⟩ := Prod.mk.inj (Option.some.inj hedit); exact he
  | markFinished hd =>
    obtain ⟨rfl, rfl⟩ := Prod.mk.inj (Option.some.inj hedit)
    exact Entry.backed_finish he
  | markStopped hd reason => obtain ⟨rfl, rfl⟩ := Prod.mk.inj (Option.some.inj hedit); exact he
  | settleDigest hd result =>
    obtain ⟨rfl, rfl⟩ := Prod.mk.inj (Option.some.inj hedit)
    cases result with
    | ok digest => exact e.backed_settleDigest_ok digest
    | error cause =>
      refine (e.backed_settleDigest_error_iff cause).mpr ?_
      cases hv : e.verified with
      | false => rfl
      | true => exact absurd ⟨hd, cause, e, rfl, hfinds, hv⟩ hclean
  | _ => exact absurd hedit (by simp [BoardSection.edit?])

/-- **Among sections, exactly the spoiling ones break the rule.** -/
theorem allBacked_after_iff {d : Dashboard} (hdetached : d.entry? Handle.detached = none)
    (hd : d.AllBacked) (sec : BoardSection) : (d.after sec).AllBacked ↔ ¬ d.Spoils sec := by
  constructor
  · rintro hafter ⟨h, cause, e, rfl, hfinds, hv⟩
    have hslot : (d.after (.settleDigest h (.error cause))).state.slot? h.slot =
        some (e.settleDigest (.error cause)) := by
      rw [after_of_edit? rfl, modify, BoardState.slot?_modify hfinds, if_pos rfl]
      rfl
    have := (e.backed_settleDigest_error_iff cause).mp (hafter h.slot _ hslot)
    rw [hv] at this
    exact absurd this (by decide)
  · intro hclean i e h
    rcases slot?_after hdetached h with ⟨r, now, -, -, rfl⟩ | ⟨hd', edit, e₀, hedit, hf, -, rfl⟩ | h
    · exact r.backed_entry i _ now
    · exact backed_edit hedit hf (hd hd'.slot e₀ (BoardState.finds_iff.mp hf).1) hclean
    · exact hd i e h

/-- As long as no section spoils a mark, every mark has its digest. -/
theorem allBacked_run {surface : Surface} {interval : Nat} (sections : List BoardSection) :
    ∀ past, ((fresh surface interval).run past).AllBacked →
      (∀ done sec rest, sections = done ++ sec :: rest →
        ¬ ((fresh surface interval).run (past ++ done)).Spoils sec) →
      ((fresh surface interval).run (past ++ sections)).AllBacked := by
  induction sections with
  | nil =>
    intro past hpast _
    rwa [List.append_nil]
  | cons sec rest ih =>
    -- the first section joins the past
    intro past hpast hclean
    have hfirst := hclean [] sec rest rfl
    rw [List.append_nil] at hfirst
    have hnext : ((fresh surface interval).run (past ++ [sec])).AllBacked := by
      rw [run_append]
      have hdetached := detached_finds_none_run surface interval past
      exact (allBacked_after_iff hdetached hpast sec).mpr hfirst
    have := ih (past ++ [sec]) hnext ?_
    · rwa [List.append_assoc] at this
    · intro done sec' rest' hrest
      rw [List.append_assoc]
      exact hclean (sec :: done) sec' rest' (by rw [hrest]; rfl)

/-- **When every mark has its digest.**  Take any list of sections on an empty dashboard,
which is any interleaving of calls made of it, with any answers of the digester.  At every
moment of it every entry that is marked as verified has its digest, calculated without an
error and equal to the expected one, so that no handle is told to be verified without being
told a digest, exactly when no section of it stores a failure in an entry that is marked
already. -/
theorem marks_have_digests_iff (surface : Surface) (interval : Nat) (sections : List BoardSection) :
    (∀ past rest, sections = past ++ rest →
      let d := (fresh surface interval).run past
      d.AllBacked ∧ ∀ h, d.isVerified h = true → (d.digest? h).isSome) ↔
    ∀ past sec rest, sections = past ++ sec :: rest →
      ¬ ((fresh surface interval).run past).Spoils sec := by
  constructor
  · intro hall past sec rest hsplit
    -- a section that spoils the marks would be seen at the prefix that ends with it
    have hbefore := (hall past (sec :: rest) hsplit).1
    have hafter := (hall (past ++ [sec]) rest (by rw [hsplit, List.append_assoc]; rfl)).1
    rw [run_append] at hafter
    have hdetached := detached_finds_none_run surface interval past
    exact (allBacked_after_iff hdetached hbefore sec).mp hafter
  · intro hclean past rest hsplit
    -- all prefixes are clean, and a clean section keeps the marks backed
    have hbacked : ((fresh surface interval).run past).AllBacked := by
      have := allBacked_run past [] (allBacked_fresh surface interval)
        (fun done sec more hpast => hclean done sec (more ++ rest) (by rw [hsplit, hpast]; simp))
      simpa using this
    refine ⟨hbacked, ?_⟩
    intro h hv
    unfold isVerified at hv
    unfold digest?
    cases hf : entry? ((fresh surface interval).run past) h with
    | none => rw [hf] at hv; exact absurd hv (by decide)
    | some e =>
      rw [hf] at hv
      obtain ⟨-, -, digest, -, hdigest, -⟩ := hbacked h.slot e (BoardState.finds_iff.mp hf).1 hv
      rw [Option.bind_some, hdigest]
      rfl

/-- A digester that knows the digest of one file and finds no other. -/
def knowsOne (path : Path) (digest : String) : Digester := fun _ p =>
  if p = path then .ok digest else .error (.open p .notFound)

/-- The mark outlives its digest: an entry is finished with the expected digest, is given
another file that is not there, and is finished once more. -/
theorem mark_outlives_digest :
    let request : EntryRequest :=
      { name := "a", path := some ⟨"a"⟩, kind := some .md5, expected := some "ab12" }
    let digester := knowsOne ⟨"a"⟩ "ab12"
    let h : Handle := ⟨0, 1⟩
    let created := ((fresh (Surface.new 80 24) 0).create request 0).2
    let verified := created.finishWithDigest digester id h 0
    let again := (verified.setPath h ⟨"gone"⟩).finishWithDigest digester id h 0
    (again.isVerified h = true ∧ again.digest? h = none) ∧
      ∃ e, again.entry? h = some e ∧ ¬ e.Backed := by
  refine ⟨⟨rfl, rfl⟩, ⟨_, rfl, ?_⟩⟩
  intro h
  exact absurd (h rfl).1 (by decide)

end Dashboard
end TransferBoard
