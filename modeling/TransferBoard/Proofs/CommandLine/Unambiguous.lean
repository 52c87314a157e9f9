import TransferBoard.CommandLine.Request
import TransferBoard.Proofs.Copy.Duplicates

/-!
# Requests that are unambiguous

A request to copy files becomes one job for each source, if it says for each what is to be done:
which digest the copy should have, of which kind that digest is, and where the copy goes.  If it
does not, the first thing that is wrong is reported.

## Main definitions

* `CopyRequest.expectedAt`, `kindAt`, `destinationAt` — what a request says of the source with a
  number; `CopyRequest.jobAt` is the job for it.
* `CopyRequest.Unambiguous` — the digests go with sources, their kinds can be told, and no two
  destinations are one place.
* `CopyRequest.FirstFault` — the report of the first thing that is wrong.

## Main results

* `jobsOf_of_told`, `jobsOf_of_untold` — the jobs of the sources, or the first digest of no kind.
* `jobs_of_unambiguous`, `jobs_of_firstFault` — the jobs of a request, or why there are none.
* `jobs_iff_unambiguous` — **exactly the unambiguous requests have jobs.**
-/

namespace TransferBoard

/-! ### One source -/

/-- The kind of digest for a file: the one that is known for all files, or else the one whose
digests are as long as the one that is expected. -/
def toldKind (known : Option DigestKind) (expected : Option String) : Option DigestKind :=
  match known, expected with
  | some kind, _ => some kind
  | none, none => none
  | none, some digest =>
    if digest.utf8ByteSize = 32 then some .md5
    else if digest.utf8ByteSize = 64 then some .sha256 else none

/-- A digest is expected, and there is nothing to tell its kind by. -/
def Untold (known : Option DigestKind) (expected : Option String) : Prop :=
  expected ≠ none ∧ toldKind known expected = none

theorem toldKind_none (digest : String) :
    toldKind none (some digest) = DigestKind.ofHexLength? digest.utf8ByteSize := rfl

theorem jobKind_of_told {known : Option DigestKind} {expected : Option String}
    (h : ¬ Untold known expected) (source : Path) :
    jobKind known expected source = .ok (toldKind known expected) := by
  cases known with
  | some kind => rfl
  | none =>
    cases expected with
    | none => rfl
    | some digest =>
      cases htold : toldKind none (some digest) with
      | none => exact absurd ⟨nofun, htold⟩ h
      | some kind => rw [jobKind, ← toldKind_none, htold]

theorem jobKind_of_untold {known : Option DigestKind} {digest : String}
    (h : toldKind known (some digest) = none) (source : Path) :
    jobKind known (some digest) source = .error (.unknownKind digest source) := by
  cases known with
  | some kind => exact nomatch h
  | none => rw [jobKind, ← toldKind_none, h]

namespace CopyRequest

variable {r : CopyRequest} {config : Config} {known : Option DigestKind}

/-- The jobs of the sources, when all kinds can be told.  By induction on the sources, for all
digests that go with them. -/
theorem jobsOf_of_told (sources : List Path) : ∀ digests : List String,
    (∀ i, i < sources.length → ¬ Untold known ((digests[i]?).bind nonBlank?)) →
      r.jobsOf known sources digests = .ok (sources.mapIdx fun i source =>
        { source := source, destDir := r.dest
          kind := toldKind known ((digests[i]?).bind nonBlank?)
          expected := (digests[i]?).bind nonBlank? }) := by
  induction sources with
  | nil => exact fun digests _ => rfl
  | cons source sources ih =>
    intro digests h
    have hrest := ih digests.tail fun i hi => by
      rw [List.getElem?_tail]
      exact h (i + 1) (Nat.succ_lt_succ hi)
    have hkind := jobKind_of_told (h 0 (Nat.zero_lt_succ _)) source
    rw [jobsOf, job, List.head?_eq_getElem?, hkind, hrest, List.mapIdx_cons]
    simp only [List.getElem?_tail]
    rfl

/-- The first digest of no kind is reported with the source that it goes with. -/
theorem jobsOf_of_untold (sources : List Path) : ∀ (digests : List String) (i : Nat)
    (source : Path) (digest : String), sources[i]? = some source →
      (digests[i]?).bind nonBlank? = some digest → toldKind known (some digest) = none →
      (∀ j, j < i → ¬ Untold known ((digests[j]?).bind nonBlank?)) →
      r.jobsOf known sources digests = .error (.unknownKind digest source) := by
  induction sources with
  | nil => exact fun _ _ _ _ hsource => nomatch hsource
  | cons first sources ih =>
    intro digests i source digest hsource hdigest hkind hfirst
    cases i with
    | zero =>
      obtain rfl := Option.some.inj hsource
      rw [jobsOf, job, List.head?_eq_getElem?, hdigest, jobKind_of_untold hkind]
      rfl
    | succ i =>
      -- the fault is further on, and the first source has a kind
      have hrest := ih digests.tail i source digest hsource
        (by rw [List.getElem?_tail]; exact hdigest) hkind fun j hj => by
          rw [List.getElem?_tail]
          exact hfirst (j + 1) (Nat.succ_lt_succ hj)
      have htold := jobKind_of_told (hfirst 0 (Nat.zero_lt_succ _)) first
      rw [jobsOf, job, List.head?_eq_getElem?, htold, hrest]
      rfl

/-! ### A whole request -/

/-- The digest that is expected of the copy of the source with a number: trimmed, and none if only
blanks were given. -/
def expectedAt (r : CopyRequest) (i : Nat) : Option String := (r.expect[i]?).bind nonBlank?

/-- The kind of digest for the source with a number.  It is the one asked for, or else the one of
the settings, or else the one whose digests are as long as the one that is expected. -/
def kindAt (r : CopyRequest) (config : Config) (i : Nat) : Option DigestKind :=
  toldKind (r.kind.or config.defaultDigest) (r.expectedAt i)

/-- Where the source with a number goes, if it has a name. -/
def destinationAt (r : CopyRequest) (i : Nat) : Option Path :=
  (r.sources[i]?).bind fun source => source.fileName?.map r.dest.child

/-- The job for the source with a number. -/
def jobAt (r : CopyRequest) (config : Config) (i : Nat) (source : Path) : CopyJob :=
  { source := source, destDir := r.dest, kind := r.kindAt config i, expected := r.expectedAt i }

/-- A digest is expected of the copy, and its kind cannot be told. -/
def LacksKind (r : CopyRequest) (config : Config) (i : Nat) : Prop :=
  r.expectedAt i ≠ none ∧ r.kindAt config i = none

/-- The destination of the source with a number is that of an earlier one. -/
def Clashes (r : CopyRequest) (j : Nat) (dest : Path) : Prop :=
  r.destinationAt j = some dest ∧ ∃ i p, i < j ∧ r.destinationAt i = some p ∧ p.Same dest

/-- The request says for each source what is to be done. -/
structure Unambiguous (r : CopyRequest) (config : Config) : Prop where
  /-- There is a source for each digest. -/
  digests : r.expect.length ≤ r.sources.length
  /-- The kind of each digest that is expected can be told. -/
  kinds : ∀ i, r.expectedAt i ≠ none → r.kindAt config i ≠ none
  /-- No two destinations are one place. -/
  places : ∀ i j p q, i < j → r.destinationAt i = some p → r.destinationAt j = some q → ¬ p.Same q

/-- The report of the first thing that is wrong with a request: that there are too many digests,
else the first one whose kind cannot be told, else the first destination that an earlier source
has. -/
inductive FirstFault (r : CopyRequest) (config : Config) : String → Prop
  /-- There are more digests than sources. -/
  | digests (h : r.sources.length < r.expect.length) : FirstFault r config
      (toString r.expect.length ++ " --expect values given for " ++ toString r.sources.length
        ++ " sources")
  /-- The kind of a digest cannot be told, and the kinds of those before can. -/
  | kind (h : r.expect.length ≤ r.sources.length) (i : Nat) (source : Path) (digest : String)
      (hsource : r.sources[i]? = some source) (hdigest : r.expectedAt i = some digest)
      (hkind : r.kindAt config i = none) (hfirst : ∀ j, j < i → ¬ r.LacksKind config j) :
      FirstFault r config ("cannot tell the checksum kind of " ++ quotedText digest ++ " for "
        ++ source.text ++ "; pass --checksum")
  /-- A source has the destination of an earlier one, and none of those before has. -/
  | place (h : r.expect.length ≤ r.sources.length) (hkinds : ∀ i, ¬ r.LacksKind config i)
      (j : Nat) (dest : Path) (hclash : r.Clashes j dest)
      (hfirst : ∀ k p, k < j → ¬ r.Clashes k p) :
      FirstFault r config ("two sources would both be copied to " ++ dest.text)

theorem isTaken_iff_clashes {j : Nat} {dest : Path} :
    IsTaken (r.sources.mapIdx (r.jobAt config)) j dest ↔ r.Clashes j dest := by
  have hat : ∀ i, TransferBoard.destinationAt (r.sources.mapIdx (r.jobAt config)) i =
      r.destinationAt i := by
    intro i
    rw [TransferBoard.destinationAt, List.getElem?_mapIdx, Option.bind_map]
    rfl
  rw [Clashes, ← hat j]
  refine and_congr_right fun _ => ⟨?_, ?_⟩
  · rintro ⟨i, other, p, hi, hother, hp, hsame⟩
    exact ⟨i, p, hi, (hat i).symm.trans (Option.bind_eq_some_iff.mpr ⟨other, hother, hp⟩), hsame⟩
  · rintro ⟨i, p, hi, hp, hsame⟩
    obtain ⟨other, hother, hp⟩ := Option.bind_eq_some_iff.mp ((hat i).trans hp)
    exact ⟨i, other, p, hi, hother, hp, hsame⟩

/-- The first destination that is taken. -/
theorem findSome?_duplicateDestinations {jobs : List CopyJob} {j : Nat} {dest : Path}
    (h : IsTaken jobs j dest) (hfirst : ∀ k p, k < j → ¬ IsTaken jobs k p) :
    (duplicateDestinations jobs).findSome? id = some dest := by
  obtain ⟨hlt, hj⟩ := List.getElem?_eq_some_iff.mp
    (getElem?_duplicateDestinations.mpr (refusal?_iff.mpr h))
  refine List.findSome?_eq_some_iff.mpr ⟨(duplicateDestinations jobs).take j, some dest,
    (duplicateDestinations jobs).drop (j + 1), ?_, rfl, ?_⟩
  · rw [← hj, List.cons_getElem_drop_succ, List.take_append_drop]
  · intro x hx
    obtain ⟨k, hk⟩ := List.mem_iff_getElem?.mp hx
    cases x with
    | none => rfl
    | some p =>
      obtain ⟨hkj, hk⟩ := Option.ite_none_right_eq_some.mp (List.getElem?_take.symm.trans hk)
      exact absurd (refusal?_iff.mp (getElem?_duplicateDestinations.mp hk)) (hfirst k p hkj)

/-- When the digests are no more than the sources and all kinds can be told, what is left to see
is whether a destination is taken. -/
theorem jobs_of_kinds (hdigests : r.expect.length ≤ r.sources.length)
    (hkinds : ∀ i, ¬ r.LacksKind config i) :
    r.jobs config =
      match (duplicateDestinations (r.sources.mapIdx (r.jobAt config))).findSome? id with
      | some dest => .error (.sharedDestination dest)
      | none => .ok (r.sources.mapIdx (r.jobAt config)) := by
  have hjobs : r.jobsOf (r.kind.or config.defaultDigest) r.sources r.expect =
      .ok (r.sources.mapIdx (r.jobAt config)) :=
    jobsOf_of_told r.sources r.expect fun i _ => hkinds i
  rw [jobs, if_neg (Nat.not_lt.mpr hdigests), hjobs]
  rfl

/-- **An unambiguous request has a job for each source.** -/
theorem jobs_of_unambiguous (h : r.Unambiguous config) :
    r.jobs config = .ok (r.sources.mapIdx (r.jobAt config)) := by
  have hfree : (duplicateDestinations (r.sources.mapIdx (r.jobAt config))).findSome? id = none := by
    refine List.findSome?_eq_none_iff.mpr fun x hx => ?_
    obtain ⟨j, hj⟩ := List.mem_iff_getElem?.mp hx
    cases x with
    | none => rfl
    | some dest =>
      obtain ⟨hdest, i, p, hi, hp, hsame⟩ := isTaken_iff_clashes.mp
        (refusal?_iff.mp (getElem?_duplicateDestinations.mp hj))
      exact absurd hsame (h.places i j p dest hi hp hdest)
  rw [jobs_of_kinds h.digests fun i hlacks => h.kinds i hlacks.1 hlacks.2, hfree]

/-- **The first thing that is wrong is reported.** -/
theorem jobs_of_firstFault {text : String} (h : r.FirstFault config text) :
    ∃ e, r.jobs config = .error e ∧ e.message = text := by
  cases h with
  | digests h =>
    refine ⟨.surplusDigests r.expect.length r.sources.length, ?_, rfl⟩
    rw [jobs, if_pos h]
    rfl
  | kind h i source digest hsource hdigest hkind hfirst =>
    refine ⟨.unknownKind digest source, ?_, rfl⟩
    rw [kindAt, hdigest] at hkind
    rw [jobs, if_neg (Nat.not_lt.mpr h),
      jobsOf_of_untold r.sources r.expect i source digest hsource hdigest hkind hfirst]
    rfl
  | place h hkinds j dest hclash hfirst =>
    refine ⟨.sharedDestination dest, ?_, rfl⟩
    rw [jobs_of_kinds h hkinds, findSome?_duplicateDestinations (isTaken_iff_clashes.mpr hclash)
      fun k p hk htaken => hfirst k p hk (isTaken_iff_clashes.mp htaken)]

/-- A request is unambiguous, or there is a first thing that is wrong with it. -/
theorem unambiguous_or_firstFault (r : CopyRequest) (config : Config) :
    r.Unambiguous config ∨ ∃ text, r.FirstFault config text := by
  classical
  rcases Nat.lt_or_ge r.sources.length r.expect.length with hmany | hdigests
  · exact .inr ⟨_, .digests hmany⟩
  -- the faults in the order in which they are looked for; of each kind the first one is told
  by_cases hlacks : ∃ i, r.LacksKind config i
  · obtain ⟨hexpected, hkind⟩ := Nat.find_spec hlacks
    obtain ⟨digest, hdigest⟩ := Option.ne_none_iff_exists'.mp hexpected
    obtain ⟨given, hgiven, -⟩ := Option.bind_eq_some_iff.mp hdigest
    have hlt := Nat.lt_of_lt_of_le (List.getElem?_eq_some_iff.mp hgiven).1 hdigests
    exact .inr ⟨_, .kind hdigests (Nat.find hlacks) r.sources[Nat.find hlacks] digest
      (List.getElem?_eq_getElem hlt) hdigest hkind fun j hj => Nat.find_min hlacks hj⟩
  have hkinds : ∀ i, ¬ r.LacksKind config i := fun i hi => hlacks ⟨i, hi⟩
  by_cases hclashes : ∃ j dest, r.Clashes j dest
  · obtain ⟨dest, hclash⟩ := Nat.find_spec hclashes
    exact .inr ⟨_, .place hdigests hkinds (Nat.find hclashes) dest hclash
      fun k p hk hp => Nat.find_min hclashes hk ⟨p, hp⟩⟩
  · refine .inl ⟨hdigests, fun i hexpected hkind => hkinds i ⟨hexpected, hkind⟩, ?_⟩
    exact fun i j p q hij hp hq hsame => hclashes ⟨j, q, hq, i, p, hij, hp, hsame⟩

/-- **Exactly the unambiguous requests have jobs**: one for each source, in order.  Of any other
the first thing that is wrong is reported. -/
theorem jobs_iff_unambiguous (r : CopyRequest) (config : Config) :
    (∀ jobs, r.jobs config = .ok jobs ↔
      r.Unambiguous config ∧ jobs = r.sources.mapIdx (r.jobAt config)) ∧
    ∀ text, (∃ e, r.jobs config = .error e ∧ e.message = text) ↔ r.FirstFault config text := by
  refine ⟨fun jobs => ⟨fun hjobs => ?_, fun ⟨h, hall⟩ => hall ▸ jobs_of_unambiguous h⟩,
    fun text => ⟨fun ⟨e, herror, htext⟩ => ?_, jobs_of_firstFault⟩⟩
  · obtain h | ⟨text, hfault⟩ := r.unambiguous_or_firstFault config
    · exact ⟨h, Except.ok.inj (hjobs.symm.trans (jobs_of_unambiguous h))⟩
    · obtain ⟨e, herror, -⟩ := jobs_of_firstFault hfault
      exact nomatch hjobs.symm.trans herror
  · obtain h | ⟨text', hfault⟩ := r.unambiguous_or_firstFault config
    · exact nomatch herror.symm.trans (jobs_of_unambiguous h)
    · obtain ⟨e', herror', htext'⟩ := jobs_of_firstFault hfault
      obtain rfl := Except.error.inj (herror.symm.trans herror')
      exact htext ▸ htext' ▸ hfault

example :
    let digest := "00112233445566778899aabbccddeeff"
    jobs { sources := [⟨"a"⟩, ⟨"b"⟩], dest := ⟨"out"⟩, expect := [" ", digest ++ "\n"] } {} =
      .ok [{ source := ⟨"a"⟩, destDir := ⟨"out"⟩ },
        { source := ⟨"b"⟩, destDir := ⟨"out"⟩, kind := some .md5, expected := some digest }] := by
  decide +kernel

end CopyRequest
end TransferBoard
