import TransferBoard.Proofs.Verify.Record

/-!
# What a conversation preserves

Whoever answers remembers something, and each question may change it.  What no question and no
calculation takes away from the memory, the whole conversation does not take away either.

## Main definitions

* `Preserves P x` — a part of a conversation preserves `P`.
* `Prompter.Preserves P` — each question of a prompter preserves `P`.
* `Prompter.Exchanges Q hashing` — each exchange of a prompter and a digester has the property
  `Q`.

## Main results

* `preserves_workflow` — **the whole conversation preserves what its questions do.**
* `exchanges_of_record` — the record has only such exchanges as the prompter and the digester
  take part in.
* `digests_of_record` — the record has the digests that the digester gives.
-/

namespace TransferBoard

section

variable {σ α : Type} {P : σ → Prop}

/-- What holds of the memory before holds of it afterwards. -/
def Preserves (P : σ → Prop) (x : σ → α × σ) : Prop := ∀ s, P s → P (x s).2

/-- Each question and each message preserves what holds of the memory. -/
structure Prompter.Preserves (P : σ → Prop) (p : Prompter σ) : Prop where
  /-- The question whether to start. -/
  confirmStart : ∀ count, TransferBoard.Preserves P (p.confirmStart count)
  /-- The question for a kind. -/
  chooseKind : ∀ f index total, TransferBoard.Preserves P (p.chooseKind f index total)
  /-- The message that a digest is being calculated. -/
  calculating : ∀ f kind, TransferBoard.Preserves P (p.calculating f kind)
  /-- The question for the expected digest. -/
  expectedDigest : ∀ f, TransferBoard.Preserves P (p.expectedDigest f)
  /-- The message what became of a file. -/
  report : ∀ f, TransferBoard.Preserves P (p.report f)
  /-- The message with the counts. -/
  summary : ∀ counts, TransferBoard.Preserves P (p.summary counts)

/-- What preserves `P` simulates itself, on memories that `P` holds of. -/
theorem Preserves.simulates {x : σ → α × σ} (h : Preserves P x) :
    Simulates (fun s t => s = t ∧ P s) x x := by
  rintro s t ⟨rfl, hs⟩
  exact ⟨rfl, rfl, h s hs⟩

theorem Prompter.Preserves.simulates {p : Prompter σ} (hp : p.Preserves P) :
    p.Simulates (fun s t => s = t ∧ P s) p where
  confirmStart count := (hp.confirmStart count).simulates
  chooseKind f index total := (hp.chooseKind f index total).simulates
  calculating f kind := (hp.calculating f kind).simulates
  expectedDigest f := (hp.expectedDigest f).simulates
  report f := (hp.report f).simulates
  summary counts := (hp.summary counts).simulates

/-- **The whole conversation preserves what its questions and its calculations do.** -/
theorem preserves_workflow {p : Prompter σ} {hashing : Hashing σ} (hp : p.Preserves P)
    (hhash : ∀ kind path, Preserves P (hashing kind path)) (files : List CompletedFile) :
    Preserves P (workflow p hashing files) := fun s hs =>
  (simulates_workflow hp.simulates (fun kind path => (hhash kind path).simulates) files s s
    ⟨rfl, hs⟩).2.2

end

/-! ### The exchanges of the record -/

section

variable {σ α : Type} {Q : Exchange → Prop} {p : Prompter σ} {hashing : Hashing σ}

/-- Each exchange that a prompter and a digester take part in has a property. -/
structure Prompter.Exchanges (Q : Exchange → Prop) (p : Prompter σ) (hashing : Hashing σ) :
    Prop where
  /-- The question whether to start. -/
  confirmStart : ∀ count s, Q (.confirmStart count (p.confirmStart count s).1)
  /-- The question for a kind. -/
  chooseKind : ∀ f index total s, Q (.chooseKind f index total (p.chooseKind f index total s).1)
  /-- The message that a digest is being calculated. -/
  calculating : ∀ f kind s, Q (.calculating f kind (p.calculating f kind s).1)
  /-- The calculation of a digest. -/
  digest : ∀ kind path s, Q (.digest kind path (hashing kind path s).1)
  /-- The question for the expected digest. -/
  expectedDigest : ∀ f s, Q (.expectedDigest f (p.expectedDigest f s).1)
  /-- The message what became of a file. -/
  report : ∀ f s, Q (.report f (p.report f s).1)
  /-- The message with the counts. -/
  summary : ∀ counts s, Q (.summary counts (p.summary counts s).1)

theorem forall_mem_snoc {past : List Exchange} {x : Exchange} (hpast : ∀ y ∈ past, Q y)
    (hx : Q x) : ∀ y ∈ past ++ [x], Q y := by
  intro y hy
  rcases List.mem_append.mp hy with hy | hy
  · exact hpast y hy
  · rwa [List.mem_singleton.mp hy]

theorem preserves_noting {exchange : Except OsError α → Exchange} {question : Asked σ α}
    (h : ∀ s, Q (exchange (question s).1)) :
    Preserves (fun s : Noted σ => ∀ x ∈ s.2, Q x) (noting exchange question) := fun s hs =>
  forall_mem_snoc hs (h s.1)

/-- **The record has only such exchanges as the prompter and the digester take part in.** -/
theorem exchanges_of_record (h : p.Exchanges Q hashing) (files : List CompletedFile) (s : σ) :
    ∀ x ∈ record p hashing files s, Q x := by
  have hasked : p.noting.Preserves fun s : Noted σ => ∀ x ∈ s.2, Q x :=
    { confirmStart := fun count => preserves_noting (h.confirmStart count)
      chooseKind := fun f index total => preserves_noting (h.chooseKind f index total)
      calculating := fun f kind => preserves_noting (h.calculating f kind)
      expectedDigest := fun f => preserves_noting (h.expectedDigest f)
      report := fun f => preserves_noting (h.report f)
      summary := fun counts => preserves_noting (h.summary counts) }
  refine preserves_workflow hasked (fun kind path s hs => ?_) files (s, []) ?_
  · exact forall_mem_snoc hs (h.digest kind path s.1)
  · exact fun x hx => absurd hx List.not_mem_nil

end

/-- The exchange is not about a digest, or the digest is the one that a digester gives. -/
def Exchange.HasDigestOf (digester : Digester) : Exchange → Prop
  | .digest kind path answer => answer = digester kind path
  | _ => True

/-- **The record has the digests that the digester gives.** -/
theorem digests_of_record {σ : Type} (p : Prompter σ) (digester : Digester)
    (files : List CompletedFile) (s : σ) :
    ∀ x ∈ record p digester.hashing files s, x.HasDigestOf digester :=
  exchanges_of_record
    { confirmStart := fun _ _ => trivial
      chooseKind := fun _ _ _ _ => trivial
      calculating := fun _ _ _ => trivial
      digest := fun _ _ _ => rfl
      expectedDigest := fun _ _ => trivial
      report := fun _ _ => trivial
      summary := fun _ _ => trivial } files s

end TransferBoard
