import TransferBoard.Verify.Workflow

/-!
# Conversations side by side

The same files are verified twice, with two people who remember different things.  As long as
they answer alike, and their memories stay related, the conversations go the same way.

## Main definitions

* `Simulates R x y` — from memories related by `R`, two parts of conversations give the same
  answer, and the memories stay related.
* `Prompter.Simulates R`, `Hashing.Simulates R` — each question does, and each calculation.

## Main results

* `Simulates.bind` — one part after the other.
* `simulates_workflow` — **the whole conversations simulate each other, if their questions and
  calculations do.**
-/

namespace TransferBoard

section

variable {σ α β : Type}

/-! ### Parts of a conversation -/

/-- A part of a conversation goes on with the part after it, unless it has failed. -/
theorem bind_talk (x : Talk σ α) (f : α → Talk σ β) (s : σ) :
    (x >>= f) s =
      match x s with
      | (.ok a, s') => f a s'
      | (.error e, s') => (.error e, s') := by
  change (ExceptT.bindCont f (x s).1) (x s).2 = _
  cases x s with
  | mk r s' => cases r <;> rfl

theorem bind_talk_ok {x : Talk σ α} {s s' : σ} {a : α} (h : x s = (.ok a, s'))
    (f : α → Talk σ β) : (x >>= f) s = f a s' := by
  rw [bind_talk, h]

theorem bind_talk_error {x : Talk σ α} {s s' : σ} {e : WorkflowError} (h : x s = (.error e, s'))
    (f : α → Talk σ β) : (x >>= f) s = (.error e, s') := by
  rw [bind_talk, h]

theorem ask_of_ok {question : Asked σ α} {s s' : σ} {a : α} (h : question s = (.ok a, s')) :
    ask question s = (.ok a, s') := by
  simp only [ask, ExceptT.mk, h]

theorem ask_of_error {question : Asked σ α} {s s' : σ} {e : OsError}
    (h : question s = (.error e, s')) : ask question s = (.error (.prompt e), s') := by
  simp only [ask, ExceptT.mk, h]

end

section

variable {σ τ α β : Type} {R : σ → τ → Prop}

/-- Related memories give the same answer, and stay related. -/
def Simulates (R : σ → τ → Prop) (x : σ → α × σ) (y : τ → α × τ) : Prop :=
  ∀ s t, R s t → (x s).1 = (y t).1 ∧ R (x s).2 (y t).2

/-- Each question and each message of two prompters does. -/
structure Prompter.Simulates (R : σ → τ → Prop) (p : Prompter σ) (q : Prompter τ) : Prop where
  /-- The question whether to start. -/
  confirmStart : ∀ count, TransferBoard.Simulates R (p.confirmStart count) (q.confirmStart count)
  /-- The question for a kind. -/
  chooseKind : ∀ f index total,
    TransferBoard.Simulates R (p.chooseKind f index total) (q.chooseKind f index total)
  /-- The message that a digest is being calculated. -/
  calculating : ∀ f kind, TransferBoard.Simulates R (p.calculating f kind) (q.calculating f kind)
  /-- The question for the expected digest. -/
  expectedDigest : ∀ f, TransferBoard.Simulates R (p.expectedDigest f) (q.expectedDigest f)
  /-- The message what became of a file. -/
  report : ∀ f, TransferBoard.Simulates R (p.report f) (q.report f)
  /-- The message with the counts. -/
  summary : ∀ counts, TransferBoard.Simulates R (p.summary counts) (q.summary counts)

/-- Each calculation of two digesters does. -/
def Hashing.Simulates (R : σ → τ → Prop) (hashing : Hashing σ) (hashing' : Hashing τ) : Prop :=
  ∀ kind path, TransferBoard.Simulates R (hashing kind path) (hashing' kind path)

theorem simulates_pure (a : α) : Simulates R (pure a : Talk σ α) (pure a : Talk τ α) :=
  fun _ _ h => ⟨rfl, h⟩

theorem simulates_take (step : Except InvalidTransition α) :
    Simulates R (take step : Talk σ α) (take step : Talk τ α) := by
  intro s t h
  cases step <;> exact ⟨rfl, h⟩

theorem simulates_ask {question : Asked σ α} {question' : Asked τ α}
    (h : Simulates R question question') : Simulates R (ask question) (ask question') := by
  intro s t hst
  have hafter := h s t hst
  rcases hq : question s with ⟨answer, s'⟩
  rcases hq' : question' t with ⟨answer', t'⟩
  rw [hq, hq'] at hafter
  obtain ⟨rfl, hst'⟩ := hafter
  cases answer with
  | ok a =>
    rw [ask_of_ok hq, ask_of_ok hq']
    exact ⟨rfl, hst'⟩
  | error e =>
    rw [ask_of_error hq, ask_of_error hq']
    exact ⟨rfl, hst'⟩

theorem simulates_hash {hashing : Hashing σ} {hashing' : Hashing τ}
    (h : hashing.Simulates R hashing') (kind : DigestKind) (path : Path) :
    Simulates R (hash hashing kind path) (hash hashing' kind path) := by
  intro s t hst
  obtain ⟨hanswer, hst'⟩ := h kind path s t hst
  exact ⟨congrArg Except.ok hanswer, hst'⟩

/-- One part after the other. -/
theorem Simulates.bind {x : Talk σ α} {y : Talk τ α} {f : α → Talk σ β} {g : α → Talk τ β}
    (hxy : Simulates R x y) (hfg : ∀ a, Simulates R (f a) (g a)) :
    Simulates R (x >>= f) (y >>= g) := by
  intro s t hst
  have hafter := hxy s t hst
  rcases hxs : x s with ⟨answer, s'⟩
  rcases hyt : y t with ⟨answer', t'⟩
  rw [hxs, hyt] at hafter
  obtain ⟨rfl, hst'⟩ := hafter
  cases answer with
  | ok a =>
    rw [bind_talk_ok hxs, bind_talk_ok hyt]
    exact hfg a s' t' hst'
  | error e =>
    rw [bind_talk_error hxs, bind_talk_error hyt]
    exact ⟨rfl, hst'⟩

/-! ### The conversation -/

variable {p : Prompter σ} {q : Prompter τ} {hashing : Hashing σ} {hashing' : Hashing τ}

theorem simulates_expectedAnswer (hp : p.Simulates R q) (f : CompletedFile) :
    Simulates R (expectedAnswer p f) (expectedAnswer q f) := by
  unfold expectedAnswer
  cases f.expected with
  | some expected => exact simulates_pure _
  | none => exact simulates_ask (hp.expectedDigest f)

theorem simulates_verifyFile (hp : p.Simulates R q) (hh : hashing.Simulates R hashing')
    (f : CompletedFile) (kind : DigestKind) :
    Simulates R (verifyFile p hashing f kind) (verifyFile q hashing' f kind) := by
  refine (simulates_take _).bind fun f => (simulates_ask (hp.calculating f kind)).bind fun _ => ?_
  refine (simulates_hash hh kind f.path).bind fun answer => (simulates_take _).bind fun f => ?_
  cases f.computed with
  | false => exact simulates_pure _
  | true =>
    refine (simulates_expectedAnswer hp f).bind fun expected => ?_
    cases expected with
    | none => exact simulates_pure _
    | some text => exact (simulates_take _).bind fun f => simulates_pure _

/-- The walks over some files simulate each other: by induction on the files that are left, for
all those that are done. -/
theorem simulates_verifyFiles (hp : p.Simulates R q) (hh : hashing.Simulates R hashing')
    (total : Nat) (rest : List CompletedFile) :
    ∀ done, Simulates R (verifyFiles p hashing total done rest)
      (verifyFiles q hashing' total done rest) := by
  induction rest with
  | nil => intro done; exact (simulates_ask (hp.summary _)).bind fun _ => simulates_pure _
  | cons f rest ih =>
    intro done
    refine (simulates_ask (hp.chooseKind f _ total)).bind fun choice => ?_
    cases choice with
    | none => exact simulates_pure _
    | some kind =>
      refine (simulates_verifyFile hp hh f kind).bind fun verified => ?_
      obtain ⟨goOn, f'⟩ := verified
      cases goOn with
      | false => exact simulates_pure _
      | true => exact (simulates_ask (hp.report f')).bind fun _ => ih _

/-- **The whole conversations simulate each other, if their questions and calculations do.** -/
theorem simulates_workflow (hp : p.Simulates R q) (hh : hashing.Simulates R hashing')
    (files : List CompletedFile) :
    Simulates R (workflow p hashing files) (workflow q hashing' files) := by
  unfold workflow
  split
  · exact simulates_pure _
  · refine (simulates_ask (hp.confirmStart _)).bind fun choice => ?_
    match choice with
    | none => exact simulates_pure _
    | some false => exact simulates_pure _
    | some true => exact simulates_verifyFiles hp hh _ _ _

end

end TransferBoard
