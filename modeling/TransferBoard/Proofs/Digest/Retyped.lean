import Mathlib.Data.List.Forall2
import Mathlib.Data.String.Basic
import TransferBoard.CommandLine.Request
import TransferBoard.Proofs.Digest.OfBytes
import TransferBoard.Proofs.Text.Trimmed

/-!
# Digests that are typed again

A digest that was printed is given back as the expected one, perhaps in capitals, and with
blanks that were copied along.  What is left of it by trimming has the length of the digest, by
which its kind is told, and matches the digest.

## Main definitions

* `RetypedAs text typed` — the text with letters in any case, and with blanks around it.

## Main results

* `RetypedAs.nonBlank?_eq` — trimming takes away the blanks.
* `RetypedAs.jobKind_eq`, `RetypedAs.digestsMatch` — **what is left tells the kind of the
  digest, and matches it.**
-/

namespace TransferBoard

/-- The character is the other one, or that in the other case. -/
def SameLetter (c c' : Char) : Prop := c' = c ∨ c' = c.toUpper ∨ c' = c.toLower

/-- One text is the other one with letters in any case, and with blanks around it. -/
def RetypedAs (text typed : String) : Prop :=
  ∃ before again after : String, typed = before ++ again ++ after ∧
    (∀ c ∈ before.toList, isBlank c = true) ∧ (∀ c ∈ after.toList, isBlank c = true) ∧
    List.Forall₂ SameLetter text.toList again.toList

/-! ### Hexadecimal digits -/

/-- A hexadecimal digit, in either case, is no blank, and one byte. -/
theorem sameLetter_hexDigit {n : Nat} (hn : n < 16) {c : Char} (h : SameLetter (hexDigit n) c) :
    isBlank c = false ∧ c.toLower = (hexDigit n).toLower ∧ c.utf8Size = 1 := by
  rcases h with rfl | rfl | rfl
  · revert n
    decide
  · revert n
    decide
  · revert n
    decide

theorem exists_hexDigit {bytes : List UInt8} {c : Char} (h : c ∈ (hexText bytes).toList) :
    ∃ n < 16, c = hexDigit n := by
  rw [hexText, String.toList_ofList, List.mem_flatMap] at h
  obtain ⟨b, -, h⟩ := h
  have hlt : b.toNat < 256 := b.toNat_lt
  simp only [hexByte, List.mem_cons, List.not_mem_nil, or_false] at h
  rcases h with rfl | rfl
  · exact ⟨_, by omega, rfl⟩
  · exact ⟨_, by omega, rfl⟩

/-- What is typed for the digits of a digest. -/
theorem digits_of_forall₂ {cs cs' : List Char} (hcs : ∀ c ∈ cs, ∃ n < 16, c = hexDigit n)
    (h : List.Forall₂ SameLetter cs cs') :
    (∀ c ∈ cs', isBlank c = false) ∧ cs'.map Char.toLower = cs.map Char.toLower ∧
      String.utf8Len cs' = cs.length := by
  induction h with
  | nil => exact ⟨by simp, rfl, rfl⟩
  | @cons c c' cs cs' hc _ ih =>
    obtain ⟨n, hn, rfl⟩ := hcs c List.mem_cons_self
    obtain ⟨hblank, hlower, hsize⟩ := sameLetter_hexDigit hn hc
    obtain ⟨hblanks, hlowers, hsizes⟩ := ih fun c hc => hcs c (List.mem_cons_of_mem _ hc)
    refine ⟨?_, ?_, ?_⟩
    · exact List.forall_mem_cons.mpr ⟨hblank, hblanks⟩
    · rw [List.map_cons, List.map_cons, hlower, hlowers]
    · rw [String.utf8Len_cons, hsize, hsizes, List.length_cons]

/-! ### Digests -/

theorem DigestKind.hexLength_pos (kind : DigestKind) : 0 < kind.hexLength := by
  cases kind <;> decide

namespace RetypedAs

variable {kind : DigestKind} {bytes : Bytes} {typed : String}

/-- What is left of the text by trimming is the digest with letters in any case. -/
theorem trimmed (h : RetypedAs (hexText (kind.ofBytes bytes)) typed) :
    sameUpToCase (hexText (kind.ofBytes bytes)) (trimBlank typed) = true ∧
      (trimBlank typed).utf8ByteSize = kind.hexLength := by
  obtain ⟨before, again, after, rfl, hbefore, hafter, hletters⟩ := h
  obtain ⟨hblanks, hlowers, hsize⟩ := digits_of_forall₂ (fun c hc => exists_hexDigit hc) hletters
  rw [trimBlank_padded hbefore (isTrimmed_of_no_blank hblanks) hafter]
  constructor
  · rw [sameUpToCase, hlowers]
    exact beq_self_eq_true _
  · rw [String.length_toList, kind.length_ofBytes] at hsize
    rw [← String.ofList_toList (s := again), String.utf8ByteSize_ofList, hsize]

/-- Trimming takes away the blanks, and leaves something. -/
theorem nonBlank?_eq (h : RetypedAs (hexText (kind.ofBytes bytes)) typed) :
    nonBlank? typed = some (trimBlank typed) := by
  have hsome : trimBlank typed ≠ "" := by
    intro hnone
    have hsize := h.trimmed.2
    rw [hnone, String.utf8ByteSize_empty] at hsize
    exact absurd hsize (Nat.ne_of_lt kind.hexLength_pos)
  simp only [nonBlank?, if_neg hsome]

/-- **What is left tells the kind of the digest.** -/
theorem jobKind_eq (h : RetypedAs (hexText (kind.ofBytes bytes)) typed) (source : Path) :
    jobKind none (some (trimBlank typed)) source = .ok (some kind) := by
  rw [jobKind, h.trimmed.2, DigestKind.ofHexLength?_hexLength]

/-- **What is left matches the digest.** -/
theorem digestsMatch (h : RetypedAs (hexText (kind.ofBytes bytes)) typed) :
    digestsMatch (hexText (kind.ofBytes bytes)) (trimBlank typed) = true := by
  have hdigits : IsTrimmed (hexText (kind.ofBytes bytes)).toList := by
    refine isTrimmed_of_no_blank fun c hc => ?_
    obtain ⟨n, hn, rfl⟩ := exists_hexDigit hc
    exact (sameLetter_hexDigit hn (.inl rfl)).1
  rw [TransferBoard.digestsMatch, trimBlank_trimBlank, trimBlank_of_isTrimmed hdigits]
  exact h.trimmed.1

/-- **A request for one file with such a digest is a job with its kind**, if no other kind is
asked for, nor set. -/
theorem jobs_eq (h : RetypedAs (hexText (kind.ofBytes bytes)) typed) {request : CopyRequest}
    {config : Config} {source : Path} (hsources : request.sources = [source])
    (hexpect : request.expect = [typed]) (hasked : request.kind = none)
    (hset : config.defaultDigest = none) :
    request.jobs config = .ok [{
      source := source, destDir := request.dest
      kind := some kind, expected := some (trimBlank typed) }] := by
  generalize hmade : CopyJob.mk source request.dest (some kind) (some (trimBlank typed)) = job
  have hjob : request.job none source (some typed) = .ok job := by
    simp only [CopyRequest.job, Option.bind_some, h.nonBlank?_eq, h.jobKind_eq, bind, Except.bind,
      hmade]
  have hjobs : request.jobsOf none [source] [typed] = .ok [job] := by
    simp only [CopyRequest.jobsOf, List.head?_cons, hjob, bind, Except.bind]
  have hfree : (duplicateDestinations [job]).findSome? id = none := by
    rw [duplicateDestinations, duplicatesAfter]
    cases job.destination? <;> rfl
  simp [CopyRequest.jobs, hsources, hexpect, hasked, hset, hjobs, hfree, bind, Except.bind, pure,
    Except.pure]

end RetypedAs
end TransferBoard
