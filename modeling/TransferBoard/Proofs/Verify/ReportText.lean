import Mathlib.Data.List.Basic
import TransferBoard.Proofs.Disk.Directories
import TransferBoard.Proofs.Text.JsonLayout

/-!
# What a report tells

A report tells the status of a verification, the counts, and all that is known about each of the
files.  No two outcomes have the same report.

## Main definitions

* `Disk.HoldsReport` — a file holds the report of an outcome, and of no other one.

## Main results

* `CompletedFile.json_injective` — all that is known about a file is told.
* `WorkflowOutcome.report_injective` — **a report tells the whole outcome.**
* `WorkflowOutcome.holdsReport_save` — a report that is saved is held by its file.
-/

namespace TransferBoard

/-! ### Words -/

theorem WorkflowStatus.word_injective {s t : WorkflowStatus} (h : s.word = t.word) : s = t := by
  cases s <;> cases t <;> first | rfl | exact absurd h (by decide)

theorem DigestKind.word_injective {k l : DigestKind} (h : k.word = l.word) : k = l := by
  cases k <;> cases l <;> first | rfl | exact absurd h (by decide)

theorem JsonValue.ofText?_injective {s t : Option String}
    (h : JsonValue.ofText? s = JsonValue.ofText? t) : s = t := by
  cases s <;> cases t <;> simp_all [JsonValue.ofText?]

/-- A failure is told with its reason, and everything else with its word. -/
theorem VerifyStatus.json_injective {s t : VerifyStatus} (h : s.json = t.json) : s = t := by
  cases s <;> cases t <;> simp_all [VerifyStatus.json, VerifyStatus.word, VerifyStatus.label]

/-! ### Outcomes -/

/-- **All that is known about a file is told.** -/
theorem CompletedFile.json_injective {f g : CompletedFile} (h : f.json = g.json) : f = g := by
  simp only [CompletedFile.json, JsonValue.obj.injEq, List.cons.injEq, Prod.mk.injEq,
    JsonValue.str.injEq, JsonValue.bool.injEq, true_and, and_true] at h
  obtain ⟨hname, hpath, hkind, hdigest, hexpected, hcomputed, hverified, hstatus⟩ := h
  obtain ⟨name, ⟨path⟩, kind, digest, expected, computed, verified, status⟩ := f
  obtain ⟨name', ⟨path'⟩, kind', digest', expected', computed', verified', status'⟩ := g
  obtain rfl : kind = kind' :=
    Option.map_injective (fun _ _ => DigestKind.word_injective) (JsonValue.ofText?_injective hkind)
  obtain rfl : digest = digest' := JsonValue.ofText?_injective hdigest
  obtain rfl : expected = expected' := JsonValue.ofText?_injective hexpected
  obtain rfl : status = status' := VerifyStatus.json_injective hstatus
  dsimp only at hname hpath hcomputed hverified
  rw [hname, hpath, hcomputed, hverified]

namespace WorkflowOutcome

theorem json_injective {w w' : WorkflowOutcome} (h : w.json = w'.json) : w = w' := by
  simp only [json, VerifySummary.json, JsonValue.obj.injEq, List.cons.injEq, Prod.mk.injEq,
    JsonValue.str.injEq, JsonValue.num.injEq, JsonValue.arr.injEq, true_and, and_true] at h
  obtain ⟨hstatus, ⟨hverified, hfailed, hskipped⟩, hfiles⟩ := h
  obtain ⟨status, ⟨verified, failed, skipped⟩, files⟩ := w
  obtain ⟨status', ⟨verified', failed', skipped'⟩, files'⟩ := w'
  obtain rfl : status = status' := WorkflowStatus.word_injective hstatus
  obtain rfl : files = files' :=
    List.map_injective_iff.mpr (fun _ _ => CompletedFile.json_injective) hfiles
  dsimp only at hverified hfailed hskipped
  rw [hverified, hfailed, hskipped]

/-- **A report tells the whole outcome**: its status, the counts, and the files. -/
theorem report_injective {w w' : WorkflowOutcome} (h : w.report = w'.report) : w = w' :=
  json_injective (JsonValue.pretty_injective h)

end WorkflowOutcome

/-- A file holds the report of an outcome, and of no other one. -/
def Disk.HoldsReport (d : Disk) (path : Path) (w : WorkflowOutcome) : Prop :=
  ∃ bytes, d.bytesAt? path = some bytes ∧
    ∀ w' : WorkflowOutcome, w'.report.toUTF8.data = bytes ↔ w' = w

/-- **A report that is saved is held by its file.** -/
theorem WorkflowOutcome.holdsReport_save {w : WorkflowOutcome} {d : Disk} {path : Path}
    (h : (w.save d path).1 = .ok ()) : (w.save d path).2.HoldsReport path w := by
  obtain ⟨hbytes, -⟩ := (w.save_spec d path).2 h
  refine ⟨_, hbytes, fun w' => ⟨fun hsame => ?_, fun hw => hw ▸ rfl⟩⟩
  exact report_injective (String.toByteArray_inj.mp (ByteArray.ext hsame))

end TransferBoard
