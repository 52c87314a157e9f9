import TransferBoard.Proofs.Copy.Calls
import TransferBoard.Proofs.Copy.Order

/-!
# Copies that are called off

A copy that does not fail ends as cancelled only when it has found the flag set, and a job is
passed over as cancelled only when the flag is set.  The flag stays set.  So in a run in which a
result says cancelled the end has been asked for.

## Main definitions

* `CopyStage.isCalledOff` — the copy is given up because the end was asked for.
* `Worker.CallsOff` — a worker gives up its copy so, or has reported a job as cancelled.
* `CopyPool.Heeds` — no worker does unless the end was asked for.

## Main results

* `isCalledOff_step` — a copy is called off in a step only if the flag is set.
* `heeds_step` — a step of a worker keeps `CopyPool.Heeds`.
* `isCancelled_of_mem_results` — a result says cancelled only if the flag is set.
-/

namespace TransferBoard

variable {batch : CopyBatch} {tools : CopyTools} {turn : Turn} {pool : CopyPool} {k : Nat}

/-- The copy is given up because the end was asked for. -/
def CopyStage.isCalledOff : CopyStage → Bool
  | discarding _ none | stopping _ none | showingStop none | ended (.ok .cancelled) => true
  | _ => false

theorem CopyStage.isCalledOff_ended {failure : Option CopyError}
    (h : (ended (givenUp failure)).isCalledOff = true) : failure = none := by
  cases failure with
  | none => rfl
  | some e => exact nomatch h

/-- **A copy is called off in a step only if the flag is set.** -/
theorem CopyPlan.isCalledOff_step {plan : CopyPlan} {w : Workshop} {stage : CopyStage}
    (h : (plan.step tools turn w stage).1.isCalledOff = true) :
    stage.isCalledOff = true ∨ w.board.isCancelled = true := by
  have hnext := plan.next_step tools turn w stage
  generalize (plan.step tools turn w stage).1 = next at h hnext
  cases hnext with
  | waits => exact .inl h
  | cancelled hflow => exact .inr (Dashboard.flow?_eq_cancelled_iff.mp hflow)
  | @discarded run failure => cases failure <;> first | exact .inl rfl | exact nomatch h
  | @stopped run failure => cases failure <;> first | exact .inl rfl | exact nomatch h
  | unstopped => obtain rfl := CopyStage.isCalledOff_ended h; exact .inl rfl
  | shownStop => obtain rfl := CopyStage.isCalledOff_ended h; exact .inl rfl
  | ended => exact .inl h
  | _ => exact nomatch h

/-- A worker gives up its copy because the end was asked for, or has reported a job as
cancelled. -/
def Worker.CallsOff (worker : Worker) : Prop :=
  (∃ index plan stage, worker.task = .copying index plan stage ∧ stage.isCalledOff = true) ∨
    ∃ index, (index, .ok .cancelled) ∈ worker.results

/-- A worker that has not called off its copy notes a result that does not say cancelled. -/
theorem Worker.CallsOff.of_note {worker : Worker} {index : Nat} {result : CopyResult}
    (h : (worker.note index result).CallsOff) : worker.CallsOff ∨ result = .ok .cancelled := by
  rcases h with ⟨i, plan, stage, htask, -⟩ | ⟨i, hmem⟩
  · exact nomatch htask
  · rcases List.mem_cons.mp hmem with hnew | hold
    · exact .inr (Prod.mk.inj hnew).2.symm
    · exact .inl (.inr ⟨i, hold⟩)

/-- A worker that has taken a job reports it as cancelled only if the flag is set. -/
theorem callsOff_beginJob {shop : Workshop} {worker : Worker} {index : Nat}
    (h : (beginJob batch shop worker index).CallsOff) :
    worker.CallsOff ∨ shop.board.isCancelled = true := by
  unfold beginJob at h
  split at h
  · exact .inl (h.of_note.resolve_right (by simp))
  split at h
  · next hcancelled => exact .inr hcancelled
  split at h
  · exact .inl h
  split at h
  · exact .inl (h.of_note.resolve_right (by simp))
  · rcases h with ⟨i, plan, stage, htask, hoff⟩ | hdone
    · cases htask
      exact nomatch hoff
    · exact .inl (.inr hdone)

namespace CopyPool

/-- No worker calls off anything unless the end was asked for. -/
def Heeds (pool : CopyPool) : Prop :=
  ∀ worker ∈ pool.workers, worker.CallsOff → pool.shop.board.isCancelled = true

theorem heeds_start (jobs : List CopyJob) (maxConcurrent : Nat) (shop : Workshop) :
    (start jobs maxConcurrent shop).Heeds := by
  intro worker hworker hoff
  rw [List.eq_of_mem_replicate hworker] at hoff
  rcases hoff with ⟨index, plan, stage, htask, -⟩ | ⟨index, hmem⟩
  · exact nomatch htask
  · exact nomatch hmem

/-- One worker changes, and the flag stays. -/
theorem Heeds.set (h : pool.Heeds) {worker worker' : Worker}
    (hk : pool.workers[k]? = some worker) {shop : Workshop}
    (hshop : pool.shop.board.isCancelled = true → shop.board.isCancelled = true)
    (hworker : worker'.CallsOff → worker.CallsOff ∨ pool.shop.board.isCancelled = true)
    (next : Nat) : Heeds ⟨pool.workers.set k worker', next, shop⟩ := by
  intro other hother hoff
  rcases List.mem_or_eq_of_mem_set hother with hmem | rfl
  · exact hshop (h other hmem hoff)
  · rcases hworker hoff with hold | hcancelled
    · exact hshop (h worker (List.mem_of_getElem? hk) hold)
    · exact hshop hcancelled

/-- **A step of a worker calls off nothing unless the end was asked for.** -/
theorem heeds_step (h : pool.Heeds) (batch : CopyBatch) (tools : CopyTools) (turn : Turn)
    (k : Nat) : (pool.step batch tools turn k).Heeds := by
  cases hk : pool.workers[k]? with
  | none =>
    have hsame : pool.step batch tools turn k = pool := by rw [step, hk]
    rw [hsame]
    exact h
  | some worker =>
    cases htask : worker.task with
    | gone =>
      rw [step_of_gone hk htask]
      exact h
    | idle =>
      -- a worker that takes a job or leaves has called off nothing
      rw [step_of_idle hk htask]
      refine h.set hk id ?_ _
      rintro (⟨index, plan, stage, htask', -⟩ | hdone)
      · have hmore : (if pool.next < batch.jobs.length then WorkerTask.taken pool.next else .gone) =
          .copying index plan stage := htask'
        split at hmore <;> cases hmore
      · exact .inl (.inr hdone)
    | taken index =>
      rw [step_of_taken hk htask]
      exact h.set hk id callsOff_beginJob _
    | copying index plan stage =>
      cases hresult : stage.result? with
      | some result =>
        obtain rfl := CopyStage.eq_ended_of_result? hresult
        rw [step_of_ended hk htask]
        refine h.set hk id (fun hoff => .inl ?_) _
        rcases hoff.of_note with hold | rfl
        · exact hold
        · exact .inl ⟨index, plan, _, htask, rfl⟩
      | none =>
        rw [step_of_copying hk htask hresult]
        refine h.set hk (fun hcancelled => ?_) ?_ _
        · exact (plan.sameFlags_step tools turn pool.shop stage).isCancelled.trans hcancelled
        · -- a stage that turns to the end has just been told of it
          rintro (⟨i, plan', stage', htask', hoff⟩ | hdone)
          · cases htask'
            rcases CopyPlan.isCalledOff_step hoff with hold | hcancelled
            · exact .inl (.inl ⟨index, plan, stage, htask, hold⟩)
            · exact .inr hcancelled
          · exact .inl (.inr hdone)

/-- **A result says cancelled only if the end was asked for.** -/
theorem Heeds.isCancelled_of_mem_results (h : pool.Heeds) {results : List CopyResult}
    (hr : pool.results? = some results) (hmem : .ok .cancelled ∈ results) :
    pool.shop.board.isCancelled = true := by
  obtain ⟨-, rfl⟩ := results?_eq_some hr
  obtain ⟨⟨index, result⟩, hnoted, rfl⟩ := List.mem_map.mp hmem
  obtain ⟨worker, hworker, hdone⟩ := mem_numbered.mp hnoted
  exact h worker hworker (.inr ⟨index, hdone⟩)

end CopyPool
end TransferBoard
