import Mathlib.Algebra.GroupWithZero.Nat
import Mathlib.Data.List.Perm.Basic

/-!
# Lists in which one element changes

Workers and threads take their steps one at a time.  So in each step one element of a list
changes, and what is counted over the list changes by what that element counts.

## Main results

* `set_cases` — what is at a position after the change.
* `set_of_getElem?` — a change to what is there already is none.
* `flatMap_set_perm` — what is put together from the elements.
* `sum_map_set_congr`, `sum_map_set` — what is summed over them.
-/

namespace TransferBoard

/-- What is at a position after the change of one element. -/
theorem set_cases {α : Type} {a' b : α} {l : List α} {j k : Nat}
    (h : (l.set k a')[j]? = some b) : j = k ∧ b = a' ∨ j ≠ k ∧ l[j]? = some b := by
  rw [List.getElem?_set] at h
  split at h
  · next heq =>
    split at h
    · exact .inl ⟨heq.symm, (Option.some.inj h).symm⟩
    · exact absurd h (by simp)
  · next hne => exact .inr ⟨fun heq => hne heq.symm, h⟩

/-- A change to what is there already is none. -/
theorem set_of_getElem? {α : Type} {a : α} {l : List α} {k : Nat} (h : l[k]? = some a) :
    l.set k a = l := by
  obtain ⟨hlt, rfl⟩ := List.getElem?_eq_some_iff.mp h
  exact List.set_getElem_self hlt

/-- Setting one element adds to a flattened list what it adds to the part of that
element. -/
theorem flatMap_set_perm {α β : Type} {f : α → List β} {a a' : α} {more : List β}
    (h : (f a').Perm (more ++ f a)) :
    ∀ (l : List α) (k : Nat), l[k]? = some a →
      ((l.set k a').flatMap f).Perm (more ++ l.flatMap f) := by
  intro l
  induction l with
  | nil => intro k hk; exact absurd hk (by simp)
  | cons b l ih =>
    intro k hk
    cases k with
    | zero =>
      obtain rfl : b = a := by simpa using hk
      rw [List.set_cons_zero, List.flatMap_cons, List.flatMap_cons, ← List.append_assoc]
      exact h.append_right _
    | succ k =>
      rw [List.set_cons_succ, List.flatMap_cons, List.flatMap_cons]
      -- what is added moves in front of the part of the first element
      refine ((ih k (by simpa using hk)).append_left (f b)).trans ?_
      rw [← List.append_assoc, ← List.append_assoc]
      exact List.perm_append_comm.append_right _

/-- What a sum over the workers becomes when one of them changes, and the others count as
before. -/
theorem sum_map_set_congr {α : Type} {f g : α → Nat} {a : α} (a' : α) {l : List α} {k : Nat}
    (hk : l[k]? = some a) (hothers : ∀ (j : Nat) (b : α), j ≠ k → l[j]? = some b → g b = f b) :
    ((l.set k a').map g).sum + f a = (l.map f).sum + g a' := by
  induction l generalizing k with
  | nil => exact absurd hk (by simp)
  | cons b l ih =>
    cases k with
    | zero =>
      obtain rfl : b = a := by simpa using hk
      have hrest : l.map g = l.map f := by
        refine List.map_congr_left fun c hc => ?_
        obtain ⟨j, hj⟩ := List.mem_iff_getElem?.mp hc
        exact hothers (j + 1) c (Nat.succ_ne_zero j) (by simpa using hj)
      rw [List.set_cons_zero, List.map_cons, List.map_cons, List.sum_cons, List.sum_cons, hrest]
      omega
    | succ k =>
      have hb := hothers 0 b (Nat.zero_ne_add_one k) rfl
      have hrest := ih (k := k) (by simpa using hk) fun j c hj hc =>
        hothers (j + 1) c (fun heq => hj (Nat.succ.inj heq)) (by simpa using hc)
      rw [List.set_cons_succ, List.map_cons, List.map_cons, List.sum_cons, List.sum_cons]
      omega

/-- What a sum over a list becomes when one element changes. -/
theorem sum_map_set {α : Type} (f : α → Nat) {a : α} (a' : α) {l : List α} {k : Nat}
    (hk : l[k]? = some a) : ((l.set k a').map f).sum + f a = (l.map f).sum + f a' :=
  sum_map_set_congr a' hk fun _ _ _ _ => rfl

end TransferBoard
