import Mathlib.Data.List.Basic
import TransferBoard.Proofs.Verify.KeyAnswers

/-!
# The text of some keys

What keys make of a line can be said without a line to edit.  Some keys type a character, and each
Backspace deletes one: the nearest character before it that is not deleted yet, if there is one.
The text is what is typed and not deleted.

## Main definitions

* `typedAt keys i` — the character that the key at a position types.
* `deletedBefore keys j` — the positions of the characters deleted by the keys before a position.
* `remaining keys j` — the positions of the characters that are left of these keys.
* `lineText keys` — **the text of some keys.**
* `edits key` — the key types or deletes.

## Main results

* `getLast?_typedExcept` — a Backspace deletes the nearest of the characters that are left.
* `of_mem_deletedBefore` — what is deleted was typed before.
* `remaining_succ_backspace`, `remaining_succ` — what a key does to the characters that are left.
* `lineText_eq` — the text is what editing an empty line, key by key, gives.
* `isControl_lineText` — there is no control character in it.
-/

namespace TransferBoard

theorem eq_of_endsLine {key : Key} (h : KeyAnswers.endsLine key = true) :
    key = .enter ∨ key = .esc := by
  have hmem := of_decide_eq_true h
  rwa [List.mem_cons, List.mem_singleton] at hmem

/-- The key types a character or deletes one. -/
def edits : Key → Bool
  | .char c => !isControl c
  | .backspace => true
  | _ => false

/-- The character that the key at a position types. -/
def typedAt (keys : List Key) (i : Nat) : Option Char :=
  match keys[i]? with
  | some (.char c) => if isControl c then none else some c
  | _ => none

/-- The positions before `j` of characters that are typed and not among the deleted ones. -/
def typedExcept (keys : List Key) (deleted : List Nat) (j : Nat) : List Nat :=
  (List.range j).filter fun i => (typedAt keys i).isSome && !deleted.contains i

/-- The positions of the characters that are deleted by the keys before `j`.  A Backspace deletes
the nearest character before it that is not deleted yet. -/
def deletedBefore (keys : List Key) : Nat → List Nat
  | 0 => []
  | j + 1 =>
    if keys[j]? = some .backspace then
      (typedExcept keys (deletedBefore keys j) j).getLast?.toList ++ deletedBefore keys j
    else deletedBefore keys j

/-- The positions of the characters that are left of the keys before `j`. -/
def remaining (keys : List Key) (j : Nat) : List Nat :=
  typedExcept keys (deletedBefore keys j) j

/-- The text of some keys: the characters that they type and do not delete. -/
def lineText (keys : List Key) : String :=
  String.ofList ((remaining keys keys.length).filterMap (typedAt keys))

variable {keys : List Key} {i j : Nat}

/-! ### What is deleted -/

theorem mem_typedExcept {deleted : List Nat} :
    i ∈ typedExcept keys deleted j ↔ i < j ∧ (typedAt keys i).isSome ∧ i ∉ deleted := by
  rw [typedExcept, List.mem_filter, List.mem_range]
  simp

theorem nodup_typedExcept (keys : List Key) (deleted : List Nat) (j : Nat) :
    (typedExcept keys deleted j).Nodup := List.nodup_range.filter _

/-- What a Backspace deletes is the nearest of the characters that are left. -/
theorem getLast?_typedExcept {deleted : List Nat}
    (h : (typedExcept keys deleted j).getLast? = some i) :
    i ∈ typedExcept keys deleted j ∧ ∀ k ∈ typedExcept keys deleted j, k ≤ i := by
  obtain ⟨before, hsplit⟩ := List.getLast?_eq_some_iff.mp h
  have hsorted : (typedExcept keys deleted j).Pairwise (· < ·) := List.pairwise_lt_range.filter _
  rw [hsplit, List.pairwise_append] at hsorted
  rw [hsplit]
  refine ⟨List.mem_append_right before (List.mem_singleton.mpr rfl), fun k hk => ?_⟩
  rcases List.mem_append.mp hk with hk | hk
  · exact Nat.le_of_lt (hsorted.2.2 k hk i (List.mem_singleton.mpr rfl))
  · exact Nat.le_of_eq (List.mem_singleton.mp hk)

/-- What is deleted was typed before. -/
theorem of_mem_deletedBefore (h : i ∈ deletedBefore keys j) :
    i < j ∧ (typedAt keys i).isSome := by
  induction j with
  | zero => exact nomatch h
  | succ j ih =>
    have hbefore : i ∈ deletedBefore keys j → i < j + 1 ∧ (typedAt keys i).isSome :=
      fun h => ⟨Nat.lt_succ_of_lt (ih h).1, (ih h).2⟩
    rw [deletedBefore] at h
    split at h
    · rcases List.mem_append.mp h with hlast | hdeleted
      · obtain ⟨hmem, -⟩ := getLast?_typedExcept (Option.mem_toList.mp hlast)
        obtain ⟨hlt, htyped, -⟩ := mem_typedExcept.mp hmem
        exact ⟨Nat.lt_succ_of_lt hlt, htyped⟩
      · exact hbefore hdeleted
    · exact hbefore h

/-! ### What is left -/

/-- Without its last element a list of different elements is what comes before. -/
theorem filter_ne_getLast? {l : List Nat} (h : l.Nodup) :
    (l.filter fun i => !l.getLast?.toList.contains i) = l.dropLast := by
  rcases List.eq_nil_or_concat' l with rfl | ⟨before, last, rfl⟩
  · rfl
  · have hnew : ∀ i ∈ before, i ≠ last := fun i hi =>
      (List.nodup_append.mp h).2.2 i hi last (List.mem_singleton.mpr rfl)
    rw [List.filter_append, List.dropLast_concat, List.getLast?_concat]
    simpa using hnew

/-- A Backspace takes the last character away. -/
theorem remaining_succ_backspace (h : keys[j]? = some .backspace) :
    remaining keys (j + 1) = (remaining keys j).dropLast := by
  have hnone : typedAt keys j = none := by rw [typedAt, h]
  calc remaining keys (j + 1)
      = typedExcept keys ((remaining keys j).getLast?.toList ++ deletedBefore keys j) (j + 1) := by
        rw [remaining, deletedBefore, if_pos h]
        rfl
    _ = (remaining keys j).filter fun i => !(remaining keys j).getLast?.toList.contains i := by
        generalize (remaining keys j).getLast?.toList = last
        rw [typedExcept, List.range_succ, List.filter_append, List.filter_cons, hnone, remaining,
          typedExcept, List.filter_filter]
        simp only [Option.isSome_none, Bool.false_and, Bool.false_eq_true, if_false,
          List.filter_nil, List.append_nil]
        refine List.filter_congr fun i _ => ?_
        rw [List.contains_append, Bool.not_or]
        exact Bool.and_left_comm _ _ _
    _ = (remaining keys j).dropLast := filter_ne_getLast? (nodup_typedExcept keys _ j)

/-- Any other key adds the character that it types. -/
theorem remaining_succ (h : keys[j]? ≠ some .backspace) :
    remaining keys (j + 1) = remaining keys j ++ if (typedAt keys j).isSome then [j] else [] := by
  have hnew : (deletedBefore keys j).contains j = false := by
    rw [List.contains_eq_mem, decide_eq_false_iff_not]
    exact fun hmem => Nat.lt_irrefl j (of_mem_deletedBefore hmem).1
  rw [remaining, remaining, deletedBefore, if_neg h, typedExcept, List.range_succ,
    List.filter_append, List.filter_cons, hnew, Bool.not_false, Bool.and_true]
  rfl

/-! ### The text -/

/-- What is left of the keys before a position is what editing an empty line gives. -/
theorem filterMap_remaining (keys : List Key) (j : Nat) :
    (remaining keys j).filterMap (typedAt keys) = (keys.take j).foldl KeyAnswers.type [] := by
  induction j with
  | zero => rfl
  | succ j ih =>
    rw [List.take_add_one, List.foldl_append, ← ih]
    by_cases hback : keys[j]? = some .backspace
    · rw [remaining_succ_backspace hback, hback]
      -- every character that is left was typed, so the last one of them is dropped
      rcases List.eq_nil_or_concat' (remaining keys j) with hnil | ⟨before, last, hsplit⟩
      · rw [hnil]
        rfl
      · have hmem : last ∈ remaining keys j := by rw [hsplit]; simp
        obtain ⟨c, hc⟩ := Option.isSome_iff_exists.mp (mem_typedExcept.mp hmem).2.1
        rw [hsplit, List.dropLast_concat, List.filterMap_append]
        simp [hc, KeyAnswers.type_backspace]
    · rw [remaining_succ hback, List.filterMap_append]
      cases hkey : keys[j]? with
      | none =>
        have hnone : typedAt keys j = none := by rw [typedAt, hkey]
        rw [hnone]
        exact List.append_nil _
      | some key =>
        cases key with
        | char c =>
          have htyped : typedAt keys j = if isControl c then none else some c := by
            rw [typedAt, hkey]
          rw [Option.toList_some, List.foldl_cons, List.foldl_nil, KeyAnswers.type_char, htyped]
          cases hc : isControl c with
          | true => exact List.append_nil _
          | false => simp [htyped, hc]
        | backspace => exact absurd hkey hback
        | up | down | esc | enter | other =>
          have hnone : typedAt keys j = none := by rw [typedAt, hkey]
          rw [hnone]
          exact List.append_nil _

/-- **The text of some keys is what editing an empty line, key by key, gives.** -/
theorem lineText_eq (keys : List Key) :
    lineText keys = String.ofList (keys.foldl KeyAnswers.type []) := by
  rw [lineText, filterMap_remaining, List.take_length]

/-- There is no control character in the text of some keys. -/
theorem isControl_lineText {c : Char} (h : c ∈ (lineText keys).toList) : isControl c = false := by
  rw [lineText, String.toList_ofList] at h
  obtain ⟨i, -, hc⟩ := List.mem_filterMap.mp h
  unfold typedAt at hc
  split at hc
  · split at hc
    · exact nomatch hc
    · next hprinting =>
      obtain rfl := Option.some.inj hc
      exact Bool.not_eq_true _ ▸ hprinting
  · exact nomatch hc

example : lineText [.backspace, .char 'a', .char 'x', .up, .char 'y', .backspace, .char '\t',
    .backspace, .char 'b'] = "ab" := by decide +kernel

end TransferBoard
