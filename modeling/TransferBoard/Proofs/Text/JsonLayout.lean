import TransferBoard.Text.Json

/-!
# A JSON text stands for one value

A text that holds a value is read from its start.  Its first character tells the kind of the
value, an escape tells the character that it stands for, and a number ends where something else
than a digit comes.  So a value ends at the same place however it is read, and no two values are
laid out as the same text.

## Main definitions

* `EndsValue rest` — this may come after a value: nothing, a comma, or the end of the line.
* `linesAfter` — what comes after the first line between two brackets.
* `JsonValue.kind`, `firstKind` — the kind of a value, and what the first character tells of it.

## Main results

* `quotedChar_append_inj`, `quoted_append_inj` — where a character and a text in quotes end.
* `JsonValue.prettyAt_append_inj` — where a value ends.
* `JsonValue.pretty_injective` — **a text stands for one value.**
-/

namespace TransferBoard

/-! ### Texts in quotes -/

section Quotes

variable {rest rest' : List Char}

/-- The character that a letter after a backslash stands for. -/
def unescaped (letter : Char) : Char :=
  if letter = 'n' then '\n'
  else if letter = 'r' then '\r'
  else if letter = 't' then '\t'
  else if letter = 'b' then Char.ofNat 8
  else if letter = 'f' then Char.ofNat 12
  else letter

/-- A character stands for itself, or is escaped by a letter or by its code. -/
theorem quotedChar_cases (c : Char) :
    (quotedChar c = [c] ∧ c ≠ '"' ∧ c ≠ '\\') ∨
    (∃ letter, quotedChar c = ['\\', letter] ∧ letter ≠ 'u' ∧ unescaped letter = c) ∨
    (quotedChar c = '\\' :: 'u' :: hexFour c.toNat ∧ c.toNat < 32) := by
  -- the two escapes that are told by their code
  have hcode : ∀ n, c.toNat = n → Char.ofNat n = c := by
    rintro n rfl
    exact Char.ofNat_toNat c
  unfold quotedChar
  split
  · exact .inr (.inl ⟨_, rfl, by decide, by subst_vars; rfl⟩)
  split
  · exact .inr (.inl ⟨_, rfl, by decide, by subst_vars; rfl⟩)
  split
  · exact .inr (.inl ⟨_, rfl, by decide, by subst_vars; rfl⟩)
  split
  · exact .inr (.inl ⟨_, rfl, by decide, by subst_vars; rfl⟩)
  split
  · exact .inr (.inl ⟨_, rfl, by decide, by subst_vars; rfl⟩)
  split
  · next h => exact .inr (.inl ⟨_, rfl, by decide, hcode 8 h⟩)
  split
  · next h => exact .inr (.inl ⟨_, rfl, by decide, hcode 12 h⟩)
  split
  · next h => exact .inr (.inr ⟨rfl, h⟩)
  · next hquote hslash _ _ _ _ _ _ => exact .inl ⟨rfl, hquote, hslash⟩

theorem length_hexFour : ∀ n < 32, (hexFour n).length = 4 := by decide +kernel

theorem hexFour_inj : ∀ m < 32, ∀ n < 32, hexFour m = hexFour n → m = n := by decide +kernel

/-- A quote never stands where a character does. -/
theorem quotedChar_append_ne_quote (c : Char) : quotedChar c ++ rest ≠ '"' :: rest' := by
  rcases quotedChar_cases c with ⟨hself, hquote, -⟩ | ⟨letter, hletter, -⟩ | ⟨hcode, -⟩
  · rw [hself]
    simp [hquote]
  · simp [hletter]
  · simp [hcode]

/-- **Where a character ends.** -/
theorem quotedChar_append_inj {c d : Char} (h : quotedChar c ++ rest = quotedChar d ++ rest') :
    c = d ∧ rest = rest' := by
  rcases quotedChar_cases c with ⟨hc, -, hslash⟩ | ⟨letter, hc, hu, rfl⟩ | ⟨hc, hlow⟩ <;>
    rcases quotedChar_cases d with ⟨hd, -, hslash'⟩ | ⟨letter', hd, hu', rfl⟩ | ⟨hd, hlow'⟩ <;>
    rw [hc, hd] at h
  -- the first character tells an escape from a character that stands for itself, and the second
  -- one tells the escapes from each other
  · simpa using h
  · simp [hslash] at h
  · simp [hslash] at h
  · simp [Ne.symm hslash'] at h
  · obtain ⟨rfl, rfl⟩ : letter = letter' ∧ rest = rest' := by simpa using h
    exact ⟨rfl, rfl⟩
  · simp [hu] at h
  · simp [Ne.symm hslash'] at h
  · simp [Ne.symm hu'] at h
  · simp only [List.cons_append, List.cons.injEq, true_and] at h
    have hlength : (hexFour c.toNat).length = (hexFour d.toNat).length := by
      rw [length_hexFour _ hlow, length_hexFour _ hlow']
    obtain ⟨hcodes, hrest⟩ := List.append_inj h hlength
    exact ⟨Char.toNat_inj.mp (hexFour_inj _ hlow _ hlow' hcodes), hrest⟩

theorem flatMap_quotedChar_append_inj {cs : List Char} : ∀ {ds : List Char},
    cs.flatMap quotedChar ++ '"' :: rest = ds.flatMap quotedChar ++ '"' :: rest' →
      cs = ds ∧ rest = rest' := by
  induction cs with
  | nil =>
    intro ds h
    cases ds with
    | nil => simpa using h
    | cons d ds =>
      rw [List.flatMap_cons, List.append_assoc] at h
      -- a quote ends the text, and no character is written with a quote first
      exact absurd h.symm (quotedChar_append_ne_quote d)
  | cons c cs ih =>
    intro ds h
    cases ds with
    | nil =>
      rw [List.flatMap_cons, List.append_assoc] at h
      exact absurd h (quotedChar_append_ne_quote c)
    | cons d ds =>
      rw [List.flatMap_cons, List.flatMap_cons, List.append_assoc, List.append_assoc] at h
      obtain ⟨rfl, hnext⟩ := quotedChar_append_inj h
      obtain ⟨rfl, rfl⟩ := ih hnext
      exact ⟨rfl, rfl⟩

theorem toList_quoted (s : String) :
    (quoted s).toList = '"' :: (s.toList.flatMap quotedChar ++ ['"']) := by
  have hquote : "\"".toList = ['"'] := rfl
  simp only [quoted, String.toList_append, String.toList_ofList, hquote, List.nil_append,
    List.cons_append]

/-- **Where a text in quotes ends.** -/
theorem quoted_append_inj {s t : String}
    (h : (quoted s).toList ++ rest = (quoted t).toList ++ rest') : s = t ∧ rest = rest' := by
  rw [toList_quoted, toList_quoted] at h
  simp only [List.cons_append, List.append_assoc, List.nil_append, List.cons.injEq, true_and] at h
  obtain ⟨htexts, hrest⟩ := flatMap_quotedChar_append_inj h
  exact ⟨String.toList_inj.mp htexts, hrest⟩

end Quotes

/-! ### What comes after a value -/

/-- This may come after a value: nothing, a comma, or the end of the line. -/
def EndsValue (rest : List Char) : Prop := ∀ c, rest.head? = some c → c = ',' ∨ c = '\n'

theorem EndsValue.nil : EndsValue [] := nofun

theorem EndsValue.head_not_digit {rest : List Char} (h : EndsValue rest) :
    rest.takeWhile Char.isDigit = [] := by
  cases rest with
  | nil => rfl
  | cons c rest =>
    rcases h c rfl with rfl | rfl <;> rfl

/-- A number ends where something else than a digit comes. -/
theorem toString_append_inj {m n : Nat} {rest rest' : List Char} (hrest : EndsValue rest)
    (hrest' : EndsValue rest')
    (h : (toString m).toList ++ rest = (toString n).toList ++ rest') : m = n ∧ rest = rest' := by
  have hdigits : ∀ n : Nat, (toString n).toList = Nat.toDigits 10 n := fun n =>
    String.toList_ofList
  have hread : ∀ (n : Nat) (rest : List Char), EndsValue rest →
      (Nat.toDigits 10 n ++ rest).takeWhile Char.isDigit = Nat.toDigits 10 n := by
    intro n rest hrest
    rw [List.takeWhile_append_of_pos fun c hc =>
      Nat.isDigit_of_mem_toDigits (by decide) (by decide) hc, hrest.head_not_digit,
      List.append_nil]
  rw [hdigits, hdigits] at h
  have hsame : Nat.toDigits 10 m = Nat.toDigits 10 n := by
    rw [← hread m rest hrest, h, hread n rest' hrest']
  refine ⟨?_, ?_⟩
  · rw [← Nat.ofDigitChars_ten_toDigits (n := m), hsame, Nat.ofDigitChars_ten_toDigits]
  · rw [hsame] at h
    exact List.append_cancel_left h

/-! ### Lines between brackets -/

/-- What comes after the first line between two brackets: a comma and a line for each of the
others, and the second bracket on a line of its own. -/
def linesAfter (right : String) (level : Nat) : List String → List Char
  | [] => '\n' :: ((indentation level).toList ++ right.toList)
  | line :: lines =>
    ',' :: '\n' :: ((indentation (level + 1)).toList ++
      (line.toList ++ linesAfter right level lines))

theorem linesAfter_ends (right : String) (level : Nat) (lines : List String) (rest : List Char) :
    EndsValue (linesAfter right level lines ++ rest) := by
  intro c hc
  cases lines with
  | nil => exact .inr (Option.some.inj hc).symm
  | cons line lines => exact .inl (Option.some.inj hc).symm

theorem toList_bracketed_nil (left right : String) (level : Nat) :
    (bracketed left right level []).toList = left.toList ++ right.toList := by
  rw [bracketed, if_pos rfl, String.toList_append]

theorem toList_bracketed_cons (left right : String) (level : Nat) (line : String)
    (lines : List String) :
    (bracketed left right level (line :: lines)).toList =
      left.toList ++ '\n' :: ((indentation (level + 1)).toList ++
        (line.toList ++ linesAfter right level lines)) := by
  rw [bracketed, if_neg (List.cons_ne_nil line lines)]
  suffices hlines : ∀ line : String,
      ((",\n".intercalate ((line :: lines).map fun line => indentation (level + 1) ++ line))
        ++ "\n" ++ indentation level ++ right).toList =
      (indentation (level + 1)).toList ++ (line.toList ++ linesAfter right level lines) by
    have hline := hlines line
    simp only [String.toList_append, List.append_assoc] at hline ⊢
    rw [hline]
    rfl
  -- by induction on the lines that come after a comma
  induction lines with
  | nil =>
    intro line
    simp only [List.map_cons, List.map_nil, String.intercalate_singleton, String.toList_append,
      List.append_assoc, linesAfter]
    rfl
  | cons next lines ih =>
    intro line
    have hnext := ih next
    rw [List.map_cons] at hnext
    rw [List.map_cons, List.map_cons, String.intercalate_cons_cons]
    simp only [String.toList_append, List.append_assoc] at hnext ⊢
    rw [hnext]
    rfl

/-! ### Values -/

namespace JsonValue

/-- The kinds of values. -/
def kind : JsonValue → Nat
  | null => 0
  | bool _ => 1
  | num _ => 2
  | str _ => 3
  | arr _ => 4
  | obj _ => 5

/-- What the first character tells of the kind. -/
def firstKind (c : Char) : Nat :=
  if c.isDigit then 2
  else if c = 'n' then 0
  else if c = '"' then 3
  else if c = '[' then 4
  else if c = '\x7b' then 5
  else 1

/-- **The first character tells the kind of a value.** -/
theorem head?_prettyAt (level : Nat) (v : JsonValue) :
    ((prettyAt level v).toList.head?).map firstKind = some v.kind := by
  -- a bracket comes first, whether there are lines after it or not
  have hbracketed : ∀ left right lines, (left.toList.head?).isSome →
      (bracketed left right level lines).toList.head? = left.toList.head? := by
    intro left right lines hleft
    obtain ⟨c, hc⟩ := Option.isSome_iff_exists.mp hleft
    cases lines with
    | nil => rw [toList_bracketed_nil, List.head?_append, hc]; rfl
    | cons line lines => rw [toList_bracketed_cons, List.head?_append, hc]; rfl
  cases v with
  | null => simp only [prettyAt]; decide
  | bool b => cases b <;> simp only [prettyAt] <;> decide
  | num n =>
    have hdigits : (toString n).toList = Nat.toDigits 10 n := String.toList_ofList
    simp only [prettyAt]
    rw [hdigits]
    cases hn : Nat.toDigits 10 n with
    | nil => exact absurd hn (List.ne_nil_of_length_pos Nat.length_toDigits_pos)
    | cons c cs =>
      -- a number has a digit, and nothing else
      have hc : c.isDigit = true := Nat.isDigit_of_mem_toDigits (b := 10) (n := n) (by decide)
        (by decide) (by rw [hn]; exact List.mem_cons_self)
      simp [firstKind, hc, kind]
  | str s =>
    simp only [prettyAt]
    rw [toList_quoted]
    rfl
  | arr items =>
    simp only [prettyAt]
    rw [hbracketed _ _ _ (by decide)]
    rfl
  | obj fields =>
    simp only [prettyAt]
    rw [hbracketed _ _ _ (by decide)]
    rfl

theorem kind_eq_of_append {level : Nat} {v w : JsonValue} {rest rest' : List Char}
    (h : (prettyAt level v).toList ++ rest = (prettyAt level w).toList ++ rest') :
    v.kind = w.kind := by
  have hhead : ∀ v rest, (((prettyAt level v).toList ++ rest).head?).map firstKind =
      some v.kind := by
    intro v rest
    have hv := head?_prettyAt level v
    obtain ⟨c, hc, -⟩ := Option.map_eq_some_iff.mp hv
    rw [List.head?_append, hc]
    rw [hc] at hv
    exact hv
  exact Option.some.inj (by rw [← hhead v rest, h, hhead w rest'])

/-- Two brackets with nothing between them, and two with lines between them. -/
theorem bracketed_nil_ne_cons {left right : String} {level : Nat} {line : String}
    {lines : List String} {rest rest' : List Char} (hright : right.toList.head? ≠ some '\n')
    (hsome : right ≠ "") :
    (bracketed left right level []).toList ++ rest ≠
      (bracketed left right level (line :: lines)).toList ++ rest' := by
  intro h
  rw [toList_bracketed_nil, toList_bracketed_cons, List.append_assoc, List.append_assoc,
    List.cons_append] at h
  have htail := List.append_cancel_left h
  cases hlist : right.toList with
  | nil => exact hsome (String.toList_inj.mp hlist)
  | cons c cs =>
    rw [hlist] at hright htail
    exact hright (by rw [List.head?_cons, (List.cons.inj htail).1])

theorem bracketed_cons_inj {left right : String} {level : Nat} {line line' : String}
    {lines lines' : List String} {rest rest' : List Char}
    (h : (bracketed left right level (line :: lines)).toList ++ rest =
      (bracketed left right level (line' :: lines')).toList ++ rest') :
    line.toList ++ (linesAfter right level lines ++ rest) =
      line'.toList ++ (linesAfter right level lines' ++ rest') := by
  rw [toList_bracketed_cons, toList_bracketed_cons] at h
  simpa only [List.append_assoc, List.cons_append, List.append_cancel_left_eq, List.cons.injEq,
    true_and] using h

theorem linesAfter_cons_inj {right : String} {level : Nat} {line line' : String}
    {lines lines' : List String} {rest rest' : List Char}
    (h : linesAfter right level (line :: lines) ++ rest =
      linesAfter right level (line' :: lines') ++ rest') :
    line.toList ++ (linesAfter right level lines ++ rest) =
      line'.toList ++ (linesAfter right level lines' ++ rest') := by
  simpa only [linesAfter, List.append_assoc, List.cons_append, List.append_cancel_left_eq,
    List.cons.injEq, true_and] using h

theorem linesAfter_nil_inj {right : String} {level : Nat} {rest rest' : List Char}
    (h : linesAfter right level [] ++ rest = linesAfter right level [] ++ rest') : rest = rest' :=
  List.append_cancel_left h

theorem linesAfter_nil_ne_cons {right : String} {level : Nat} {line : String}
    {lines : List String} {rest rest' : List Char} :
    linesAfter right level [] ++ rest ≠ linesAfter right level (line :: lines) ++ rest' := by
  intro h
  exact absurd (List.cons.inj h).1 (by decide)

mutual

/-- **Where a value ends.** -/
theorem prettyAt_append_inj (level : Nat) {rest rest' : List Char} (hrest : EndsValue rest)
    (hrest' : EndsValue rest') : ∀ v w : JsonValue,
      (prettyAt level v).toList ++ rest = (prettyAt level w).toList ++ rest' →
        v = w ∧ rest = rest'
  | null, w, h => by
    have hkind := kind_eq_of_append h
    cases w with
    | null => exact ⟨rfl, List.append_cancel_left h⟩
    | _ => exact absurd hkind (by simp [kind])
  | bool b, w, h => by
    have hkind := kind_eq_of_append h
    cases w with
    | bool b' =>
      simp only [prettyAt] at h
      -- the two words have no letter in common at their starts
      cases b <;> cases b' <;> simp at h <;> simp [h]
    | _ => exact absurd hkind (by simp [kind])
  | num n, w, h => by
    have hkind := kind_eq_of_append h
    cases w with
    | num n' =>
      simp only [prettyAt] at h
      obtain ⟨rfl, hends⟩ := toString_append_inj hrest hrest' h
      exact ⟨rfl, hends⟩
    | _ => exact absurd hkind (by simp [kind])
  | str s, w, h => by
    have hkind := kind_eq_of_append h
    cases w with
    | str s' =>
      simp only [prettyAt] at h
      obtain ⟨rfl, hends⟩ := quoted_append_inj h
      exact ⟨rfl, hends⟩
    | _ => exact absurd hkind (by simp [kind])
  | arr items, w, h => by
    have hkind := kind_eq_of_append h
    cases w with
    | arr items' =>
      simp only [prettyAt] at h
      match items, items' with
      | [], [] => exact ⟨rfl, List.append_cancel_left h⟩
      | [], v' :: rest' => exact absurd h (bracketed_nil_ne_cons (by decide) (by decide))
      | v :: rest, [] => exact absurd h.symm (bracketed_nil_ne_cons (by decide) (by decide))
      | v :: items, v' :: items' =>
        obtain ⟨rfl, hafter⟩ := prettyAt_append_inj (level + 1) (linesAfter_ends _ _ _ _)
          (linesAfter_ends _ _ _ _) v v' (bracketed_cons_inj h)
        obtain ⟨rfl, hends⟩ := prettyItems_append_inj level hrest hrest' items items' hafter
        exact ⟨rfl, hends⟩
    | _ => exact absurd hkind (by simp [kind])
  | obj fields, w, h => by
    have hkind := kind_eq_of_append h
    cases w with
    | obj fields' =>
      simp only [prettyAt] at h
      match fields, fields' with
      | [], [] => exact ⟨rfl, List.append_cancel_left h⟩
      | [], (name, v') :: rest' => exact absurd h (bracketed_nil_ne_cons (by decide) (by decide))
      | (name, v) :: rest, [] => exact absurd h.symm (bracketed_nil_ne_cons (by decide) (by decide))
      | (name, v) :: fields, (name', v') :: fields' =>
        have hline := bracketed_cons_inj h
        simp only [String.toList_append, List.append_assoc] at hline
        obtain ⟨rfl, hvalue⟩ := quoted_append_inj hline
        obtain ⟨rfl, hafter⟩ := prettyAt_append_inj (level + 1) (linesAfter_ends _ _ _ _)
          (linesAfter_ends _ _ _ _) v v' (List.append_cancel_left hvalue)
        obtain ⟨rfl, hends⟩ := prettyFields_append_inj level hrest hrest' fields fields' hafter
        exact ⟨rfl, hends⟩
    | _ => exact absurd hkind (by simp [kind])

theorem prettyItems_append_inj (level : Nat) {rest rest' : List Char} (hrest : EndsValue rest)
    (hrest' : EndsValue rest') : ∀ vs ws : List JsonValue,
      linesAfter "]" level (prettyItems (level + 1) vs) ++ rest =
        linesAfter "]" level (prettyItems (level + 1) ws) ++ rest' → vs = ws ∧ rest = rest'
  | [], [], h => ⟨rfl, linesAfter_nil_inj h⟩
  | [], w :: ws, h => absurd h linesAfter_nil_ne_cons
  | v :: vs, [], h => absurd h.symm linesAfter_nil_ne_cons
  | v :: vs, w :: ws, h => by
    obtain ⟨rfl, hafter⟩ := prettyAt_append_inj (level + 1) (linesAfter_ends _ _ _ _)
      (linesAfter_ends _ _ _ _) v w (linesAfter_cons_inj h)
    obtain ⟨rfl, hends⟩ := prettyItems_append_inj level hrest hrest' vs ws hafter
    exact ⟨rfl, hends⟩

theorem prettyFields_append_inj (level : Nat) {rest rest' : List Char} (hrest : EndsValue rest)
    (hrest' : EndsValue rest') : ∀ vs ws : List (String × JsonValue),
      linesAfter "\x7d" level (prettyFields (level + 1) vs) ++ rest =
        linesAfter "\x7d" level (prettyFields (level + 1) ws) ++ rest' → vs = ws ∧ rest = rest'
  | [], [], h => ⟨rfl, linesAfter_nil_inj h⟩
  | [], (_, _) :: _, h => absurd h linesAfter_nil_ne_cons
  | (_, _) :: _, [], h => absurd h.symm linesAfter_nil_ne_cons
  | (name, v) :: vs, (name', w) :: ws, h => by
    have hline := linesAfter_cons_inj h
    simp only [String.toList_append, List.append_assoc] at hline
    obtain ⟨rfl, hvalue⟩ := quoted_append_inj hline
    obtain ⟨rfl, hafter⟩ := prettyAt_append_inj (level + 1) (linesAfter_ends _ _ _ _)
      (linesAfter_ends _ _ _ _) v w (List.append_cancel_left hvalue)
    obtain ⟨rfl, hends⟩ := prettyFields_append_inj level hrest hrest' vs ws hafter
    exact ⟨rfl, hends⟩

end

/-- **A text stands for one value.** -/
theorem pretty_injective {v w : JsonValue} (h : v.pretty = w.pretty) : v = w :=
  (prettyAt_append_inj 0 .nil .nil v w (by
    rw [List.append_nil, List.append_nil]
    exact congrArg String.toList h)).1

end JsonValue
end TransferBoard
