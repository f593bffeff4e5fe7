/-
  TinyLang.Proofs.Json.Nesting — how deep the brackets of a JSON text nest.

  Nesting is counted on the characters alone: brackets and braces outside of strings open and
  close a level.  On the text of a value it is the depth of the value:

      nesting (v.write style 0) = v.depth
-/

import TinyLang.Proofs.Json.RoundTrip

namespace TinyLang.Json

/-! ## §1. Counting brackets -/

/-- The deepest level that a text reaches from a level on, inside or outside of a string. -/
def deepest : Bool → Nat → List Char → Nat
  | _, level, [] => level
  | true, level, '\\' :: _ :: text => deepest true level text
  | true, level, c :: text => if c = '"' then deepest false level text else deepest true level text
  | false, level, c :: text =>
    if c = '"' then deepest true level text
    else if c = '[' ∨ c = '{' then deepest false (level + 1) text
    else if c = ']' ∨ c = '}' then max level (deepest false (level - 1) text)
    else deepest false level text

/-- How deep the arrays and objects of a JSON text lie inside one another. -/
def nesting (text : String) : Nat := deepest false 0 text.toList

/-- The level one starts at is reached. -/
theorem le_deepest (quoted : Bool) (level : Nat) (text : List Char) :
    level ≤ deepest quoted level text := by
  fun_induction deepest quoted level text with
  | case1 => exact Nat.le_refl _
  | case2 level c text ih => exact ih
  | case3 level text _ ih => exact ih
  | case4 level c text _ _ ih => exact ih
  | case5 level text ih => exact ih
  | case6 level c text _ _ ih => omega
  | case7 level c text _ _ _ ih => exact Nat.le_max_left _ _
  | case8 level c text _ _ _ ih => exact ih

/-- Where a text opens no level of its own, the rest decides. -/
theorem deepest_eq_max (level : Nat) (rest : List Char) :
    deepest false level rest = max (level + 0) (deepest false level rest) :=
  (Nat.max_eq_right (le_deepest false level rest)).symm

/-- Whether a character outside of a string leaves the level as it is. -/
def isNeutral (c : Char) : Bool := !(c ∈ ['"', '[', '{', ']', '}'])

/-- What is no bracket and no quote changes no level. -/
theorem deepest_neutral {part : List Char} (h : part.all isNeutral = true) (level : Nat)
    (rest : List Char) : deepest false level (part ++ rest) = deepest false level rest := by
  induction part with
  | nil => rfl
  | cons c part ih =>
      rw [List.all_cons, Bool.and_eq_true] at h
      simp only [isNeutral, List.mem_cons, List.not_mem_nil, or_false, Bool.not_eq_true',
        decide_eq_false_iff_not, not_or] at h
      rw [List.cons_append, deepest, if_neg h.1.1, if_neg (by simp [h.1.2]),
        if_neg (by simp [h.1.2]), ih h.2]

theorem neutral_of_blank {blanks : List Char} (h : blanks.all isBlank = true) :
    blanks.all isNeutral = true := by
  rw [List.all_eq_true] at h ⊢
  intro c hc
  have hb := h c hc
  simp only [isBlank, Bool.or_eq_true, beq_iff_eq] at hb
  rcases hb with ((rfl | rfl) | rfl) | rfl <;> rfl

/-! ## §2. Strings -/

theorem deepest_quoted_raw {c : Char} (h₁ : c ≠ '"') (h₂ : c ≠ '\\') (level : Nat)
    (rest : List Char) : deepest true level (c :: rest) = deepest true level rest := by
  rw [deepest.eq_def]
  split
  next h => exact absurd h (by simp)
  next h => exact absurd (List.cons.inj h).1 h₂
  next h =>
    obtain ⟨rfl, rfl⟩ := List.cons.inj h
    rw [if_neg h₁]
  next h _ => exact absurd h (by decide)

theorem digitChar_ne : ∀ n < 16, Nat.digitChar n ≠ '"' ∧ Nat.digitChar n ≠ '\\' := by
  decide

/-- Inside quotes an escaped character is passed as a whole: neither a bracket nor the end of the
    text is seen in it. -/
theorem deepest_escapeChar (c : Char) (level : Nat) (rest : List Char) :
    deepest true level (escapeChar c ++ rest) = deepest true level rest := by
  unfold escapeChar
  split
  -- the short escapes are a backslash and one character, which are passed together
  iterate 7
    · simp only [List.cons_append, List.nil_append, deepest]
  · rename_i h₁ h₂ _ _ _ _ _
    split
    next =>
      -- the four digits of a long escape are passed one by one
      have hdigit : ∀ n rest, deepest true level (Nat.digitChar (n % 16) :: rest) =
          deepest true level rest := by
        intro n rest
        have hne := digitChar_ne (n % 16) (Nat.mod_lt _ (by omega))
        exact deepest_quoted_raw hne.1 hne.2 level rest
      simp only [Text.hex4, List.map_cons, List.map_nil, List.cons_append, List.nil_append, deepest]
      rw [hdigit, hdigit, hdigit, hdigit]
    next => exact deepest_quoted_raw h₁ h₂ level rest

/-- **Brackets in a text in quotes do not count.** -/
theorem deepest_quote (text : String) (level : Nat) (rest : List Char) :
    deepest false level ((quote text).toList ++ rest) = deepest false level rest := by
  -- the induction is on the characters of the text, each escaped or not
  have hinside : ∀ chars : List Char,
      deepest true level (chars.flatMap escapeChar ++ '"' :: rest) =
        deepest false level rest := by
    intro chars
    induction chars with
    | nil => simp [deepest]
    | cons c chars ih =>
        rw [List.flatMap_cons, List.append_assoc, deepest_escapeChar, ih]
  rw [toList_quote]
  simp only [List.cons_append, List.append_assoc]
  rw [deepest, if_pos rfl]
  exact hinside text.toList

/-! ## §3. Values -/

theorem neutral_integerChars (n : Int) : (integerChars n).all isNeutral = true := by
  rw [List.all_eq_true]
  intro c hc
  have hdigit : ∀ d : Char, d.isDigit = true → isNeutral d = true := by
    intro d hd
    unfold isNeutral
    rw [Bool.not_eq_true', decide_eq_false_iff_not]
    intro hmem
    simp only [List.mem_cons, List.not_mem_nil, or_false] at hmem
    rcases hmem with rfl | rfl | rfl | rfl | rfl <;> exact absurd hd (by decide)
  unfold integerChars at hc
  rcases List.mem_append.1 hc with h | h
  · split at h
    · rw [List.mem_singleton] at h
      subst h
      rfl
    · exact absurd h List.not_mem_nil
  · exact hdigit c (isDigit_toDigits _ c h)

theorem deepest_colon {style : Style} (hs : style.Blank) (level : Nat) (rest : List Char) :
    deepest false level (style.colon.toList ++ rest) = deepest false level rest := by
  obtain ⟨before, after, hcolon, hbefore, hafter⟩ := hs.colon
  refine deepest_neutral ?_ level rest
  rw [hcolon, List.all_append, List.all_cons, neutral_of_blank hbefore, neutral_of_blank hafter]
  rfl

/-- An opening bracket goes one level deeper. -/
theorem deepest_open {c : Char} (h : c = '[' ∨ c = '{') (level : Nat) (rest : List Char) :
    deepest false level (c :: rest) = deepest false (level + 1) rest := by
  rw [deepest, if_neg (by rcases h with rfl | rfl <;> decide), if_pos h]

/-- A closing bracket goes one level back, and the level it leaves was reached. -/
theorem deepest_close {c : Char} (h : c = ']' ∨ c = '}') (level : Nat) (rest : List Char) :
    deepest false (level + 1) (c :: rest) = max (level + 1) (deepest false level rest) := by
  rw [deepest, if_neg (by rcases h with rfl | rfl <;> decide),
    if_neg (by rcases h with rfl | rfl <;> decide), if_pos h]
  rfl

theorem deepest_comma (level : Nat) (rest : List Char) :
    deepest false level (',' :: rest) = deepest false level rest :=
  @deepest_neutral [','] rfl level rest

mutual

/-- **The text of a value nests as deep as the value.** -/
theorem deepest_write {style : Style} (hs : style.Blank) : ∀ (v : Json), v.FloatFree →
    ∀ (indent level : Nat) (rest : List Char),
      deepest false level ((v.write style indent).toList ++ rest) =
        max (level + v.depth) (deepest false level rest)
  | .null, _, indent, level, rest => by
      rw [write, deepest_neutral (by rfl)]
      exact deepest_eq_max level rest
  | .bool true, _, indent, level, rest => by
      rw [write, deepest_neutral (by rfl)]
      exact deepest_eq_max level rest
  | .bool false, _, indent, level, rest => by
      rw [write, deepest_neutral (by rfl)]
      exact deepest_eq_max level rest
  | .number (.float x), hv, _, _, _ => hv.elim
  | .number (.integer n), _, indent, level, rest => by
      rw [write, show (Number.integer n).text = n.value.repr from rfl, toList_repr,
        deepest_neutral (neutral_integerChars n.value)]
      exact deepest_eq_max level rest
  | .string s, _, indent, level, rest => by
      rw [write, deepest_quote]
      exact deepest_eq_max level rest
  | .array [], _, indent, level, rest => by
      rw [write]
      show deepest false level ('[' :: ']' :: rest) = _
      rw [deepest_open (.inl rfl), deepest_close (.inl rfl), depth, depthItems]
  | .array (v :: items), hv, indent, level, rest => by
      have hitems := deepest_writeItems hs items hv.2 (indent + 1) (level + 1)
        ((style.gap indent).toList ++ (']' :: rest))
      -- inside the brackets the level is greater by one, and the closing one takes it back
      rw [toList_write_array, List.cons_append, deepest_open (.inl rfl)]
      simp only [List.append_assoc, List.singleton_append]
      rw [deepest_neutral (neutral_of_blank (hs.gap _)), deepest_write hs v hv.1, hitems,
        deepest_neutral (neutral_of_blank (hs.gap _)), deepest_close (.inl rfl), depth, depthItems]
      omega
  | .object [], _, indent, level, rest => by
      rw [write]
      show deepest false level ('{' :: '}' :: rest) = _
      rw [deepest_open (.inr rfl), deepest_close (.inr rfl), depth, depthMembers]
  | .object ((name, v) :: members), hv, indent, level, rest => by
      have hmembers := deepest_writeMembers hs members hv.2 (indent + 1) (level + 1)
        ((style.gap indent).toList ++ ('}' :: rest))
      rw [toList_write_object, List.cons_append, deepest_open (.inr rfl)]
      simp only [List.append_assoc, List.singleton_append]
      rw [deepest_neutral (neutral_of_blank (hs.gap _)), deepest_quote, deepest_colon hs,
        deepest_write hs v hv.1, hmembers, deepest_neutral (neutral_of_blank (hs.gap _)),
        deepest_close (.inr rfl), depth, depthMembers]
      omega

/-- Items reach as deep as the deepest of them. -/
theorem deepest_writeItems {style : Style} (hs : style.Blank) : ∀ (items : List Json),
    FloatFreeItems items → ∀ (indent level : Nat) (rest : List Char),
      deepest false level ((writeItems style indent items).toList ++ rest) =
        max (level + depthItems items) (deepest false level rest)
  | [], _, indent, level, rest => by
      rw [writeItems, depthItems]
      exact deepest_eq_max level rest
  | v :: items, hv, indent, level, rest => by
      rw [toList_writeItems_cons, List.cons_append, deepest_comma]
      simp only [List.append_assoc]
      rw [deepest_neutral (neutral_of_blank (hs.gap _)), deepest_write hs v hv.1,
        deepest_writeItems hs items hv.2, depthItems]
      omega

/-- Members reach as deep as the deepest value among them. -/
theorem deepest_writeMembers {style : Style} (hs : style.Blank) :
    ∀ (members : List (String × Json)), FloatFreeMembers members →
      ∀ (indent level : Nat) (rest : List Char),
        deepest false level ((writeMembers style indent members).toList ++ rest) =
          max (level + depthMembers members) (deepest false level rest)
  | [], _, indent, level, rest => by
      rw [writeMembers, depthMembers]
      exact deepest_eq_max level rest
  | (name, v) :: members, hv, indent, level, rest => by
      rw [toList_writeMembers_cons, List.cons_append, deepest_comma]
      simp only [List.append_assoc]
      rw [deepest_neutral (neutral_of_blank (hs.gap _)), deepest_quote, deepest_colon hs,
        deepest_write hs v hv.1, deepest_writeMembers hs members hv.2, depthMembers]
      omega

end

/-- **THE NESTING OF WHAT IS WRITTEN IS THE DEPTH OF THE VALUE**, in every style of blanks. -/
theorem nesting_write {style : Style} (hs : style.Blank) {v : Json} (hv : v.FloatFree)
    {blanks : String} (hb : blanks.toList.all isBlank = true) :
    nesting (v.write style 0 ++ blanks) = v.depth := by
  have hrest : deepest false 0 blanks.toList = 0 := by
    have := deepest_neutral (neutral_of_blank hb) 0 []
    rw [List.append_nil] at this
    exact this
  rw [nesting, String.toList_append, deepest_write hs v hv, hrest]
  omega

end TinyLang.Json
