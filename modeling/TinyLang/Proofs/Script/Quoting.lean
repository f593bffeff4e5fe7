/-
  TinyLang.Proofs.Script.Quoting — strings stand in a script as themselves.

  A text that was quoted is scanned as one string token with that text as its value, whatever
  stands behind it:

      token? (quote text ++ rest) = some (.string text, rest)

  What is between the quotes could be shown as it is, on one line: control characters and the
  two separators are written by number.  And the literal ends where it should also for a
  reader that knows nothing of escapes but that a backslash takes the next character with it:
  a quote inside is behind an ODD number of backslashes, and the two outer ones are not.
-/

import TinyLang.Proofs.Json.Nesting
import TinyLang.Proofs.Script.Tokens

namespace TinyLang.Script

/-! ## §1. Raw characters -/

/-- A character that may stand raw in a literal: it is no control character, of the lower or of
    the upper range, and neither the line nor the paragraph separator. -/
def StandsRaw (c : Char) : Prop :=
  0x20 ≤ c.toNat ∧ ¬ (0x7f ≤ c.toNat ∧ c.toNat ≤ 0x9f) ∧ c.toNat ≠ 0x2028 ∧ c.toNat ≠ 0x2029

instance (c : Char) : Decidable (StandsRaw c) :=
  inferInstanceAs (Decidable (_ ∧ _))

theorem standsRaw_digitChar : ∀ n < 16, StandsRaw (Nat.digitChar n) := by
  decide

/-- What need not be escaped stands as it is. -/
theorem standsRaw_of_not_escaped {c : Char} (h : ¬ (isControl c || isSeparator c) = true) :
    StandsRaw c := by
  simp only [isControl, isSeparator, Bool.or_eq_true, Bool.and_eq_true, decide_eq_true_eq,
    beq_iff_eq] at h
  refine ⟨?_, ?_, ?_, ?_⟩ <;> omega

theorem standsRaw_hex4 {n : Nat} {c : Char} (h : c ∈ Text.hex4 n) : StandsRaw c := by
  simp only [Text.hex4, List.map_cons, List.map_nil, List.mem_cons, List.not_mem_nil, or_false] at h
  rcases h with rfl | rfl | rfl | rfl
  · exact standsRaw_digitChar _ (Nat.mod_lt _ (by omega))
  · exact standsRaw_digitChar _ (Nat.mod_lt _ (by omega))
  · exact standsRaw_digitChar _ (Nat.mod_lt _ (by omega))
  · exact standsRaw_digitChar _ (Nat.mod_lt _ (by omega))

theorem standsRaw_pair {e : Char} (h : StandsRaw e) : ∀ d ∈ ['\\', e], StandsRaw d := by
  have hbackslash : StandsRaw '\\' := by decide
  exact List.forall_mem_cons.2 ⟨hbackslash, List.forall_mem_cons.2 ⟨h, by simp⟩⟩

/-- However a character stands in a literal, nothing that is raw there has to be hidden. -/
theorem standsRaw_escapeChar (c : Char) : ∀ d ∈ escapeChar c, StandsRaw d := by
  unfold escapeChar
  split
  iterate 5
    · exact standsRaw_pair (by decide)
  · -- what has no short escape is written with four digits or as it is
    split
    next =>
      intro d hd
      rcases List.mem_cons.1 hd with rfl | hd
      · decide
      rcases List.mem_cons.1 hd with rfl | hd
      · decide
      · exact standsRaw_hex4 hd
    next hraw =>
      intro d hd
      obtain rfl := List.mem_singleton.1 hd
      exact standsRaw_of_not_escaped hraw

/-! ## §2. Escaped quotes -/

/-- The number of backslashes at the end of a text. -/
def backslashes (text : List Char) : Nat := (text.reverse.takeWhile (· == '\\')).length

/-- Whether the character behind a text is escaped: the backslashes at the end of the text do not
    pair off. -/
def EscapesNext (text : List Char) : Prop := backslashes text % 2 = 1

theorem escapesNext_nil : ¬ EscapesNext [] := Nat.zero_ne_one

/-- A backslash escapes what follows, unless it is escaped itself. -/
theorem escapesNext_backslash (text : List Char) :
    EscapesNext (text ++ ['\\']) ↔ ¬ EscapesNext text := by
  have hcount : backslashes (text ++ ['\\']) = backslashes text + 1 := by
    simp [backslashes]
  unfold EscapesNext
  omega

theorem escapesNext_other {c : Char} (h : c ≠ '\\') (text : List Char) :
    ¬ EscapesNext (text ++ [c]) := by
  have hcount : backslashes (text ++ [c]) = 0 := by
    simp [backslashes, h]
  unfold EscapesNext
  omega

/-- A stretch of a literal: behind a text that does not escape what follows, it does not do so
    either, and each quote in it is escaped. -/
def Stretch (text : List Char) : Prop :=
  ∀ before, ¬ EscapesNext before →
    ¬ EscapesNext (before ++ text) ∧ ∀ a b, text = a ++ '"' :: b → EscapesNext (before ++ a)

theorem stretch_nil : Stretch [] := by
  intro before h
  refine ⟨?_, ?_⟩
  · rw [List.append_nil]
    exact h
  · intro a b hsplit
    exact absurd hsplit (by simp)

/-- Stretches in a row are a stretch: what follows the first is not escaped by it. -/
theorem Stretch.append {x y : List Char} (hx : Stretch x) (hy : Stretch y) : Stretch (x ++ y) := by
  intro before h
  obtain ⟨hend, hquotes⟩ := hx before h
  obtain ⟨hend', hquotes'⟩ := hy (before ++ x) hend
  refine ⟨?_, ?_⟩
  · rw [← List.append_assoc]
    exact hend'
  · -- the quote stands in the first or in the second part
    intro a b hsplit
    rcases List.append_eq_append_iff.1 hsplit with ⟨m, rfl, hy'⟩ | ⟨m, rfl, hb⟩
    · rw [← List.append_assoc]
      exact hquotes' m b hy'
    · cases m with
      | nil =>
          have hfirst := hquotes' [] b hb.symm
          rw [List.append_nil, List.append_nil] at hfirst
          exact hfirst
      | cons c m =>
          obtain ⟨rfl, -⟩ := List.cons.inj hb
          exact hquotes a m rfl

theorem stretch_raw {c : Char} (hq : c ≠ '"') (hb : c ≠ '\\') : Stretch [c] := by
  intro before _
  refine ⟨escapesNext_other hb before, ?_⟩
  intro a b hsplit
  cases a with
  | nil => exact absurd (List.cons.inj hsplit).1 hq
  | cons d a => exact absurd (List.cons.inj hsplit).2 (by simp)

/-- A backslash and the character that it takes with it, which may be a quote or a backslash. -/
theorem stretch_pair (e : Char) : Stretch ['\\', e] := by
  intro before h
  have hone : EscapesNext (before ++ ['\\']) := (escapesNext_backslash before).2 h
  have hsplit₂ : before ++ ['\\', e] = (before ++ ['\\']) ++ [e] := by simp
  refine ⟨?_, ?_⟩
  · rw [hsplit₂]
    by_cases he : e = '\\'
    · subst he
      rw [escapesNext_backslash]
      exact not_not_intro hone
    · exact escapesNext_other he _
  · intro a b hsplit
    -- the only place for a quote is behind the backslash
    match a with
    | [] => exact absurd (List.cons.inj hsplit).1 (by decide)
    | [d] =>
        obtain rfl := (List.cons.inj hsplit).1
        exact hone
    | _ :: _ :: a => exact absurd (List.cons.inj (List.cons.inj hsplit).2).2 (by simp)

theorem stretch_hex4 (n : Nat) : Stretch (Text.hex4 n) := by
  have hdigit : ∀ k, Stretch [Nat.digitChar (k % 16)] := by
    intro k
    have hne := Json.digitChar_ne (k % 16) (Nat.mod_lt _ (by omega))
    exact stretch_raw hne.1 hne.2
  exact (hdigit _).append ((hdigit _).append ((hdigit _).append (hdigit _)))

/-- An escaped character is a stretch, whichever way it is escaped. -/
theorem stretch_escapeChar (c : Char) : Stretch (escapeChar c) := by
  unfold escapeChar
  split
  iterate 5
    · exact stretch_pair _
  · rename_i hquote hbackslash _ _ _
    split
    next => exact (stretch_pair 'u').append (stretch_hex4 c.toNat)
    next => exact stretch_raw hquote hbackslash

/-- Between the quotes there is a stretch, so the first quote that is not escaped ends the text. -/
theorem stretch_flatMap (chars : List Char) : Stretch (chars.flatMap escapeChar) := by
  induction chars with
  | nil => exact stretch_nil
  | cons c chars ih =>
      rw [List.flatMap_cons]
      exact (stretch_escapeChar c).append ih

/-- A stretch between two quotes: of the quotes in it, all but the two are escaped. -/
theorem Stretch.escapesNext_iff {body before after : List Char} (h : Stretch body)
    (hsplit : '"' :: (body ++ ['"']) = before ++ '"' :: after) :
    EscapesNext before ↔ before ≠ [] ∧ after ≠ [] := by
  cases before with
  | nil => exact ⟨fun hnext => absurd hnext escapesNext_nil, fun hne => absurd rfl hne.1⟩
  | cons c before =>
      obtain ⟨rfl, hinner⟩ := List.cons.inj hsplit
      have hopen : ¬ EscapesNext ['"'] := escapesNext_other (by decide) []
      obtain ⟨hend, hquotes⟩ := h ['"'] hopen
      cases after.eq_nil_or_concat with
      | inl hnil =>
          -- the closing quote is behind all of the stretch
          subst hnil
          obtain ⟨rfl, -⟩ := List.append_inj' hinner rfl
          exact ⟨fun hnext => absurd hnext hend, fun hne => absurd rfl hne.2⟩
      | inr hconcat =>
          obtain ⟨rest, last, rfl⟩ := hconcat
          have hlast : body ++ ['"'] = (before ++ '"' :: rest) ++ [last] := by
            rw [List.append_assoc, List.cons_append, ← @List.concat_eq_append _ rest]
            exact hinner
          have hbody : body = before ++ '"' :: rest := (List.append_inj' hlast rfl).1
          exact ⟨fun _ => ⟨List.cons_ne_nil _ _, by simp⟩, fun _ => hquotes before rest hbody⟩

/-! ## §3. Literals -/

theorem toList_quote_eq (text : String) :
    (quote text).toList = '"' :: (text.toList.flatMap escapeChar ++ ['"']) := by
  rw [quote, String.toList_ofList, List.cons_append]

/-- **Nothing in a text in quotes needs another escape**, the quotes included. -/
theorem standsRaw_quote (text : String) : ∀ c ∈ (quote text).toList, StandsRaw c := by
  intro c hc
  rw [toList_quote_eq, List.mem_cons, List.mem_append, List.mem_flatMap, List.mem_singleton] at hc
  rcases hc with rfl | ⟨d, _, hd⟩ | rfl
  · decide
  · exact standsRaw_escapeChar d c hd
  · decide

/-- **STRINGS READ BACK EXACTLY**: scanning a quoted text in front of any other text gives one string
    token of that text and leaves exactly what is behind; nothing in the literal is a raw control
    character or separator; and a quote in it is escaped unless it is the first or the last
    character. -/
theorem quote_reads_back (text rest : String) :
    token? (quote text ++ rest).toList = some (.string text, rest.toList) ∧
      (∀ c ∈ (quote text).toList, StandsRaw c) ∧
      ∀ before after, (quote text).toList = before ++ '"' :: after →
        (EscapesNext before ↔ before ≠ [] ∧ after ≠ []) := by
  refine ⟨?_, standsRaw_quote text, ?_⟩
  · rw [String.toList_append]
    exact token?_quote text rest.toList
  · intro before after hsplit
    rw [toList_quote_eq] at hsplit
    exact (stretch_flatMap text.toList).escapesNext_iff hsplit

/-- A backslash in front of a quote, and a separator: the quote is the third escaped character. -/
theorem quote_reads_back_backslashQuote :
    (quote "\\\"\u2028").toList = ['"', '\\', '\\', '\\'] ++ '"' :: "\\u2028\"".toList ∧
      EscapesNext ['"', '\\', '\\', '\\'] ∧
      ('u' ∈ (quote "\\\"\u2028").toList ∧ StandsRaw 'u') ∧
      token? (quote "\\\"\u2028" ++ "\";").toList = some (.string "\\\"\u2028", ['"', ';']) := by
  obtain ⟨hscan, hraw, hquotes⟩ := quote_reads_back "\\\"\u2028" "\";"
  have hsplit : (quote "\\\"\u2028").toList =
      ['"', '\\', '\\', '\\'] ++ '"' :: "\\u2028\"".toList := by decide
  have hmem : 'u' ∈ (quote "\\\"\u2028").toList := by decide
  exact ⟨hsplit, (hquotes _ _ hsplit).2 ⟨by decide, by decide⟩, ⟨hmem, hraw _ hmem⟩, hscan⟩

end TinyLang.Script
