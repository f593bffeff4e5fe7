/-
  TinyLang.Proofs.Lexing.Layout — blanks and comments add no tokens.

  A layout says what stands in front of some tokens, between each two of them and behind the
  last: blanks, comments up to the end of their line, and comments in their marks.  Between
  two tokens a blank comes first, so that the first token ends there.  Whatever the layout
  is, the tokens of the text are the ones that were laid out:

      lexemes (l.source ws) = ws

  The forms of a comment are stated without the lexer: the text of a line holds no line
  feed, and the text in marks does not hold the closing mark.
-/

import TinyLang.Proofs.Lexing.Cut

namespace TinyLang

/-! ## §1. Layouts -/

/-- A part of a layout: a blank, a comment with the line feed that ends it, or a comment in its
    marks. -/
inductive Filler where
  | blank (c : Char) (isBlank : Text.isBlank c = true)
  | line (text : List Char) (oneLine : '\n' ∉ text)
  | marked (text : List Char) (unclosed : ¬ ['*', '/'] <:+: text)

/-- How a part of a layout is written. -/
def Filler.text : Filler → List Char
  | .blank c _ => [c]
  | .line text _ => '/' :: '/' :: text ++ ['\n']
  | .marked text _ => '/' :: '*' :: text ++ ['*', '/']

/-- What stands between two tokens: a blank, and then anything that adds no token. -/
structure Separator where
  blank : Char
  isBlank : Text.isBlank blank = true
  more : List Filler

/-- How a separator is written. -/
def Separator.text (s : Separator) : List Char := s.blank :: s.more.flatMap Filler.text

/-- What stands behind the last token: nothing, or a separator, or a separator and a comment that
    the end of the text ends. -/
inductive Ending where
  | nothing
  | separated (s : Separator)
  | commented (s : Separator) (text : List Char) (oneLine : '\n' ∉ text)

/-- How an ending is written. -/
def Ending.text : Ending → List Char
  | .nothing => []
  | .separated s => s.text
  | .commented s text _ => s.text ++ '/' :: '/' :: text

/-- A layout of tokens; `between i` stands behind the token of number `i`. -/
structure Layout where
  before : List Filler
  between : Nat → Separator
  behind : Ending

/-- The text of tokens of which the first has the number `i`, and of what stands behind each. -/
def Layout.textFrom (l : Layout) (i : Nat) : List Lexeme → List Char
  | [] => l.behind.text
  | [w] => w.text.toList ++ l.behind.text
  | w :: v :: ws => w.text.toList ++ ((l.between i).text ++ l.textFrom (i + 1) (v :: ws))

/-- The source text of tokens in a layout. -/
def Layout.source (l : Layout) (ws : List Lexeme) : String :=
  String.ofList (l.before.flatMap Filler.text ++ l.textFrom 1 ws)

/-- Whether a text is a whole number, word, operator or mark of the kind. -/
def Lexeme.Complete (w : Lexeme) : Prop :=
  Spelled w.kind w.text ∧ w.kind ≠ .invalid ∧ w.kind ≠ .openComment

/-! ## §2. Layout adds no tokens -/

namespace Lexer

/-- A piece that is no token adds none. -/
theorem lexed_skip {text rest : List Char} (h : Cut ⟨none, text⟩ rest) :
    lexed (text ++ rest) = lexed rest := by
  unfold lexed
  rw [← map_lexeme_place Position.start, place_skip h, map_lexeme_place]

theorem all_isLineChar {text : List Char} (h : '\n' ∉ text) : text.all isLineChar = true := by
  rw [List.all_eq_true]
  intro c hc
  have hne : c ≠ '\n' := by
    intro heq
    subst heq
    exact h hc
  exact bne_iff_ne.2 hne

/-- A comment ends at the first closing mark. -/
theorem closeComment_marked {text : List Char} (h : ¬ ['*', '/'] <:+: text) :
    closeComment (text ++ ['*', '/']) = some (text ++ ['*', '/'], []) := by
  induction text with
  | nil => rfl
  | cons c text ih =>
      have htext : ¬ ['*', '/'] <:+: text := by
        intro hin
        exact h (hin.trans (List.infix_cons List.infix_rfl))
      -- the closing mark is not here: its second character would have to be the next one
      have hno : ∀ tail, c = '*' → text ++ ['*', '/'] = '/' :: tail → False := by
        intro tail hc htail
        cases text with
        | nil => exact absurd (List.cons.inj htail).1 (by decide)
        | cons d text =>
            obtain ⟨rfl, -⟩ := List.cons.inj htail
            subst hc
            exact h ⟨[], text, rfl⟩
      rw [List.cons_append, closeComment.eq_3 _ _ hno, ih htext]
      rfl

/-- A part of a layout in front of a text moves the tokens of the text. -/
theorem place_filler (f : Filler) (p : Position) (rest : List Char) :
    place p (pieces (f.text ++ rest)) = place (p.after f.text) (pieces rest) := by
  cases f with
  | blank c hc => exact place_blank hc p rest
  | line text h =>
      have hcut : Cut ⟨none, '/' :: '/' :: text⟩ ('\n' :: rest) := .line (all_isLineChar h) rfl
      show place p (pieces (('/' :: '/' :: text ++ ['\n']) ++ rest)) =
        place (p.after ('/' :: '/' :: text ++ ['\n'])) (pieces rest)
      rw [List.append_assoc, List.singleton_append]
      -- the comment leaves its line feed, which is a blank
      rw [place_skip hcut, place_blank (by decide), Position.after_append]
  | marked text h => exact place_skip (.comment (closeComment_marked h)) p

/-- A blank or a comment leaves no lexeme. -/
theorem lexed_filler (f : Filler) (rest : List Char) : lexed (f.text ++ rest) = lexed rest := by
  unfold lexed
  rw [← map_lexeme_place Position.start, place_filler, map_lexeme_place]

theorem lexed_fillers (fs : List Filler) (rest : List Char) :
    lexed (fs.flatMap Filler.text ++ rest) = lexed rest := by
  induction fs with
  | nil => rfl
  | cons f fs ih => rw [List.flatMap_cons, List.append_assoc, lexed_filler, ih]

theorem lexed_separator (s : Separator) (rest : List Char) :
    lexed (s.text ++ rest) = lexed rest := by
  rw [Separator.text, List.cons_append, lexed_blank s.isBlank, lexed_fillers]

theorem lexed_ending (e : Ending) : lexed e.text = [] := by
  cases e with
  | nothing => rfl
  | separated s =>
      have h := lexed_separator s []
      rw [List.append_nil] at h
      exact h
  -- only at the end of a source may a comment on a line go without its line end
  | commented s text h =>
      have hcut : Cut ⟨none, '/' :: '/' :: text⟩ [] := .line (all_isLineChar h) rfl
      have hskip := lexed_skip hcut
      rw [List.append_nil] at hskip
      rw [Ending.text, lexed_separator, hskip]
      rfl

/-! ## §3. Tokens end where layout begins -/

/-- A character with which a token goes on is no blank. -/
theorem isBlank_of_joins {c : Char} (h : joins c = true) : Text.isBlank c = false := by
  rcases Bool.or_eq_true_iff.1 h with hword | hmark
  · -- what goes on with a word is a visible character, and no blank is
    have hrange : 33 ≤ c.toNat ∧ c.toNat ≤ 126 := by
      rcases Bool.or_eq_true_iff.1 hword with halnum | hline
      · rcases Bool.or_eq_true_iff.1 halnum with halpha | hdigit
        · have := isWordStart_range (c := c) (Bool.or_eq_true_iff.2 (.inl halpha))
          omega
        · have := isDigit_range hdigit
          omega
      · have := isWordStart_range (c := c) (Bool.or_eq_true_iff.2 (.inr hline))
        omega
    exact isBlank_eq_false hrange.1 hrange.2
  · simp only [List.contains_eq_mem, List.mem_cons, List.not_mem_nil, or_false,
      decide_eq_true_eq] at hmark
    rcases hmark with rfl | rfl | rfl | rfl | rfl <;> rfl

/-- Whatever separates two lexemes ends the first. -/
theorem ends_separator (s : Separator) (rest : List Char) : Ends joins (s.text ++ rest) := by
  have hblank : joins s.blank = false := by
    cases h : joins s.blank with
    | false => rfl
    | true => exact absurd s.isBlank (by rw [isBlank_of_joins h]; simp)
  show (!joins s.blank) = true
  rw [hblank]
  rfl

theorem ends_ending (e : Ending) : Ends joins e.text := by
  cases e with
  | nothing => rfl
  | separated s =>
      have h := ends_separator s []
      rw [List.append_nil] at h
      exact h
  | commented s text _ => exact ends_separator s _

end Lexer

/-- A whole token stands for itself in front of everything with which no token goes on. -/
theorem Lexeme.Complete.yields {w : Lexeme} (h : w.Complete) :
    Lexer.Yields (Lexer.Ends Lexer.joins) w.text.toList [w] := by
  obtain ⟨kind, text⟩ := w
  obtain ⟨hspelled, hinvalid, hopen⟩ := h
  -- each kind asks for less than that nothing is joined to it
  cases kind with
  | number =>
      apply (Lexer.yields_numeral hspelled).weaken
      intro rest hrest
      exact hrest.weaken fun c hc => Lexer.joins_of_word (Lexer.isWordChar_of_digit hc)
  | identifier =>
      apply (Lexer.yields_identifier hspelled.1 hspelled.2).weaken
      intro rest hrest
      exact hrest.weaken fun c => Lexer.joins_of_word
  | keyword k =>
      obtain rfl : text = k.spelling := hspelled
      apply (Lexer.yields_keyword k).weaken
      intro rest hrest
      exact hrest.weaken fun c => Lexer.joins_of_word
  | symbol s =>
      obtain rfl : text = s.spelling := hspelled
      exact Lexer.yields_symbol s
  | invalid => exact absurd rfl hinvalid
  | openComment => exact absurd rfl hopen
  | endOfInput => exact hspelled.elim

/-! ## §4. The tokens of a layout -/

/-- Under every layout, what is lexed is what was laid out. -/
theorem Layout.lexed_textFrom (l : Layout) {ws : List Lexeme} (h : ∀ w ∈ ws, w.Complete) (i : Nat) :
    Lexer.lexed (l.textFrom i ws) = ws := by
  -- the number of the first separator goes up by one with each token
  induction ws generalizing i with
  | nil => exact Lexer.lexed_ending l.behind
  | cons w ws ih =>
      have hw := (h w List.mem_cons_self).yields
      have hws : ∀ v ∈ ws, v.Complete := fun v hv => h v (List.mem_cons_of_mem w hv)
      cases ws with
      | nil =>
          rw [Layout.textFrom, hw _ (Lexer.ends_ending l.behind), Lexer.lexed_ending,
            List.append_nil]
      | cons v ws =>
          rw [Layout.textFrom, hw _ (Lexer.ends_separator (l.between i) _), Lexer.lexed_separator,
            ih hws (i + 1), List.singleton_append]

/-- **The tokens of a text are those that were laid out in it.** -/
theorem Layout.lexemes_source (l : Layout) {ws : List Lexeme} (h : ∀ w ∈ ws, w.Complete) :
    lexemes (l.source ws) = ws := by
  rw [lexemes_eq_lexed, Layout.source, String.toList_ofList, Lexer.lexed_fillers,
    l.lexed_textFrom h]

end TinyLang
