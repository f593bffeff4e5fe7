/-
  TinyLang.Proofs.Lexing.Spelling — the texts that tokens of each kind have.

  Every token of a source text is spelled as its kind demands: numbers are digits, names are
  words that are no keywords, keywords and symbols have their one spelling, and no token of
  a source text stands for its end.

      t ∈ (Lexed.ofSource source).tokens  →  Spelled t.kind t.text
-/

import TinyLang.Token.Lexer

namespace TinyLang

/-- Whether a text is a word: a letter or an underscore, then letters, digits and underscores. -/
def IsWord (text : String) : Prop :=
  ∃ c rest, text = String.ofList (c :: rest) ∧ Lexer.isWordStart c = true ∧
    rest.all Lexer.isWordChar = true

/-- Whether a text is a numeral: one or more digits. -/
def IsNumeral (text : String) : Prop :=
  ∃ c rest, text = String.ofList (c :: rest) ∧ c.isDigit = true ∧ rest.all Char.isDigit = true

/-- The texts of the tokens of a kind. -/
def Spelled : Token.Kind → String → Prop
  | .number, text => IsNumeral text
  | .identifier, text => IsWord text ∧ Keyword.ofSpelling? text = none
  | .keyword k, text => text = k.spelling
  | .symbol s, text => text = s.spelling
  | .invalid, text => ∃ c, text = String.ofList [c]
  | .openComment, text => text = "/*"
  | .endOfInput, _ => False

namespace Lexer

theorem isWordChar_of_start {c : Char} (h : isWordStart c = true) : isWordChar c = true := by
  unfold isWordStart at h
  unfold isWordChar
  rw [Bool.or_eq_true] at h ⊢
  rcases h with halpha | hline
  · exact .inl (by unfold Char.isAlphanum; rw [halpha, Bool.true_or])
  · exact .inr hline

/-! ## §1. One piece -/

/-- A piece that becomes a token becomes a well-spelled one. -/
def SpelledPiece (piece : Piece) : Prop :=
  ∀ kind, piece.kind = some kind → Spelled kind (lexeme kind piece.text)

theorem spelledPiece_layout (text : List Char) : SpelledPiece ⟨none, text⟩ := by
  intro kind h
  exact absurd h (by simp)

/-- Two characters that are a symbol are its spelling. -/
theorem ofPair?_spelling {c d : Char} {s : Symbol} (h : Symbol.ofPair? c d = some s) :
    String.ofList [c, d] = s.spelling := by
  unfold Symbol.ofPair? at h
  split at h <;> first
    | (injection h with h; subst h; rfl)
    | exact absurd h (by simp)

theorem ofChar?_spelling {c : Char} {s : Symbol} (h : Symbol.ofChar? c = some s) :
    String.ofList [c] = s.spelling := by
  unfold Symbol.ofChar? at h
  split at h <;> first
    | (injection h with h; subst h; rfl)
    | exact absurd h (by simp)

/-- A word that is a keyword is the keyword's spelling. -/
theorem ofSpelling?_eq_some {word : String} {k : Keyword} (h : Keyword.ofSpelling? word = some k) :
    word = k.spelling := by
  have := List.find?_some h
  exact (beq_iff_eq.1 this).symm

theorem spelledPiece_single (c : Char) : SpelledPiece ⟨some (symbolPiece.single c), [c]⟩ := by
  intro kind h
  injection h with h
  subst h
  unfold symbolPiece.single
  cases hs : Symbol.ofChar? c with
  | none => exact ⟨c, rfl⟩
  | some s => exact ofChar?_spelling hs

/-- A symbol is spelled as it should be, whether it took one character or two. -/
theorem symbolPiece_spelled (c : Char) (rest : List Char) :
    SpelledPiece (symbolPiece c rest).1 := by
  unfold symbolPiece
  split
  next d rest' =>
    split
    next s hs =>
      intro kind h
      injection h with h
      subst h
      exact ofPair?_spelling hs
    next => exact spelledPiece_single c
  next => exact spelledPiece_single c

theorem markPiece_spelled (c : Char) (rest : List Char) : SpelledPiece (markPiece c rest).1 := by
  unfold markPiece
  split
  next => exact spelledPiece_layout _
  next =>
    split
    next => exact spelledPiece_layout _
    next =>
      intro kind h
      injection h with h
      subst h
      rfl
  next => exact symbolPiece_spelled _ _

/-- A word that is taken as long as possible is spelled as a keyword or as a name. -/
theorem word_spelled (c : Char) (rest : List Char) (hc : isWordStart c = true) :
    SpelledPiece ⟨some (wordKind (c :: rest.takeWhile isWordChar)),
      c :: rest.takeWhile isWordChar⟩ := by
  intro kind h
  injection h with h
  subst h
  unfold wordKind
  -- a word that is spelled like a keyword is that keyword, and any other one is a name
  cases hk : Keyword.ofSpelling? (String.ofList (c :: rest.takeWhile isWordChar)) with
  | some k => exact ofSpelling?_eq_some hk
  | none => exact ⟨⟨c, _, rfl, hc, List.all_takeWhile⟩, hk⟩

/-- **Whatever the lexer takes next is spelled as its kind asks.** -/
theorem next_spelled (c : Char) (rest : List Char) : SpelledPiece (next c rest).1 := by
  unfold next
  split
  next => exact spelledPiece_layout _
  next =>
    split
    next hd =>
      intro kind h
      injection h with h
      subst h
      exact ⟨c, _, rfl, hd, List.all_takeWhile⟩
    next =>
      split
      next hw => exact word_spelled c rest hw
      next => exact markPiece_spelled c rest

/-! ## §2. All tokens -/

theorem piecesUpTo_spelled (bound : Nat) (text : List Char) :
    ∀ piece ∈ piecesUpTo bound text, SpelledPiece piece := by
  induction bound generalizing text with
  | zero =>
      cases text with
      | nil => exact fun _ h => absurd h List.not_mem_nil
      | cons c text => exact fun _ h => absurd h List.not_mem_nil
  | succ bound ih =>
      cases text with
      | nil => exact fun _ h => absurd h List.not_mem_nil
      | cons c text =>
          intro piece h
          rcases List.mem_cons.1 h with rfl | h
          · exact next_spelled c text
          · exact ih _ piece h

/-- Placing keeps the spelling. -/
theorem place_spelled (pieces : List Piece) (h : ∀ piece ∈ pieces, SpelledPiece piece) :
    ∀ (p : Position), ∀ t ∈ place p pieces, Spelled t.kind t.text := by
  induction pieces with
  | nil => exact fun _ _ ht => absurd ht List.not_mem_nil
  | cons piece pieces ih =>
      intro p t ht
      have ih := ih (fun q hq => h q (List.mem_cons_of_mem _ hq))
      unfold place at ht
      dsimp only at ht
      split at ht
      next => exact ih _ t ht
      -- a token has the text of its piece, or the marks of a comment that does not close
      next kind hk =>
        rcases List.mem_cons.1 ht with rfl | ht
        · exact h piece List.mem_cons_self kind hk
        · exact ih _ t ht

end Lexer

/-- **Every token of a source text is well spelled.** -/
theorem Lexed.spelled (source : String) :
    ∀ t ∈ (Lexed.ofSource source).tokens, Spelled t.kind t.text :=
  Lexer.place_spelled _ (Lexer.piecesUpTo_spelled _ _) _

end TinyLang
