/-
  TinyLang.Token.Lexer — from a source text to its tokens.

  A source text is cut into pieces that follow one another without a gap: runs of blanks,
  comments, and the texts of tokens, each as long as it can be.

      (pieces text).flatMap Piece.text = text

  The tokens are the pieces that are no layout, with their places counted along the text.
-/

import TinyLang.Text.Character
import TinyLang.Token.Basic

namespace TinyLang

/-! ## §1. Pieces -/

/-- A piece of a source text: its characters, and the kind of token they are, unless they are
    blanks or a comment. -/
structure Piece where
  kind : Option Token.Kind
  text : List Char
deriving DecidableEq, Repr

namespace Lexer

/-- Whether a character can start a word. -/
def isWordStart (c : Char) : Bool := c.isAlpha || c == '_'

/-- Whether a character can stand in a word. -/
def isWordChar (c : Char) : Bool := c.isAlphanum || c == '_'

/-- Whether a character can stand in a comment that ends with its line. -/
def isLineChar (c : Char) : Bool := c != '\n'

/-- A block comment behind its opening, up to and with its closing, and what follows it. -/
def closeComment : List Char → Option (List Char × List Char)
  | [] => none
  | '*' :: '/' :: rest => some (['*', '/'], rest)
  | c :: rest => (closeComment rest).map fun (text, rest) => (c :: text, rest)

/-- The kind of a word. -/
def wordKind (word : List Char) : Token.Kind :=
  match Keyword.ofSpelling? (String.ofList word) with
  | some k => .keyword k
  | none => .identifier

/-- A symbol of two characters if there is one, else of one, else an invalid character. -/
def symbolPiece (c : Char) (rest : List Char) : Piece × List Char :=
  match rest with
  | d :: rest' =>
    match Symbol.ofPair? c d with
    | some s => (⟨some (.symbol s), [c, d]⟩, rest')
    | none => (⟨some (single c), [c]⟩, rest)
  | [] => (⟨some (single c), [c]⟩, [])
where
  single (c : Char) : Token.Kind :=
    match Symbol.ofChar? c with
    | some s => .symbol s
    | none => .invalid

/-- A comment if one starts here, else a symbol. -/
def markPiece (c : Char) (rest : List Char) : Piece × List Char :=
  match c, rest with
  | '/', '/' :: rest =>
    (⟨none, '/' :: '/' :: rest.takeWhile isLineChar⟩, rest.dropWhile isLineChar)
  | '/', '*' :: rest =>
    match closeComment rest with
    | some (text, rest) => (⟨none, '/' :: '*' :: text⟩, rest)
    | none => (⟨some .openComment, '/' :: '*' :: rest⟩, [])
  | c, rest => symbolPiece c rest

/-- The piece that starts with the character `c`, and what follows it. -/
def next (c : Char) (rest : List Char) : Piece × List Char :=
  if Text.isBlank c then
    (⟨none, c :: rest.takeWhile Text.isBlank⟩, rest.dropWhile Text.isBlank)
  else if c.isDigit then
    (⟨some .number, c :: rest.takeWhile Char.isDigit⟩, rest.dropWhile Char.isDigit)
  else if isWordStart c then
    let word := c :: rest.takeWhile isWordChar
    (⟨some (wordKind word), word⟩, rest.dropWhile isWordChar)
  else markPiece c rest

/-- The pieces of a text of at most `bound` characters. -/
def piecesUpTo : Nat → List Char → List Piece
  | _, [] => []
  | 0, _ => []
  | bound + 1, c :: text =>
    let (piece, rest) := next c text
    piece :: piecesUpTo bound rest

/-- The pieces of a text. -/
def pieces (text : List Char) : List Piece := piecesUpTo text.length text

/-! ## §2. Tokens -/

/-- The text that a piece gives its token; a comment without an end is shown by its opening. -/
def lexeme (kind : Token.Kind) (text : List Char) : String :=
  match kind with
  | .openComment => "/*"
  | _ => String.ofList text

/-- The tokens of a list of pieces that starts at `p`. -/
def place (p : Position) : List Piece → List Token
  | [] => []
  | piece :: pieces =>
    let q := p.after piece.text
    match piece.kind with
    | none => place q pieces
    | some kind => ⟨kind, lexeme kind piece.text, ⟨p, q⟩⟩ :: place q pieces

end Lexer

/-- The tokens of a source text. -/
def Lexed.ofSource (source : String) : Lexed where
  tokens := Lexer.place Position.start (Lexer.pieces source.toList)
  stop := Position.start.after source.toList

namespace Lexer

/-! ## §3. Nothing is lost -/

/-- A comment and what stands behind it make up the text. -/
theorem closeComment_append {rest text rest' : List Char}
    (h : closeComment rest = some (text, rest')) : text ++ rest' = rest := by
  fun_induction closeComment rest generalizing text with
  | case1 => simp at h
  | case2 rest =>
    simp only [Option.some.injEq, Prod.mk.injEq] at h
    obtain ⟨rfl, rfl⟩ := h
    rfl
  | case3 c rest _ ih =>
    obtain ⟨⟨t, r⟩, hr, heq⟩ := Option.map_eq_some_iff.1 h
    simp only [Prod.mk.injEq] at heq
    obtain ⟨rfl, rfl⟩ := heq
    simp [ih hr]

/-- The piece of a symbol is the first part of the text, however many characters it takes. -/
theorem symbolPiece_append (c : Char) (rest : List Char) :
    (symbolPiece c rest).1.text ++ (symbolPiece c rest).2 = c :: rest := by
  unfold symbolPiece
  split
  · split <;> rfl
  · rfl

theorem markPiece_append (c : Char) (rest : List Char) :
    (markPiece c rest).1.text ++ (markPiece c rest).2 = c :: rest := by
  unfold markPiece
  split
  · simp [List.takeWhile_append_dropWhile]
  · split
    · rename_i h
      simp [closeComment_append h]
    · simp
  · exact symbolPiece_append _ _

/-- A piece and what follows it make up the text. -/
theorem next_append (c : Char) (rest : List Char) :
    (next c rest).1.text ++ (next c rest).2 = c :: rest := by
  unfold next
  split
  · simp [List.takeWhile_append_dropWhile]
  · split
    · simp [List.takeWhile_append_dropWhile]
    · split
      · simp [List.takeWhile_append_dropWhile]
      · exact markPiece_append c rest

theorem symbolPiece_text_ne_nil (c : Char) (rest : List Char) :
    (symbolPiece c rest).1.text ≠ [] := by
  unfold symbolPiece
  split
  · split <;> simp
  · simp

/-- A piece holds at least one character. -/
theorem next_text_ne_nil (c : Char) (rest : List Char) : (next c rest).1.text ≠ [] := by
  unfold next
  split
  · simp
  · split
    · simp
    · split
      · simp
      · unfold markPiece
        split
        · simp
        · split <;> simp
        · exact symbolPiece_text_ne_nil _ _

/-- What follows a piece is shorter than the text. -/
theorem next_rest_length (c : Char) (rest : List Char) :
    (next c rest).2.length ≤ rest.length := by
  have h := congrArg List.length (next_append c rest)
  have hp := List.length_pos_iff.2 (next_text_ne_nil c rest)
  rw [List.length_append, List.length_cons] at h
  omega

/-- **No character is lost or moved**: the pieces put together are the text. -/
theorem piecesUpTo_flatMap (bound : Nat) (text : List Char) (h : text.length ≤ bound) :
    (piecesUpTo bound text).flatMap Piece.text = text := by
  induction bound generalizing text with
  | zero =>
    cases text with
    | nil => rfl
    | cons c text => simp at h
  | succ bound ih =>
    cases text with
    | nil => rfl
    | cons c text =>
      -- a piece is never empty, so the rest is within the smaller bound
      have hr := next_rest_length c text
      have hb : (next c text).2.length ≤ bound := by
        rw [List.length_cons] at h
        omega
      show (next c text).1.text ++ (piecesUpTo bound (next c text).2).flatMap Piece.text = _
      rw [ih _ hb]
      exact next_append c text

/-- The pieces of a text make it up, one after the other. -/
theorem pieces_flatMap (text : List Char) : (pieces text).flatMap Piece.text = text :=
  piecesUpTo_flatMap text.length text (Nat.le_refl _)

end Lexer

end TinyLang
