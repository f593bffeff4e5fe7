/-
  TinyLang.Proofs.Lexing.Cut — where one piece of a source text ends and the next begins.

  A piece is cut off in front of what follows it, and of what follows only the first
  character matters:

      Cut piece rest  →  rest'.head? = rest.head?  →  Cut piece rest'

  So the pieces of a text are found again wherever their characters stand together, and the
  tokens of a text that is put together from parts are the tokens of the parts:

      lexed (text ++ rest) = tokens of the pieces of text ++ lexed rest
-/

import TinyLang.Proofs.Lexing.Spelling
import TinyLang.Proofs.Parsing.Grammar
import TinyLang.Proofs.Script.Tokens

namespace TinyLang

namespace Lexer

open Script (takeWhile_append_of_stop)

/-! ## §1. Pieces and what follows them -/

/-- A text does not start with a character that would go on. -/
def Ends (goesOn : Char → Bool) (rest : List Char) : Prop :=
  rest.head?.all (fun c => !goesOn c) = true

/-- A character that starts neither a run of blanks nor a number nor a word. -/
def isMark (c : Char) : Bool := !Text.isBlank c && !c.isDigit && !isWordStart c

/-- The pieces that the lexer cuts off in front of a text. -/
inductive Cut : Piece → List Char → Prop
  | blanks {c : Char} {text rest : List Char} : Text.isBlank c = true →
      text.all Text.isBlank = true → Ends Text.isBlank rest → Cut ⟨none, c :: text⟩ rest
  | number {c : Char} {text rest : List Char} : c.isDigit = true → text.all Char.isDigit = true →
      Ends Char.isDigit rest → Cut ⟨some .number, c :: text⟩ rest
  | word {c : Char} {text rest : List Char} : isWordStart c = true → text.all isWordChar = true →
      Ends isWordChar rest → Cut ⟨some (wordKind (c :: text)), c :: text⟩ rest
  | line {text rest : List Char} : text.all isLineChar = true → Ends isLineChar rest →
      Cut ⟨none, '/' :: '/' :: text⟩ rest
  | comment {text rest : List Char} : closeComment text = some (text, []) →
      Cut ⟨none, '/' :: '*' :: text⟩ rest
  | openComment {text : List Char} : closeComment text = none →
      Cut ⟨some .openComment, '/' :: '*' :: text⟩ []
  | pair {c d : Char} {s : Symbol} {rest : List Char} : Symbol.ofPair? c d = some s →
      Cut ⟨some (.symbol s), [c, d]⟩ rest
  | single {c : Char} {rest : List Char} : isMark c = true →
      (∀ d, rest.head? = some d →
        Symbol.ofPair? c d = none ∧ ¬ (c = '/' ∧ (d = '/' ∨ d = '*'))) →
      Cut ⟨some (symbolPiece.single c), [c]⟩ rest

/-- Of what follows a piece only the first character matters. -/
theorem Cut.congr {piece : Piece} {rest rest' : List Char} (h : Cut piece rest)
    (hhead : rest'.head? = rest.head?) : Cut piece rest' := by
  cases h with
  | blanks hc ht hr => exact .blanks hc ht (by rw [Ends, hhead]; exact hr)
  | number hc ht hr => exact .number hc ht (by rw [Ends, hhead]; exact hr)
  | word hc ht hr => exact .word hc ht (by rw [Ends, hhead]; exact hr)
  | line ht hr => exact .line ht (by rw [Ends, hhead]; exact hr)
  | comment ht => exact .comment ht
  -- an open comment goes to the end, so there is no next character in either case
  | openComment ht =>
      rw [List.head?_eq_none_iff.1 hhead]
      exact .openComment ht
  | pair hs => exact .pair hs
  | single hc hr =>
      refine .single hc ?_
      rw [hhead]
      exact hr

theorem Ends.head {p : Char → Bool} {rest : List Char} (h : Ends p rest) {c : Char}
    (hc : rest.head? = some c) : p c = false := by
  unfold Ends at h
  rw [hc] at h
  simpa using h

/-- What ends a run ends every shorter kind of run. -/
theorem Ends.weaken {p q : Char → Bool} {rest : List Char} (h : Ends p rest)
    (hpq : ∀ c, q c = true → p c = true) : Ends q rest := by
  cases rest with
  | nil => rfl
  | cons d rest =>
      have hd : p d = false := h.head rfl
      have hq : q d = false := by
        cases hqd : q d with
        | false => rfl
        | true => exact absurd (hpq d hqd) (by rw [hd]; simp)
      simp [Ends, hq]

/-- A comment without an end is cut off at the end of the text only. -/
theorem Cut.of_openComment {kind : Token.Kind} {text rest : List Char}
    (h : Cut ⟨some kind, text⟩ rest) (hk : kind = .openComment) :
    rest = [] ∧ ['/', '*'] <+: text := by
  cases h with
  | openComment _ => exact ⟨rfl, _, rfl⟩
  | word =>
      unfold wordKind at hk
      split at hk <;> exact absurd hk (by simp)
  | single =>
      unfold symbolPiece.single at hk
      split at hk <;> exact absurd hk (by simp)
  | _ => exact absurd hk (by simp)

/-- The characters with which a token may go on, to a longer one or to a comment. -/
def joins (c : Char) : Bool := isWordChar c || ['=', '&', '|', '/', '*'].contains c

theorem joins_of_word {c : Char} (h : isWordChar c = true) : joins c = true := by
  rw [joins, h, Bool.true_or]

theorem isWordChar_of_digit {c : Char} (h : c.isDigit = true) : isWordChar c = true := by
  show ((c.isAlpha || c.isDigit) || c == '_') = true
  rw [h, Bool.or_true, Bool.true_or]

/-- A token ends in front of every character with which no token goes on, and at the end. -/
theorem Cut.ends {kind : Token.Kind} {text rest rest' : List Char} (h : Cut ⟨some kind, text⟩ rest)
    (hk : kind ≠ .openComment) (hends : Ends joins rest') : Cut ⟨some kind, text⟩ rest' := by
  cases h with
  | number hc ht _ =>
      exact .number hc ht (hends.weaken fun c h => joins_of_word (isWordChar_of_digit h))
  | word hc ht _ => exact .word hc ht (hends.weaken fun c => joins_of_word)
  | openComment => exact absurd rfl hk
  | pair hs => exact .pair hs
  | single hc _ =>
      refine .single hc ?_
      intro d hd
      have hjoins : joins d = false := hends.head hd
      -- a longer symbol or a comment would go on with one of these characters
      have hne : d ≠ '=' ∧ d ≠ '&' ∧ d ≠ '|' ∧ d ≠ '/' ∧ d ≠ '*' := by
        refine ⟨?_, ?_, ?_, ?_, ?_⟩ <;>
          (intro heq; subst heq; exact absurd hjoins (by decide))
      refine ⟨?_, fun h => h.2.elim hne.2.2.2.1 hne.2.2.2.2⟩
      unfold Symbol.ofPair?
      split <;> simp_all

/-- The characters with which no token goes on in a printed text. -/
def isStop (c : Char) : Bool := c == ' ' || c == '\n' || c == ')' || c == ';'

/-- Nothing follows with which a token could go on. -/
def Stops (rest : List Char) : Prop := rest.head?.all isStop = true

theorem isStop_cases {c : Char} (h : isStop c = true) : c = ' ' ∨ c = '\n' ∨ c = ')' ∨ c = ';' := by
  simpa [isStop, or_assoc] using h

/-- What stops a token joins none. -/
theorem Stops.ends {rest : List Char} (h : Stops rest) : Ends joins rest := by
  cases rest with
  | nil => rfl
  | cons d rest =>
      have hd : isStop d = true := by simpa [Stops] using h
      rcases isStop_cases hd with rfl | rfl | rfl | rfl <;> rfl

theorem Stops.ends_word {rest : List Char} (h : Stops rest) : Ends isWordChar rest :=
  h.ends.weaken fun _ => joins_of_word

/-! ## §2. The lexer cuts these pieces -/

/-- A run taken as long as possible ends where it is left. -/
theorem ends_dropWhile (p : Char → Bool) (text : List Char) : Ends p (text.dropWhile p) := by
  have h := List.head?_dropWhile_not p text
  unfold Ends
  cases hc : (text.dropWhile p).head? with
  | none => rfl
  | some c =>
      rw [hc] at h
      simpa using h

theorem closeComment_ne_nil {text body rest : List Char}
    (h : closeComment text = some (body, rest)) : body ≠ [] := by
  fun_induction closeComment text generalizing body with
  | case1 => exact absurd h (by simp)
  | case2 tail =>
      simp only [Option.some.injEq, Prod.mk.injEq] at h
      simp [← h.1]
  | case3 c tail hno ih =>
      obtain ⟨⟨body', rest''⟩, -, heq⟩ := Option.map_eq_some_iff.1 h
      simp only [Prod.mk.injEq] at heq
      simp [← heq.1]

/-- A comment ends with its closing, and what follows does not matter. -/
theorem closeComment_local {text body rest : List Char}
    (h : closeComment text = some (body, rest)) (rest' : List Char) :
    closeComment (body ++ rest') = some (body, rest') := by
  fun_induction closeComment text generalizing body with
  | case1 => exact absurd h (by simp)
  | case2 tail =>
      simp only [Option.some.injEq, Prod.mk.injEq] at h
      obtain ⟨rfl, rfl⟩ := h
      rfl
  | case3 c tail hno ih =>
      obtain ⟨⟨body', rest''⟩, hbody, heq⟩ := Option.map_eq_some_iff.1 h
      simp only [Prod.mk.injEq] at heq
      obtain ⟨rfl, rfl⟩ := heq
      have hsplit := closeComment_append hbody
      -- the closing is not here, since the first character of the rest of the comment is the same
      have hno' : ∀ tail', c = '*' → body' ++ rest' = '/' :: tail' → False := by
        intro tail' hc htail
        cases body' with
        | nil => exact closeComment_ne_nil hbody rfl
        | cons d body' =>
            obtain ⟨rfl, -⟩ := List.cons.inj htail
            exact hno _ hc hsplit.symm
      rw [List.cons_append, closeComment.eq_3 _ _ hno', ih hbody]
      rfl

/-- A symbol is cut off, unless it opens a comment. -/
theorem cut_symbolPiece {c : Char} {rest : List Char} (hc : isMark c = true)
    (hno : ∀ d, rest.head? = some d → ¬ (c = '/' ∧ (d = '/' ∨ d = '*'))) :
    Cut (symbolPiece c rest).1 (symbolPiece c rest).2 := by
  unfold symbolPiece
  split
  next d rest' =>
    split
    next s hs => exact .pair hs
    next hs =>
      -- one character alone: the next one makes no longer symbol with it
      refine .single hc ?_
      intro d' hd'
      obtain rfl : d = d' := by simpa using hd'
      exact ⟨hs, hno d rfl⟩
  next =>
    exact .single hc (fun d hd => absurd hd (by simp))

/-- A mark is cut off as a comment or as a symbol. -/
theorem cut_markPiece {c : Char} {rest : List Char} (hc : isMark c = true) :
    Cut (markPiece c rest).1 (markPiece c rest).2 := by
  unfold markPiece
  split
  next => exact .line List.all_takeWhile (ends_dropWhile _ _)
  next rest' =>
    split
    next text behind h =>
      -- where a comment closes does not depend on what stands behind it
      have hlocal := closeComment_local h []
      rw [List.append_nil] at hlocal
      exact .comment hlocal
    next h => exact .openComment h
  next hline hblock =>
    refine cut_symbolPiece hc ?_
    rintro d hd ⟨rfl, rfl | rfl⟩
    · obtain ⟨tail, rfl⟩ := List.head?_eq_some_iff.1 hd
      exact hline tail rfl rfl
    · obtain ⟨tail, rfl⟩ := List.head?_eq_some_iff.1 hd
      exact hblock tail rfl rfl

/-- The lexer cuts off a piece in front of what it leaves. -/
theorem cut_next (c : Char) (rest : List Char) : Cut (next c rest).1 (next c rest).2 := by
  unfold next
  split
  next hblank => exact .blanks hblank List.all_takeWhile (ends_dropWhile _ _)
  next hblank =>
    split
    next hdigit => exact .number hdigit List.all_takeWhile (ends_dropWhile _ _)
    next hdigit =>
      split
      next hword => exact .word hword List.all_takeWhile (ends_dropWhile _ _)
      next hword =>
        -- what is neither blank, digit nor letter is a mark
        refine cut_markPiece ?_
        unfold isMark
        simp [hblank, hdigit, hword]

theorem isDigit_range {c : Char} (h : c.isDigit = true) : 48 ≤ c.toNat ∧ c.toNat ≤ 57 := by
  obtain ⟨hlow, hhigh⟩ := Bool.and_eq_true_iff.1 h
  exact ⟨UInt32.le_iff_toNat_le.1 (of_decide_eq_true hlow),
    UInt32.le_iff_toNat_le.1 (of_decide_eq_true hhigh)⟩

/-- The characters that start a word, by their codes. -/
theorem isWordStart_range {c : Char} (h : isWordStart c = true) :
    (65 ≤ c.toNat ∧ c.toNat ≤ 90) ∨ (97 ≤ c.toNat ∧ c.toNat ≤ 122) ∨ c.toNat = 95 := by
  rcases Bool.or_eq_true_iff.1 h with halpha | hline
  · rcases Bool.or_eq_true_iff.1 halpha with hupper | hlower
    · obtain ⟨hlow, hhigh⟩ := of_decide_eq_true hupper
      exact .inl ⟨UInt32.le_iff_toNat_le.1 hlow, UInt32.le_iff_toNat_le.1 hhigh⟩
    · obtain ⟨hlow, hhigh⟩ := Bool.and_eq_true_iff.1 hlower
      exact .inr (.inl ⟨UInt32.le_iff_toNat_le.1 (of_decide_eq_true hlow),
        UInt32.le_iff_toNat_le.1 (of_decide_eq_true hhigh)⟩)
  · right
    right
    rw [beq_iff_eq.1 hline]
    rfl

theorem isBlank_eq_false {c : Char} (hlow : 33 ≤ c.toNat) (hhigh : c.toNat ≤ 126) :
    Text.isBlank c = false := by
  simp only [Text.isBlank, Text.CharRanges.contains, Text.blankRanges, List.any_cons, List.any_nil,
    Bool.or_false, Bool.or_eq_false_iff, Bool.and_eq_false_iff, decide_eq_false_iff_not]
  omega

/-- A character that starts a word starts no number and no run of blanks. -/
theorem isWordStart_only {c : Char} (h : isWordStart c = true) :
    Text.isBlank c = false ∧ c.isDigit = false := by
  have hrange := isWordStart_range h
  refine ⟨isBlank_eq_false (by omega) (by omega), ?_⟩
  cases hd : c.isDigit with
  | false => rfl
  | true =>
      have := isDigit_range hd
      omega

theorem isDigit_only {c : Char} (h : c.isDigit = true) : Text.isBlank c = false := by
  have hrange := isDigit_range h
  exact isBlank_eq_false (by omega) (by omega)

/-- A character that is a mark is no blank, digit or letter, so the marks decide. -/
theorem next_mark {c : Char} (h : isMark c = true) (rest : List Char) :
    next c rest = markPiece c rest := by
  unfold isMark at h
  simp only [Bool.and_eq_true, Bool.not_eq_true'] at h
  unfold next
  rw [if_neg (by rw [h.1.1]; simp), if_neg (by rw [h.1.2]; simp), if_neg (by rw [h.2]; simp)]

/-- Without a slash or a star behind a slash there is no comment. -/
theorem markPiece_symbol {c : Char} {rest : List Char}
    (h : ∀ d, rest.head? = some d → ¬ (c = '/' ∧ (d = '/' ∨ d = '*'))) :
    markPiece c rest = symbolPiece c rest := by
  unfold markPiece
  split
  next rest' => exact absurd ⟨rfl, .inl rfl⟩ (h '/' rfl)
  next rest' => exact absurd ⟨rfl, .inr rfl⟩ (h '*' rfl)
  next => rfl

/-- Only marks start a symbol. -/
theorem isMark_of_ofChar? {c : Char} {s : Symbol} (h : Symbol.ofChar? c = some s) :
    isMark c = true := by
  unfold Symbol.ofChar? at h
  split at h <;> first
    | decide
    | exact absurd h (by simp)

/-- Only marks start a symbol of two characters, and none of these starts a comment. -/
theorem isMark_of_ofPair? {c d : Char} {s : Symbol} (h : Symbol.ofPair? c d = some s) :
    isMark c = true ∧ c ≠ '/' := by
  unfold Symbol.ofPair? at h
  split at h <;> first
    | exact ⟨by decide, by decide⟩
    | exact absurd h (by simp)

/-- **The lexer finds a piece again** in front of a text where it ends. -/
theorem Cut.next {piece : Piece} {rest : List Char} (h : Cut piece rest) :
    ∃ c text, piece.text = c :: text ∧ Lexer.next c (text ++ rest) = (piece, rest) := by
  cases h with
  | @blanks c text rest hc ht hr =>
      refine ⟨c, text, rfl, ?_⟩
      obtain ⟨htake, hdrop⟩ := takeWhile_append_of_stop ht hr
      unfold Lexer.next
      rw [if_pos hc, htake, hdrop]
  | @number c text rest hc ht hr =>
      refine ⟨c, text, rfl, ?_⟩
      obtain ⟨htake, hdrop⟩ := takeWhile_append_of_stop ht hr
      unfold Lexer.next
      rw [if_neg (by rw [isDigit_only hc]; simp), if_pos hc, htake, hdrop]
  | @word c text rest hc ht hr =>
      refine ⟨c, text, rfl, ?_⟩
      obtain ⟨htake, hdrop⟩ := takeWhile_append_of_stop ht hr
      obtain ⟨hblank, hdigit⟩ := isWordStart_only hc
      unfold Lexer.next
      rw [if_neg (by rw [hblank]; simp), if_neg (by rw [hdigit]; simp), if_pos hc, htake, hdrop]
  -- a slash is a mark, and the character behind it decides on the rest
  | @line text rest ht hr =>
      refine ⟨'/', '/' :: text, rfl, ?_⟩
      obtain ⟨htake, hdrop⟩ := takeWhile_append_of_stop ht hr
      rw [next_mark (by decide), List.cons_append, markPiece.eq_1, htake, hdrop]
  | @comment text rest ht =>
      refine ⟨'/', '*' :: text, rfl, ?_⟩
      rw [next_mark (by decide), List.cons_append, markPiece.eq_2, closeComment_local ht rest]
  | @openComment text ht =>
      refine ⟨'/', '*' :: text, rfl, ?_⟩
      rw [next_mark (by decide), List.append_nil, markPiece.eq_2, ht]
  | @pair c d s rest hs =>
      refine ⟨c, [d], rfl, ?_⟩
      have hmark := isMark_of_ofPair? hs
      rw [next_mark hmark.1, markPiece_symbol (fun _ _ h => hmark.2 h.1)]
      unfold symbolPiece
      rw [List.cons_append, List.nil_append]
      dsimp only
      rw [hs]
  -- a mark is taken alone where the next character does not go with it
  | @single c rest hc hr =>
      refine ⟨c, [], rfl, ?_⟩
      rw [List.nil_append, next_mark hc, markPiece_symbol (fun d hd => (hr d hd).2)]
      unfold symbolPiece
      cases rest with
      | nil => rfl
      | cons d rest =>
          dsimp only
          rw [(hr d rfl).1]

/-! ## §3. Pieces of a text -/

/-- Any bound that is large enough gives the same pieces. -/
theorem piecesUpTo_bound (n m : Nat) (text : List Char) (hn : text.length ≤ n)
    (hm : text.length ≤ m) : piecesUpTo n text = piecesUpTo m text := by
  induction n generalizing m text with
  | zero =>
      rw [List.length_eq_zero_iff.1 (Nat.le_zero.1 hn)]
      cases m <;> rfl
  | succ n ih =>
      cases text with
      | nil => cases m <;> rfl
      | cons c text =>
          rw [List.length_cons] at hn hm
          obtain ⟨m, rfl⟩ : ∃ k, m = k + 1 := ⟨m - 1, by omega⟩
          -- a piece takes at least one character, so both bounds stay large enough
          have hrest := next_rest_length c text
          show (next c text).1 :: piecesUpTo n (next c text).2
            = (next c text).1 :: piecesUpTo m (next c text).2
          rw [ih m _ (by omega) (by omega)]

/-- The lexer takes one piece off the text and goes on behind it. -/
theorem pieces_cons (c : Char) (text : List Char) :
    pieces (c :: text) = (next c text).1 :: pieces (next c text).2 := by
  have hrest := next_rest_length c text
  show (next c text).1 :: piecesUpTo text.length (next c text).2 = _
  rw [pieces, piecesUpTo_bound _ _ _ hrest (Nat.le_refl _)]

/-- **A piece that can be cut is cut**: the lexer finds it and goes on behind it. -/
theorem Cut.pieces {piece : Piece} {rest : List Char} (h : Cut piece rest) :
    Lexer.pieces (piece.text ++ rest) = piece :: Lexer.pieces rest := by
  obtain ⟨c, text, htext, hnext⟩ := h.next
  rw [htext, List.cons_append, pieces_cons, hnext]

/-- Pieces of which each is cut off in front of the next ones and of what follows them all. -/
def CutAll : List Piece → List Char → Prop
  | [], _ => True
  | piece :: pieces, rest => Cut piece (pieces.flatMap Piece.text ++ rest) ∧ CutAll pieces rest

/-- Pieces that can be cut one after the other are found one after the other. -/
theorem CutAll.pieces {ps : List Piece} {rest : List Char} (h : CutAll ps rest) :
    Lexer.pieces (ps.flatMap Piece.text ++ rest) = ps ++ Lexer.pieces rest := by
  induction ps with
  | nil => rfl
  | cons piece ps ih =>
      rw [List.flatMap_cons, List.append_assoc, h.1.pieces, ih h.2, List.cons_append]

/-- Pieces in a row can be cut if the first ones can, in front of the text of the others. -/
theorem cutAll_append {ps qs : List Piece} {rest : List Char} :
    CutAll (ps ++ qs) rest ↔ CutAll ps (qs.flatMap Piece.text ++ rest) ∧ CutAll qs rest := by
  induction ps with
  | nil => simp [CutAll]
  | cons piece ps ih =>
      simp only [List.cons_append, CutAll, ih, List.flatMap_append, List.append_assoc, and_assoc]

/-- Whether the last piece can be cut depends on the next character only. -/
theorem CutAll.congr {ps : List Piece} {rest rest' : List Char} (h : CutAll ps rest)
    (hhead : rest'.head? = rest.head?) : CutAll ps rest' := by
  induction ps with
  | nil => trivial
  | cons piece ps ih =>
      refine ⟨h.1.congr ?_, ih h.2⟩
      rw [List.head?_append, List.head?_append, hhead]

/-- The pieces of a text follow one another. -/
theorem cutAll_piecesUpTo (bound : Nat) (text : List Char) (h : text.length ≤ bound) :
    CutAll (piecesUpTo bound text) [] := by
  induction bound generalizing text with
  | zero =>
      rw [List.length_eq_zero_iff.1 (Nat.le_zero.1 h)]
      trivial
  | succ bound ih =>
      cases text with
      | nil => trivial
      | cons c text =>
          rw [List.length_cons] at h
          have hrest := next_rest_length c text
          show Cut (next c text).1 ((piecesUpTo bound (next c text).2).flatMap Piece.text ++ []) ∧
            CutAll (piecesUpTo bound (next c text).2) []
          refine ⟨?_, ih _ (by omega)⟩
          -- what stands behind the first piece is the text of the others
          rw [List.append_nil, piecesUpTo_flatMap _ _ (by omega)]
          exact cut_next c text

/-- What the lexer cuts can be cut. -/
theorem cutAll_pieces (text : List Char) : CutAll (pieces text) [] :=
  cutAll_piecesUpTo _ text (Nat.le_refl _)

/-! ## §4. The tokens of a text -/

/-- What the grammar sees of a piece that is no layout. -/
def lexeme? (piece : Piece) : Option Lexeme :=
  piece.kind.map fun kind => ⟨kind, lexeme kind piece.text⟩

/-- The tokens of a text, without their places. -/
def lexed (text : List Char) : List Lexeme := (pieces text).filterMap lexeme?

/-- Lexemes do not depend on where the text stands. -/
theorem map_lexeme_place (p : Position) (ps : List Piece) :
    (place p ps).map Token.lexeme = ps.filterMap lexeme? := by
  induction ps generalizing p with
  | nil => rfl
  | cons piece ps ih =>
      unfold place
      dsimp only
      split
      -- layout leaves neither a token nor a lexeme
      next hk =>
        rw [List.filterMap_cons_none (by rw [lexeme?, hk]; rfl)]
        exact ih _
      next kind hk =>
        rw [List.filterMap_cons_some (b := ⟨kind, lexeme kind piece.text⟩) (by rw [lexeme?, hk]; rfl)]
        exact congrArg _ (ih _)

/-- A token shows its text, but a comment without an end only its opening. -/
theorem lexeme_eq_ite (kind : Token.Kind) (text : List Char) :
    lexeme kind text = if kind = .openComment then "/*" else String.ofList text := by
  cases kind <;> rfl

/-- A piece that is no token only moves the position. -/
theorem place_layout {piece : Piece} (h : piece.kind = none) (p : Position) (ps : List Piece) :
    place p (piece :: ps) = place (p.after piece.text) ps := by
  conv => lhs; unfold place
  dsimp only
  rw [h]

/-- A piece that is a token stands from where it starts to where it ends. -/
theorem place_token {piece : Piece} {kind : Token.Kind} (h : piece.kind = some kind) (p : Position)
    (ps : List Piece) :
    place p (piece :: ps) = ⟨kind, lexeme kind piece.text, ⟨p, p.after piece.text⟩⟩ ::
      place (p.after piece.text) ps := by
  conv => lhs; unfold place
  dsimp only
  rw [h]

theorem place_skip {text rest : List Char} (h : Cut ⟨none, text⟩ rest) (p : Position) :
    place p (pieces (text ++ rest)) = place (p.after text) (pieces rest) := by
  rw [show pieces (text ++ rest) = _ from h.pieces, place_layout rfl]

/-- A blank in front of a text moves its tokens, also where it lengthens a run of blanks. -/
theorem place_blank {c : Char} (hc : Text.isBlank c = true) (p : Position) (rest : List Char) :
    place p (pieces (c :: rest)) = place (p.after [c]) (pieces rest) := by
  -- the lexer takes blanks in one run, so one blank less is a shorter run or none
  have hrun : ∀ p d text, Text.isBlank d = true → place p (pieces (d :: text)) =
      place (p.after (d :: text.takeWhile Text.isBlank))
        (pieces (text.dropWhile Text.isBlank)) := by
    intro p d text hd
    rw [pieces_cons]
    unfold next
    rw [if_pos hd]
    exact place_layout rfl p _
  rw [hrun p c rest hc]
  cases rest with
  | nil => rfl
  | cons d rest =>
      by_cases hd : Text.isBlank d = true
      · rw [List.takeWhile_cons_of_pos hd, List.dropWhile_cons_of_pos hd, hrun _ d rest hd]
        rfl
      · rw [List.takeWhile_cons_of_neg hd, List.dropWhile_cons_of_neg hd]

end Lexer

/-- The tokens of a source text are those of its characters. -/
theorem lexemes_eq_lexed (source : String) : lexemes source = Lexer.lexed source.toList :=
  Lexer.map_lexeme_place _ _

namespace Lexer

/-- The lexemes of pieces in a row are those of each. -/
theorem lexed_append {ps : List Piece} {rest : List Char} (h : CutAll ps rest) :
    lexed (ps.flatMap Piece.text ++ rest) = ps.filterMap lexeme? ++ lexed rest := by
  unfold lexed
  rw [h.pieces, List.filterMap_append]

theorem lexed_token {kind : Token.Kind} {text rest : List Char} (h : Cut ⟨some kind, text⟩ rest) :
    lexed (text ++ rest) = ⟨kind, lexeme kind text⟩ :: lexed rest := by
  unfold lexed
  rw [show pieces (text ++ rest) = _ from h.pieces]
  rfl

/-- Blanks in front of a text add no tokens. -/
theorem lexed_blank {c : Char} (hc : Text.isBlank c = true) (rest : List Char) :
    lexed (c :: rest) = lexed rest := by
  unfold lexed
  rw [← map_lexeme_place Position.start, place_blank hc, map_lexeme_place]

/-- Blanks are no lexemes and end none. -/
theorem lexed_blanks {blanks : List Char} (h : blanks.all Text.isBlank = true) (rest : List Char) :
    lexed (blanks ++ rest) = lexed rest := by
  induction blanks with
  | nil => rfl
  | cons c blanks ih =>
      rw [List.all_cons, Bool.and_eq_true] at h
      rw [List.cons_append, lexed_blank h.1, ih h.2]

/-- The characters that can be the first of a longer symbol or of a comment. -/
def joiners : List Char := ['=', '!', '<', '>', '&', '|', '/']

/-- A symbol of one character, where what follows makes it neither a longer symbol nor a comment. -/
theorem cut_symbol {c : Char} {s : Symbol} {rest : List Char} (hs : Symbol.ofChar? c = some s)
    (hr : ∀ d, rest.head? = some d →
      Symbol.ofPair? c d = none ∧ ¬ (c = '/' ∧ (d = '/' ∨ d = '*'))) :
    Cut ⟨some (.symbol s), [c]⟩ rest := by
  have hsingle : symbolPiece.single c = .symbol s := by
    unfold symbolPiece.single
    rw [hs]
  have hcut := Cut.single (isMark_of_ofChar? hs) hr
  rw [hsingle] at hcut
  exact hcut

/-- A mark that starts no longer symbol is a lexeme by itself. -/
theorem lexed_mark {c : Char} {s : Symbol} (hs : Symbol.ofChar? c = some s) (hc : c ∉ joiners)
    (rest : List Char) : lexed (c :: rest) = ⟨.symbol s, s.spelling⟩ :: lexed rest := by
  -- no symbol of two characters starts with it
  have hpair : ∀ d, Symbol.ofPair? c d = none := by
    intro d
    unfold Symbol.ofPair?
    split <;> first
      | rfl
      | exact absurd (by decide) hc
  have hcut : Cut ⟨some (.symbol s), [c]⟩ rest := by
    refine cut_symbol hs fun d _ => ⟨hpair d, ?_⟩
    rintro ⟨rfl, -⟩
    exact hc (by decide)
  have hlexed := lexed_token hcut
  rw [show lexeme (.symbol s) [c] = s.spelling from ofChar?_spelling hs] at hlexed
  exact hlexed

/-- A word is read to its end, and is a keyword or a name as a whole. -/
theorem lexed_word {c : Char} {text rest : List Char} (hc : isWordStart c = true)
    (ht : text.all isWordChar = true) (hr : Ends isWordChar rest) :
    lexed (c :: text ++ rest) =
      ⟨wordKind (c :: text), String.ofList (c :: text)⟩ :: lexed rest := by
  have hlexeme : lexeme (wordKind (c :: text)) (c :: text) = String.ofList (c :: text) := by
    unfold wordKind
    split <;> rfl
  rw [lexed_token (.word hc ht hr), hlexeme]

/-! ## §5. Texts in front of others -/

/-- A text stands for tokens in front of everything that may follow it. -/
def Yields (Follow : List Char → Prop) (text : List Char) (ws : List Lexeme) : Prop :=
  ∀ rest, Follow rest → lexed (text ++ rest) = ws ++ lexed rest

/-- Texts in a row yield their lexemes in a row, if the second text starts with what may follow the
    first. -/
theorem Yields.append {F G : List Char → Prop} {a b : List Char} {us vs : List Lexeme}
    (ha : Yields F a us) (hb : Yields G b vs) (h : ∀ rest, G rest → F (b ++ rest)) :
    Yields G (a ++ b) (us ++ vs) := by
  intro rest hrest
  rw [List.append_assoc, List.append_assoc, ha _ (h rest hrest), hb rest hrest]

theorem Yields.weaken {F G : List Char → Prop} {text : List Char} {ws : List Lexeme}
    (h : Yields F text ws) (hfg : ∀ rest, G rest → F rest) : Yields G text ws :=
  fun rest hrest => h rest (hfg rest hrest)

/-- What may stand at the end of a text is read as what it yields. -/
theorem Yields.lexed {F : List Char → Prop} {text : List Char} {ws : List Lexeme}
    (h : Yields F text ws) (hend : F []) : Lexer.lexed text = ws := by
  have hall := h [] hend
  rw [List.append_nil] at hall
  exact hall.trans (List.append_nil ws)

/-- A keyword in front of anything that does not lengthen it. -/
theorem yields_keyword (k : Keyword) :
    Yields (Ends isWordChar) k.spelling.toList [⟨.keyword k, k.spelling⟩] := by
  intro rest hrest
  cases k <;> exact lexed_word rfl rfl hrest

/-- A word that is no keyword yields a name, in front of anything that does not go on with it. -/
theorem yields_identifier {text : String} (hword : IsWord text)
    (hname : Keyword.ofSpelling? text = none) :
    Yields (Ends isWordChar) text.toList [⟨.identifier, text⟩] := by
  obtain ⟨c, cs, rfl, hc, hcs⟩ := hword
  intro rest hrest
  have hlexed := lexed_word hc hcs hrest
  rw [wordKind, hname] at hlexed
  rw [String.toList_ofList]
  exact hlexed

theorem isNumeral_toDigits (n : Nat) : IsNumeral (String.ofList (Nat.toDigits 10 n)) := by
  obtain ⟨c, cs, hdigits, hc⟩ := Json.toDigits_eq_cons n
  have hall := Json.isDigit_toDigits n
  rw [hdigits] at hall ⊢
  exact ⟨c, cs, rfl, hc, List.all_eq_true.2 fun d hd => hall d (List.mem_cons_of_mem c hd)⟩

theorem yields_numeral {text : String} (h : IsNumeral text) :
    Yields (Ends Char.isDigit) text.toList [⟨.number, text⟩] := by
  obtain ⟨c, cs, rfl, hc, hcs⟩ := h
  intro rest hrest
  rw [String.toList_ofList]
  exact lexed_token (.number hc hcs hrest)

/-- A symbol yields itself, in front of anything that cannot be joined to it. -/
theorem yields_symbol (s : Symbol) :
    Yields (Ends joins) s.spelling.toList [⟨.symbol s, s.spelling⟩] := by
  intro rest hrest
  have hcut : Cut ⟨some (.symbol s), s.spelling.toList⟩ [] := by
    cases s <;> first
      | exact .pair rfl
      | exact cut_symbol rfl (fun _ hd => absurd hd (by simp))
  have hlexed := lexed_token (hcut.ends (by simp) hrest)
  rw [show lexeme (.symbol s) s.spelling.toList = s.spelling from String.ofList_toList] at hlexed
  exact hlexed

end Lexer

end TinyLang
