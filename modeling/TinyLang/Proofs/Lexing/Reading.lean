/-
  TinyLang.Proofs.Lexing.Reading — where a cursor stands, whatever it was told to do.

  A cursor counts bytes, lines and columns one character at a time.  After any moves it
  stands BETWEEN two parts of its text, the part it has read and the part ahead,

      (between read ahead).run moves = between (read ++ passed) (ahead without passed)

  and its counts are those of the whole part behind it:

      offset = bytes of the part read
      line   = 1 + line feeds in it
      column = 1 + characters behind the last of them

  So the offset of a cursor never lies inside a character, and a cut from an earlier point of
  the same cursor gives the text read since.  The tokens of a source text stand where a
  cursor stands that passes over its pieces, one after the other:

      tokens of the source = what the cursor cuts out along the pieces
-/

import Mathlib.Data.List.DropRight
import TinyLang.Proofs.Lexing.Slices

namespace TinyLang

/-! ## §1. Points of a text -/

namespace Position

theorem byteLength_eq_utf8ByteSize (text : List Char) :
    byteLength text = (String.ofList text).utf8ByteSize := by
  induction text with
  | nil => rfl
  | cons c text ih =>
      rw [byteLength, ih, String.ofList_cons, String.utf8ByteSize_append,
        String.utf8ByteSize_singleton]

/-- The line grows by the line feeds of the text. -/
theorem after_line (p : Position) (text : List Char) :
    (p.after text).line = p.line + text.count '\n' := by
  induction text generalizing p with
  | nil => rfl
  | cons c text ih =>
      rw [after_cons, ih, List.count_cons]
      unfold next
      -- a line end starts a new line, and nothing else does
      by_cases hc : c = '\n'
      · rw [if_pos hc, if_pos (beq_iff_eq.2 hc)]
        dsimp only
        omega
      · rw [if_neg hc, if_neg (fun h => hc (beq_iff_eq.1 h))]
        dsimp only
        omega

/-- The column counts the characters behind the last line feed. -/
theorem start_after_column (text : List Char) :
    (start.after text).column = 1 + (text.rtakeWhile (· != '\n')).length := by
  -- the last character decides whether the count goes on or starts again
  induction text using List.reverseRecOn with
  | nil => rfl
  | append_singleton text c ih =>
      rw [after_append]
      show ((start.after text).next c).column = _
      unfold next
      by_cases hc : c = '\n'
      · rw [if_pos hc, List.rtakeWhile_concat_neg _ _ _ (by simp [hc])]
        rfl
      · rw [if_neg hc, List.rtakeWhile_concat_pos _ _ _ (by simp [hc]), List.length_append]
        dsimp only
        rw [ih]
        rfl

end Position

namespace Cursor

/-! ## §2. Moves -/

/-- What a cursor can be told to do. -/
inductive Move where
  | peek
  | peekNext
  | advance
  | advanceWhile (p : Char → Bool)

/-- What a cursor answers to a move, and the cursor behind it. -/
def Move.act : Move → Cursor → Option Char × Cursor
  | .peek, c => (c.peek, c)
  | .peekNext, c => (c.peekNext, c)
  | .advance, c => c.advance
  | .advanceWhile p, c => (none, c.advanceWhile p)

/-- The cursor behind some moves. -/
def run (c : Cursor) (moves : List Move) : Cursor := moves.foldl (fun c m => (m.act c).2) c

/-- The characters ahead that a move passes: looking passes none, a step the next one if there is
    one, and a run the longest beginning that satisfies its test. -/
def Move.passes : Move → List Char → List Char
  | .peek, _ => []
  | .peekNext, _ => []
  | .advance, ahead => ahead.take 1
  | .advanceWhile p, ahead => ahead.takeWhile p

/-- The characters ahead that some moves pass, one move after the other. -/
def passes : List Move → List Char → List Char
  | [], _ => []
  | m :: moves, ahead => m.passes ahead ++ passes moves (ahead.drop (m.passes ahead).length)

theorem Move.passes_append_drop (m : Move) (ahead : List Char) :
    m.passes ahead ++ ahead.drop (m.passes ahead).length = ahead := by
  refine List.prefix_iff_eq_append.1 ?_
  cases m with
  | peek => exact List.nil_prefix
  | peekNext => exact List.nil_prefix
  | advance => exact List.take_prefix 1 ahead
  | advanceWhile p => exact List.takeWhile_prefix p

/-! ## §3. What one move does, and what many do -/

/-- The cursor that has read one part of a text and has another one ahead. -/
def between (read ahead : List Char) : Cursor := ⟨read.reverse, ahead, Position.start.after read⟩

/-- One step passes one character, which goes from what is ahead to what has been read. -/
theorem advance_between (read : List Char) (x : Char) (ahead : List Char) :
    (between read (x :: ahead)).advance = (some x, between (read ++ [x]) ahead) := by
  unfold between
  rw [List.reverse_append, Position.after_append]
  rfl

/-- A run passes the longest text of characters that go on. -/
theorem advanceWhile_between (p : Char → Bool) (read ahead : List Char) :
    (between read ahead).advanceWhile p =
      between (read ++ ahead.takeWhile p) (ahead.dropWhile p) := by
  induction ahead generalizing read with
  | nil =>
      rw [List.takeWhile_nil, List.append_nil]
      rfl
  | cons x ahead ih =>
      by_cases hx : p x = true
      · rw [List.takeWhile_cons_of_pos hx, List.dropWhile_cons_of_pos hx]
        -- the loop goes on as it would from behind the character
        have hstep : (between read (x :: ahead)).advanceWhile p =
            (between (read ++ [x]) ahead).advanceWhile p := by
          have hmoved : between (read ++ [x]) ahead =
              ⟨x :: read.reverse, ahead, (Position.start.after read).next x⟩ :=
            (congrArg Prod.snd (advance_between read x ahead)).symm
          rw [hmoved]
          exact if_pos hx
        rw [hstep, ih, List.append_assoc]
        rfl
      · rw [List.takeWhile_cons_of_neg hx, List.dropWhile_cons_of_neg hx, List.append_nil]
        exact if_neg hx

/-- One move takes the characters that it passes from what is ahead to what has been read. -/
theorem Move.act_between (m : Move) (read ahead : List Char) :
    (m.act (between read ahead)).2 =
      between (read ++ m.passes ahead) (ahead.drop (m.passes ahead).length) := by
  cases m with
  | peek =>
      show between read ahead = between (read ++ []) ahead
      rw [List.append_nil]
  | peekNext =>
      show between read ahead = between (read ++ []) ahead
      rw [List.append_nil]
  | advance =>
      cases ahead with
      | nil =>
          show between read [] = between (read ++ []) []
          rw [List.append_nil]
      | cons x ahead => exact congrArg Prod.snd (advance_between read x ahead)
  | advanceWhile p =>
      show (between read ahead).advanceWhile p = _
      rw [advanceWhile_between]
      -- what a run leaves is what is behind as many characters
      have hdrop : ahead.drop (ahead.takeWhile p).length = ahead.dropWhile p :=
        List.append_cancel_left ((Move.passes_append_drop (.advanceWhile p) ahead).trans
          List.takeWhile_append_dropWhile.symm)
      show _ = between (read ++ ahead.takeWhile p) (ahead.drop (ahead.takeWhile p).length)
      rw [hdrop]

/-- Any moves take the characters that they pass from what is ahead to what has been read. -/
theorem run_between (moves : List Move) (read ahead : List Char) :
    (between read ahead).run moves =
      between (read ++ passes moves ahead) (ahead.drop (passes moves ahead).length) := by
  induction moves generalizing read ahead with
  | nil =>
      show between read ahead = between (read ++ []) ahead
      rw [List.append_nil]
  | cons m moves ih =>
      show run ((m.act (between read ahead)).2) moves = _
      rw [m.act_between, ih, List.append_assoc, List.drop_drop, passes, List.length_append]

/-- What moves pass is what is ahead, as far as they go. -/
theorem passes_append_drop (moves : List Move) (ahead : List Char) :
    passes moves ahead ++ ahead.drop (passes moves ahead).length = ahead := by
  induction moves generalizing ahead with
  | nil => rfl
  | cons m moves ih =>
      rw [passes, List.length_append, ← List.drop_drop, List.append_assoc, ih]
      exact m.passes_append_drop ahead

/-! ## §4. Exact positions -/

/-- A cursor shows exactly where it stands in a source text, with one part read and another ahead:
    its position counts the part read, it looks at the part ahead, and the source can be cut at its
    offset. -/
structure Exact (c : Cursor) (source : String) (read ahead : List Char) : Prop where
  parts : source.toList = read ++ ahead
  offset : c.position.offset = (String.ofList read).utf8ByteSize
  line : c.position.line = 1 + read.count '\n'
  column : c.position.column = 1 + (read.rtakeWhile (· != '\n')).length
  atEnd : c.atEnd = true ↔ read = source.toList
  reached : c.atEnd = true ↔ source.utf8ByteSize ≤ c.position.offset
  peek : c.peek = ahead[0]?
  peekNext : c.peekNext = ahead[1]?
  advance : c.advance.1 = ahead[0]?
  cut : dropBytes c.position.offset source.toList = some ahead

/-- The offset counts the bytes that have been read. -/
theorem between_offset (read ahead : List Char) :
    (between read ahead).position.offset = Position.byteLength read := by
  show (Position.start.after read).offset = _
  rw [Position.after_offset]
  exact Nat.zero_add _

/-- The offset of a cursor reaches the length of the text, in bytes, when nothing is ahead. -/
theorem between_reached {source : String} {read ahead : List Char}
    (h : source.toList = read ++ ahead) :
    source.utf8ByteSize ≤ (between read ahead).position.offset ↔ ahead = [] := by
  have hsource : source = String.ofList read ++ String.ofList ahead := by
    rw [← String.ofList_append, ← h, String.ofList_toList]
  have hsize : source.utf8ByteSize = Position.byteLength read + Position.byteLength ahead := by
    rw [hsource, String.utf8ByteSize_append, Position.byteLength_eq_utf8ByteSize,
      Position.byteLength_eq_utf8ByteSize]
  rw [between_offset, hsize]
  cases ahead with
  | nil => simp [Position.byteLength]
  | cons x ahead =>
      -- the next character takes one byte at least
      have hpos := x.utf8Size_pos
      rw [Position.byteLength]
      constructor
      · intro hle
        omega
      · intro hnil
        exact absurd hnil (by simp)

/-- **A cursor between two parts of a source is exact**: all that it tells of itself is what the
    parts say. -/
theorem between_exact {source : String} {read ahead : List Char}
    (h : source.toList = read ++ ahead) : (between read ahead).Exact source read ahead where
  parts := h
  offset := by rw [between_offset, Position.byteLength_eq_utf8ByteSize]
  line := Position.after_line _ read
  column := Position.start_after_column read
  atEnd := by
    show ahead.isEmpty = true ↔ _
    rw [h, List.isEmpty_iff]
    exact List.self_eq_append_right.symm
  reached := by
    show ahead.isEmpty = true ↔ _
    rw [between_reached h, List.isEmpty_iff]
  peek := rfl
  peekNext := rfl
  advance := by cases ahead <;> rfl
  cut := by rw [between_offset, h, dropBytes_byteLength]

/-- A cut from an earlier point of a cursor gives what it has read since. -/
theorem sliceFrom_between (read since ahead : List Char) :
    (between (read ++ since) ahead).sliceFrom (Position.byteLength read) =
      some (String.ofList since) := by
  unfold sliceFrom between
  dsimp only
  rw [List.reverse_reverse, dropBytes_byteLength]
  rfl

/-- **CURSOR POSITIONS ARE EXACT**: after any moves a cursor has read what the moves pass and shows
    exactly where it stands, and so it does after any moves more.  Cut from the earlier of the two
    points, by the cursor or out of the source, the text is what the later moves pass. -/
theorem run_exact (source : String) (earlier later : List Move) :
    let mark := (ofString source).run earlier
    let c := (ofString source).run (earlier ++ later)
    ∃ read since ahead : List Char,
      passes earlier source.toList = read ∧ passes later (since ++ ahead) = since ∧
      mark.Exact source read (since ++ ahead) ∧ c.Exact source (read ++ since) ahead ∧
      c.sliceFrom mark.position.offset = some (String.ofList since) ∧
      Location.slice? ⟨mark.position, c.position⟩ source = some (String.ofList since) := by
  intro mark c
  -- the source in three parts: what is read up to the mark, what is read since, what is ahead
  let read := passes earlier source.toList
  let behind := source.toList.drop read.length
  let since := passes later behind
  let ahead := behind.drop since.length
  have hbehind : since ++ ahead = behind := passes_append_drop later behind
  have hsource : source.toList = read ++ (since ++ ahead) := by
    rw [hbehind]
    exact (passes_append_drop earlier source.toList).symm
  have hmark : mark = between read behind := run_between earlier [] source.toList
  have hc : c = between (read ++ since) ahead := by
    -- the later moves start from the mark
    have hrun : c = mark.run later := List.foldl_append
    rw [hrun, hmark]
    exact run_between later read behind
  refine ⟨read, since, ahead, rfl, ?_, ?_, ?_, ?_, ?_⟩
  · rw [hbehind]
  · rw [hmark, ← hbehind]
    exact between_exact hsource
  · rw [hc]
    exact between_exact (by rw [hsource, List.append_assoc])
  · rw [hmark, hc, between_offset]
    exact sliceFrom_between read since ahead
  · rw [hmark, hc]
    exact slice?_eq read since ahead hsource

end Cursor

/-! ## §5. Tokens along a cursor -/

/-- The moves with which a cursor passes over a piece: a run of blanks or the rest of a line at
    once, a number or a word from behind its first character, and all else step by step. -/
def Piece.moves (piece : Piece) : List Cursor.Move :=
  match piece.kind with
  | some .number => [.advance, .advanceWhile Char.isDigit]
  | some .identifier | some (.keyword _) => [.advance, .advanceWhile Lexer.isWordChar]
  | some _ => piece.text.map fun _ => .advance
  | none =>
    if piece.text.head?.any Text.isBlank then [.advanceWhile Text.isBlank]
    else if ['/', '/'].isPrefixOf piece.text then [.advanceWhile Lexer.isLineChar]
    else piece.text.map fun _ => .advance

namespace Lexer

theorem passes_steps (text rest : List Char) :
    Cursor.passes (text.map fun _ => .advance) (text ++ rest) = text := by
  induction text with
  | nil => rfl
  | cons c text ih =>
      show [c] ++ Cursor.passes (text.map fun _ => .advance) (text ++ rest) = c :: text
      rw [ih]
      rfl

/-- A run passes a text that ends with it. -/
theorem passes_run {goesOn : Char → Bool} {text rest : List Char} (ht : text.all goesOn = true)
    (hr : Ends goesOn rest) : Cursor.passes [.advanceWhile goesOn] (text ++ rest) = text := by
  show (text ++ rest).takeWhile goesOn ++ [] = text
  rw [(Script.takeWhile_append_of_stop ht hr).1, List.append_nil]

theorem passes_first_run {goesOn : Char → Bool} {text rest : List Char} (c : Char)
    (ht : text.all goesOn = true) (hr : Ends goesOn rest) :
    Cursor.passes [.advance, .advanceWhile goesOn] (c :: text ++ rest) = c :: text := by
  show [c] ++ Cursor.passes [.advanceWhile goesOn] (text ++ rest) = c :: text
  rw [passes_run ht hr]
  rfl

/-- The moves of a piece pass over that piece, and stop where the lexer cuts it off. -/
theorem Cut.passes_moves {piece : Piece} {rest : List Char} (h : Cut piece rest) :
    Cursor.passes piece.moves (piece.text ++ rest) = piece.text := by
  have hslash : Text.isBlank '/' = false := by decide
  cases h with
  | @blanks c text rest hc ht hr =>
      have hmoves : Piece.moves ⟨none, c :: text⟩ = [.advanceWhile Text.isBlank] := if_pos hc
      rw [hmoves]
      exact passes_run (by rw [List.all_cons, hc, ht]; rfl) hr
  | number _ ht hr => exact passes_first_run _ ht hr
  -- keyword or name, the same moves pass it
  | @word c text rest _ ht hr =>
      have hmoves : Piece.moves ⟨some (wordKind (c :: text)), c :: text⟩ =
          [.advance, .advanceWhile isWordChar] := by
        unfold wordKind
        split <;> rfl
      rw [hmoves]
      exact passes_first_run c ht hr
  | @line text rest ht hr =>
      have hmoves : Piece.moves ⟨none, '/' :: '/' :: text⟩ = [.advanceWhile isLineChar] := by
        simp [Piece.moves, hslash]
      rw [hmoves]
      exact passes_run (by rw [List.all_cons, List.all_cons, ht]; rfl) hr
  | @comment text rest ht =>
      have hmoves : Piece.moves ⟨none, '/' :: '*' :: text⟩ =
          ('/' :: '*' :: text).map fun _ => .advance := by
        simp [Piece.moves, hslash]
      rw [hmoves]
      exact passes_steps _ rest
  -- where the text of a piece is not told by its first character, it is passed step by step
  | openComment _ => exact passes_steps _ []
  | pair _ => exact passes_steps _ _
  | @single c rest _ _ =>
      have hmoves : Piece.moves ⟨some (symbolPiece.single c), [c]⟩ = [c].map fun _ => .advance := by
        unfold symbolPiece.single
        split <;> rfl
      rw [hmoves]
      exact passes_steps [c] rest

/-- The cursor behind a piece. -/
theorem Cut.run_moves {piece : Piece} {rest : List Char} (h : Cut piece rest)
    (read : List Char) :
    (Cursor.between read (piece.text ++ rest)).run piece.moves =
      Cursor.between (read ++ piece.text) rest := by
  rw [Cursor.run_between, h.passes_moves, List.drop_left]

/-- The tokens that a cursor finds along some pieces: each with the point where the cursor stands in
    front of it, the point where it stands behind it, and what it cuts out between the two. -/
def along (c : Cursor) : List Piece → List Token
  | [] => [Token.endAt c.position]
  | piece :: pieces =>
    let behind := c.run piece.moves
    match piece.kind with
    | none => along behind pieces
    | some kind =>
      let text := if kind = .openComment then "/*" else (behind.sliceFrom c.position.offset).getD ""
      ⟨kind, text, ⟨c.position, behind.position⟩⟩ :: along behind pieces

/-- A piece that is no token is passed, and nothing is found. -/
theorem along_layout (c : Cursor) {piece : Piece} (h : piece.kind = none) (pieces : List Piece) :
    along c (piece :: pieces) = along (c.run piece.moves) pieces := by
  rw [along]
  dsimp only
  rw [h]

/-- The token of a piece, with the points in front of it and behind it and what stands there. -/
theorem along_token (read rest : List Char) {piece : Piece} {kind : Token.Kind}
    (h : piece.kind = some kind) (hcut : Cut piece rest) (pieces : List Piece) :
    along (Cursor.between read (piece.text ++ rest)) (piece :: pieces) =
      ⟨kind, lexeme kind piece.text,
        ⟨Position.start.after read, (Position.start.after read).after piece.text⟩⟩ ::
      along (Cursor.between (read ++ piece.text) rest) pieces := by
  rw [along]
  dsimp only
  rw [h, hcut.run_moves, lexeme_eq_ite, Cursor.between_offset, Cursor.sliceFrom_between,
    ← Position.after_append]
  rfl

/-- From any point of a text on, the tokens are those that a cursor finds along the pieces. -/
theorem along_between (bound : Nat) : ∀ read text : List Char, text.length ≤ bound →
    along (Cursor.between read text) (pieces text) =
      place (Position.start.after read) (pieces text) ++
        [Token.endAt (Position.start.after (read ++ text))] := by
  -- each piece holds one character at least
  induction bound with
  | zero =>
      intro read text h
      rw [List.length_eq_zero_iff.1 (Nat.le_zero.1 h), List.append_nil]
      rfl
  | succ bound ih =>
      intro read text h
      cases text with
      | nil =>
          rw [List.append_nil]
          rfl
      | cons c more =>
          have hcut := cut_next c more
          have happend := next_append c more
          have hlength := next_rest_length c more
          generalize (next c more).2 = rest at hcut happend hlength
          generalize (next c more).1 = piece at hcut happend
          rw [← happend, hcut.pieces]
          have hrest : rest.length ≤ bound := by
            rw [List.length_cons] at h
            omega
          have hbehind := ih (read ++ piece.text) rest hrest
          rw [Position.after_append, List.append_assoc] at hbehind
          cases hkind : piece.kind with
          | none => rw [along_layout _ hkind, hcut.run_moves, hbehind, place_layout hkind]
          | some kind =>
              rw [along_token read rest hkind hcut, hbehind, place_token hkind]
              rfl

end Lexer

/-- **TOKENS STAND WHERE A CURSOR STANDS.**  The tokens of a source text are those that a cursor
    finds which passes over the pieces of the text with the moves for each. -/
theorem Lexed.all_eq_along (source : String) :
    (Lexed.ofSource source).all =
      Lexer.along (Cursor.ofString source) (Lexer.pieces source.toList) :=
  (Lexer.along_between _ [] source.toList (Nat.le_refl _)).symm

end TinyLang
