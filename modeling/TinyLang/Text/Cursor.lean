/-
  TinyLang.Text.Cursor — a reading head on a source text.

  A cursor stands between two characters of a text.  It knows what it has passed,
  what is left, and its `Position`; it only ever moves forward, one character at a
  time, so the text between an earlier position and the cursor can be cut out of
  what it has passed (`Cursor.sliceFrom`).
-/

import TinyLang.Text.Position

namespace TinyLang

/-- A reading head: the characters passed, latest first, those left, and where it stands. -/
structure Cursor where
  passed : List Char
  rest : List Char
  position : Position
deriving DecidableEq, Repr

namespace Cursor

/-- A cursor before the first character of a text. -/
def ofString (text : String) : Cursor := ⟨[], text.toList, Position.start⟩

/-! ## §1. Looking ahead -/

/-- Whether nothing is left. -/
def atEnd (c : Cursor) : Bool := c.rest.isEmpty

/-- The next character. -/
def peek (c : Cursor) : Option Char := c.rest[0]?

/-- The character behind the next one. -/
def peekNext (c : Cursor) : Option Char := c.rest[1]?

/-! ## §2. Moving -/

/-- The next character, and the cursor behind it. At the end nothing moves. -/
def advance (c : Cursor) : Option Char × Cursor :=
  match c.rest with
  | [] => (none, c)
  | x :: rest => (some x, ⟨x :: c.passed, rest, c.position.next x⟩)

/-- Passes the longest run of characters that satisfy `p`. -/
def advanceWhile (p : Char → Bool) (c : Cursor) : Cursor :=
  go c.passed c.position c.rest
where
  go (passed : List Char) (position : Position) : List Char → Cursor
    | [] => ⟨passed, [], position⟩
    | x :: rest =>
      if p x then go (x :: passed) (position.next x) rest
      else ⟨passed, x :: rest, position⟩

/-! ## §3. Cutting -/

/-- What is left of a text behind its first `n` bytes; `none` if they end inside a character
    or behind the text. -/
def dropBytes : Nat → List Char → Option (List Char)
  | 0, text => some text
  | _ + 1, [] => none
  | n + 1, c :: text =>
    if c.utf8Size ≤ n + 1 then dropBytes (n + 1 - c.utf8Size) text else none

/-- The text passed since the cursor stood at byte `offset`. -/
def sliceFrom (c : Cursor) (offset : Nat) : Option String :=
  (dropBytes offset c.passed.reverse).map String.ofList

end Cursor

end TinyLang
