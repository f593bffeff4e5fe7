/-
  TinyLang.Text.Position — points and ranges of a source text.

  A point counts bytes of UTF-8 from zero, and lines and characters from one.
  Reading one character moves it by `Position.next`, reading a text by
  `Position.after`:

      p.after (a ++ b) = (p.after a).after b
-/

namespace TinyLang

/-! ## §1. Points -/

/-- A point of a source text: the byte offset from zero, the line and the column from one,
    the column counted in characters. -/
structure Position where
  offset : Nat
  line : Nat
  column : Nat
deriving DecidableEq, Repr

namespace Position

/-- The point before the first character. -/
def start : Position := ⟨0, 1, 1⟩

/-- The point behind the character `c` read at `p`. Only a line feed starts a new line. -/
def next (p : Position) (c : Char) : Position :=
  if c = '\n' then ⟨p.offset + c.utf8Size, p.line + 1, 1⟩
  else ⟨p.offset + c.utf8Size, p.line, p.column + 1⟩

/-- The point behind a text read at `p`. -/
def after (p : Position) (text : List Char) : Position :=
  text.foldl next p

@[simp] theorem after_nil (p : Position) : p.after [] = p := rfl

@[simp] theorem after_cons (p : Position) (c : Char) (text : List Char) :
    p.after (c :: text) = (p.next c).after text := rfl

/-- A position behind two texts is reached one text after the other. -/
theorem after_append (p : Position) (a b : List Char) :
    p.after (a ++ b) = (p.after a).after b := by
  simp [after, List.foldl_append]

@[simp] theorem next_offset (p : Position) (c : Char) :
    (p.next c).offset = p.offset + c.utf8Size := by
  unfold next; split <;> rfl

/-- The length of a text in UTF-8. -/
def byteLength : List Char → Nat
  | [] => 0
  | c :: text => c.utf8Size + byteLength text

/-- The offset grows by the length of the text. -/
theorem after_offset (p : Position) (text : List Char) :
    (p.after text).offset = p.offset + byteLength text := by
  induction text generalizing p with
  | nil => rfl
  | cons c text ih =>
    rw [after_cons, ih, next_offset, byteLength]
    omega

end Position

/-! ## §2. Ranges -/

/-- A range of a source text, from `start` up to but without `stop`. -/
structure Location where
  start : Position
  stop : Position
deriving DecidableEq, Repr

namespace Location

/-- The number of bytes in the range; a range that ends before it starts has none. -/
def size (l : Location) : Nat := l.stop.offset - l.start.offset

/-- Whether the range holds no byte. -/
def isEmpty (l : Location) : Bool := l.size == 0

end Location

end TinyLang
