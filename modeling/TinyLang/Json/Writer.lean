/-
  TinyLang.Json.Writer — the text of a JSON value.

  A `Json.Style` says what stands between the parts of a container: nothing in the
  compact style, a new line and two spaces a level in the pretty one.  Everything else is
  the same in both: members in their order, the fewest digits that read back, and escapes
  for the quote, the backslash and the control characters below the space.
-/

import TinyLang.Json.Basic
import TinyLang.Number.Shortest
import TinyLang.Text.Character

namespace TinyLang.Json

/-! ## §1. Strings -/

/-- How a character stands in a JSON string. -/
def escapeChar (c : Char) : List Char :=
  match c with
  | '"' => ['\\', '"']
  | '\\' => ['\\', '\\']
  | '\x08' => ['\\', 'b']
  | '\x0c' => ['\\', 'f']
  | '\n' => ['\\', 'n']
  | '\r' => ['\\', 'r']
  | '\t' => ['\\', 't']
  | _ => if c.toNat < 0x20 then '\\' :: 'u' :: Text.hex4 c.toNat else [c]

/-- A text as a JSON string. -/
def quote (text : String) : String :=
  String.ofList ('"' :: text.toList.flatMap escapeChar ++ ['"'])

/-! ## §2. Numbers -/

/-- A finite number: positional with at least one decimal when its magnitude is from
    `10 ^ -5` up to below `10 ^ 16`, scientific otherwise. A half goes to the even digit. -/
def Float.text (x : Float) : String :=
  let d := x.value.shortest .even
  let sign := if x.value.isNegative then "-" else ""
  if -5 ≤ d.magnitude ∧ d.magnitude ≤ 15 then
    sign ++ d.positional ++ (if 0 ≤ d.scale then ".0" else "")
  else sign ++ d.scientific

/-- The text of a number. -/
def Number.text : Number → String
  | .integer n => n.value.repr
  | .float x => x.text

/-! ## §3. Values -/

/-- What stands between the parts of a container: the text in front of a part at a level, and
    the text between a member's name and its value. -/
structure Style where
  gap : Nat → String
  colon : String

/-- Nothing between the parts. -/
def Style.compact : Style where
  gap _ := ""
  colon := ":"

/-- Each part on a line of its own, two spaces further in at each level. -/
def Style.pretty : Style where
  gap level := String.ofList ('\n' :: List.replicate (2 * level) ' ')
  colon := ": "

mutual

/-- The text of a value at a level of nesting. -/
def write (style : Style) (level : Nat) : Json → String
  | .null => "null"
  | .bool true => "true"
  | .bool false => "false"
  | .number n => n.text
  | .string s => quote s
  | .array [] => "[]"
  | .array (item :: items) =>
    "[" ++ style.gap (level + 1) ++ item.write style (level + 1) ++
      writeItems style (level + 1) items ++ style.gap level ++ "]"
  | .object [] => "\x7b\x7d"
  | .object ((name, value) :: members) =>
    "\x7b" ++ style.gap (level + 1) ++ quote name ++ style.colon ++
      value.write style (level + 1) ++
      writeMembers style (level + 1) members ++ style.gap level ++ "\x7d"

/-- The items behind the first one. -/
def writeItems (style : Style) (level : Nat) : List Json → String
  | [] => ""
  | item :: items =>
    "," ++ style.gap level ++ item.write style level ++ writeItems style level items

/-- The members behind the first one. -/
def writeMembers (style : Style) (level : Nat) : List (String × Json) → String
  | [] => ""
  | (name, value) :: members =>
    "," ++ style.gap level ++ quote name ++ style.colon ++ value.write style level ++
      writeMembers style level members

end

/-- The compact text of a value. -/
def compact (v : Json) : String := v.write .compact 0

/-- The pretty text of a value. -/
def pretty (v : Json) : String := v.write .pretty 0

end TinyLang.Json
