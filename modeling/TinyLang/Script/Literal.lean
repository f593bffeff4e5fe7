/-
  TinyLang.Script.Literal — how literals are written in a script.

  A string stands in double quotes and holds no raw control character and no raw line or
  paragraph separator.  A number is written with the fewest digits that read back, all of
  them positional, whatever its size.
-/

import TinyLang.Number.Shortest
import TinyLang.Script.Basic
import TinyLang.Text.Character

namespace TinyLang.Script

/-- Whether a character is a control character. -/
def isControl (c : Char) : Bool := c.toNat < 0x20 || 0x7f ≤ c.toNat && c.toNat < 0xa0

/-- Whether a character is the line or the paragraph separator. -/
def isSeparator (c : Char) : Bool := c.toNat == 0x2028 || c.toNat == 0x2029

/-- How a character stands in a string literal. -/
def escapeChar (c : Char) : List Char :=
  match c with
  | '"' => ['\\', '"']
  | '\\' => ['\\', '\\']
  | '\n' => ['\\', 'n']
  | '\r' => ['\\', 'r']
  | '\t' => ['\\', 't']
  | _ =>
    if isControl c || isSeparator c then '\\' :: 'u' :: Text.hex4 c.toNat else [c]

/-- A text as a string literal. -/
def quote (text : String) : String :=
  String.ofList ('"' :: text.toList.flatMap escapeChar ++ ['"'])

/-- A number. The greater of two equally near decimals is taken. -/
def numberText (x : Binary64) : String :=
  if x.isNaN then "NaN"
  else
    let sign := if x.isNegative then "-" else ""
    if x.isFinite then sign ++ (x.shortest .up).positional else sign ++ "Infinity"

/-- The text of a literal. -/
def Literal.text : Literal → String
  | .null => "null"
  | .bool true => "true"
  | .bool false => "false"
  | .integer n => n.repr
  | .number x => numberText x
  | .string s => quote s

/-- Whether a literal is a number, whose text a point could extend. -/
def Literal.isNumeric : Literal → Bool
  | .integer _ => true
  | .number _ => true
  | _ => false

end TinyLang.Script
