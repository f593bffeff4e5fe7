/-
  TinyLang.Script.Printer — the text of a script.

  Every expression has a strength with which it holds its parts together, and every place
  for an expression asks for a least strength; parentheses stand exactly where an
  expression is too weak for its place, and where two texts would run into one token.
  A statement stands on lines of its own, indented by its depth, and a clause that is no
  block and not empty goes one line further and one level deeper.
-/

import TinyLang.Script.Literal
import TinyLang.Text.Character

namespace TinyLang.Script

/-! ## §1. Strengths -/

/-- The strength of an assignment, which is that of an argument and of an initialiser. -/
def assignStrength : Nat := 3

/-- The strength of an operator in front of its operand. -/
def beforeStrength : Nat := 15

/-- The strength of an operator behind its operand. -/
def behindStrength : Nat := 16

/-- The strength of calls and members. -/
def callStrength : Nat := 18

/-- The strength of what needs no parentheses anywhere. -/
def primaryStrength : Nat := 20

/-- The strength of the binary operators that are known. -/
def binaryStrength? (operator : String) : Option Nat :=
  match operator with
  | "||" | "??" => some 4
  | "&&" => some 5
  | "|" => some 6
  | "^" => some 7
  | "&" => some 8
  | "==" | "!=" | "===" | "!==" => some 9
  | "<" | ">" | "<=" | ">=" | "in" | "instanceof" => some 10
  | "<<" | ">>" | ">>>" => some 11
  | "+" | "-" => some 12
  | "*" | "/" | "%" => some 13
  | "**" => some 14
  | _ => none

/-- The strength of an expression. An operator that is not known holds as little as an
    assignment. -/
def Expr.strength : Expr → Nat
  | .identifier _ | .literal _ | .function _ _ => primaryStrength
  | .call _ _ | .member _ _ => callStrength
  | .unary .before _ _ => beforeStrength
  | .unary .behind _ _ => behindStrength
  | .binary operator _ _ => (binaryStrength? operator).getD assignStrength
  | .assign _ _ _ => assignStrength

/-- The least strengths of the operands of a binary operator. The operators group to the left, the
    power to the right, and the operands of an operator that is not known stand alone. -/
def operandStrengths (operator : String) : Nat × Nat :=
  match binaryStrength? operator with
  | some strength =>
    if operator = "**" then (behindStrength, strength) else (strength, strength + 1)
  | none => (primaryStrength, primaryStrength)

/-! ## §2. Texts of parts -/

/-- Parentheses around a text. -/
def parens (text : String) : String := "(" ++ text ++ ")"

/-- The text of an expression at a place that asks for a least strength. -/
def guarded (least : Nat) (e : Expr) (text : String) : String :=
  if e.strength < least then parens text else text

/-- Texts with commas between them. -/
def commas : List String → String
  | [] => ""
  | [text] => text
  | text :: next :: more => text ++ ", " ++ commas (next :: more)

/-- The spaces in front of a line at a level. -/
def indent (width level : Nat) : String := String.ofList (List.replicate (level * width) ' ')

/-- Whether a text starts with another one. -/
def startsWith (start text : String) : Bool := start.toList.isPrefixOf text.toList

/-- The text of a unary operator in front of the text of its operand. Two signs are kept apart by
    parentheses, and an operator that ends in a letter by a space. -/
def unaryText (operator text : String) : String :=
  let isSign (s : String) : Bool := s == "-" || s == "+"
  if isSign operator && (startsWith "-" text || startsWith "+" text) then
    operator ++ parens text
  else if operator.toList.getLast?.any Text.isLetter then operator ++ " " ++ text
  else operator ++ text

/-- The text of an expression as a statement. What would be read as a function or a block gets
    parentheses. -/
def statementText (text : String) : String :=
  if startsWith "function" text || startsWith "\x7b" text then parens text else text

/-- Whether the object of a member is a number, to which the point would stick. -/
def Expr.isNumeric : Expr → Bool
  | .literal value => value.isNumeric
  | _ => false

/-- Whether a clause stands on the line of its head. -/
def Stmt.isInline : Stmt → Bool
  | .block _ | .empty => true
  | _ => false

/-- The text of a clause behind its head, given its text as a statement by level. -/
def clause (width level : Nat) (s : Stmt) (text : Nat → String) : String :=
  match s with
  | .block _ => " " ++ text level
  | .empty => ";"
  | _ => "\n" ++ indent width (level + 1) ++ text (level + 1)

/-- What stands between the two clauses of a choice. -/
def elseText (width level : Nat) (consequent : Stmt) : String :=
  if consequent.isInline then " else" else "\n" ++ indent width level ++ "else"

/-! ## §3. Expressions and statements -/

mutual

/-- The text of an expression on a line of a level. -/
def Expr.text (width : Nat) : Expr → Nat → String
  | .identifier name, _ => name
  | .literal value, _ => value.text
  | .call callee arguments, level =>
    guarded callStrength callee (callee.text width level) ++
      parens (commas (Expr.texts width arguments level))
  | .member object property, level =>
    (if object.isNumeric then parens (object.text width level)
      else guarded callStrength object (object.text width level)) ++ "." ++ property
  | .assign operator left right, level =>
    guarded callStrength left (left.text width level) ++ " " ++ operator ++ " " ++
      guarded assignStrength right (right.text width level)
  | .unary .before operator argument, level =>
    unaryText operator (guarded beforeStrength argument (argument.text width level))
  | .unary .behind operator argument, level =>
    guarded behindStrength argument (argument.text width level) ++ operator
  | .binary operator left right, level =>
    guarded (operandStrengths operator).1 left (left.text width level) ++
      " " ++ operator ++ " " ++
      guarded (operandStrengths operator).2 right (right.text width level)
  | .function parameters body, level =>
    "function " ++ parens (commas parameters) ++ " \x7b\n" ++
      Stmt.lines width body (level + 1) ++ indent width level ++ "\x7d"

/-- The texts of arguments. -/
def Expr.texts (width : Nat) : List Expr → Nat → List String
  | [], _ => []
  | e :: arguments, level =>
    guarded assignStrength e (e.text width level) :: Expr.texts width arguments level

/-- The texts of declarators. -/
def Expr.declarators (width : Nat) : List (String × Option Expr) → Nat → List String
  | [], _ => []
  | (name, none) :: more, level => name :: Expr.declarators width more level
  | (name, some e) :: more, level =>
    (name ++ " = " ++ guarded assignStrength e (e.text width level)) ::
      Expr.declarators width more level

/-- The text of a statement at a level, without the indentation of its first line and without the
    line feed behind its last. -/
def Stmt.text (width : Nat) : Stmt → Nat → String
  | .declare word declarators, level =>
    word.spelling ++ " " ++ commas (Expr.declarators width declarators level) ++ ";"
  | .expression e, level => statementText (e.text width level) ++ ";"
  | .block body, level =>
    "\x7b\n" ++ Stmt.lines width body (level + 1) ++ indent width level ++ "\x7d"
  | .loop test body, level =>
    "while " ++ parens (test.text width level) ++ clause width level body (body.text width)
  | .choice test consequent none, level =>
    "if " ++ parens (test.text width level) ++
      clause width level consequent (consequent.text width)
  | .choice test consequent (some alternate), level =>
    "if " ++ parens (test.text width level) ++
      clause width level consequent (consequent.text width) ++
      elseText width level consequent ++
      clause width level alternate (alternate.text width)
  | .empty, _ => ";"

/-- The lines of a list of statements at a level. -/
def Stmt.lines (width : Nat) : List Stmt → Nat → String
  | [], _ => ""
  | s :: body, level =>
    indent width level ++ s.text width level ++ "\n" ++ Stmt.lines width body level

end

/-- The width of a level of indentation, unless another one is asked for. -/
def defaultWidth : Nat := 2

/-- The text of a script. -/
def print (width : Nat) (script : List Stmt) : String := Stmt.lines width script 0

end TinyLang.Script
