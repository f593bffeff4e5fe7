/-
  TinyLang.Program.Error — why a source text is no program.

  A syntax error has a place, where the first token that does not fit starts, and a cause.
-/

import TinyLang.Token.Basic

namespace TinyLang

/-- What would have fitted at a place: a certain token, or the start of a form. -/
inductive Expected where
  | token (kind : Token.Kind)
  | statement
  | expression
deriving DecidableEq, Repr

/-- How an expected thing is called in a message. -/
def Expected.describe : Expected → String
  | token kind => kind.describe
  | statement => "statement"
  | expression => "expression"

/-- The cause of a syntax error. -/
inductive SyntaxError.Cause where
  | unexpectedToken (found : String) (expected : Expected)
  | unexpectedEnd (expected : Expected)
  | invalidNumber (text : String)
  | invalidCharacter (text : String)
  | openComment
deriving DecidableEq, Repr

/-- The wording of a cause. -/
def SyntaxError.Cause.message : SyntaxError.Cause → String
  | unexpectedToken found expected =>
    "unexpected token '" ++ found ++ "', expected " ++ expected.describe
  | unexpectedEnd expected => "unexpected end of input, expected " ++ expected.describe
  | invalidNumber text => "invalid integer literal '" ++ text ++ "'"
  | invalidCharacter text => "unexpected character '" ++ text ++ "'"
  | openComment => "unterminated block comment"

/-- A syntax error. -/
structure SyntaxError where
  cause : SyntaxError.Cause
  position : Position
deriving DecidableEq, Repr

/-- The wording of a syntax error. -/
def SyntaxError.message (e : SyntaxError) : String :=
  "Syntax error on line " ++ e.position.line.repr ++ ", column " ++ e.position.column.repr ++
    ": " ++ e.cause.message

end TinyLang
