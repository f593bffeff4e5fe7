/-
  TinyLang.Token.Basic — the tokens of the language.

  A token is a number, an identifier, a keyword or a symbol.  A character with which no
  token starts and a comment without an end are tokens of their own, so that the parser
  can report them where it meets them.
-/

import TinyLang.Text.Position

namespace TinyLang

/-! ## §1. Keywords -/

/-- The reserved words. -/
inductive Keyword where
  | integerKw
  | booleanKw
  | readKw
  | outputKw
  | whileKw
  | ifKw
  | elseKw
  | trueKw
  | falseKw
deriving DecidableEq, Repr

namespace Keyword

/-- The spelling of a keyword. -/
def spelling : Keyword → String
  | integerKw => "integer"
  | booleanKw => "boolean"
  | readKw => "read"
  | outputKw => "output"
  | whileKw => "while"
  | ifKw => "if"
  | elseKw => "else"
  | trueKw => "true"
  | falseKw => "false"

/-- All keywords. -/
def all : List Keyword :=
  [integerKw, booleanKw, readKw, outputKw, whileKw, ifKw, elseKw, trueKw, falseKw]

/-- The keyword with a spelling. -/
def ofSpelling? (word : String) : Option Keyword := all.find? fun k => k.spelling == word

end Keyword

/-! ## §2. Symbols -/

/-- The operators and marks of punctuation. -/
inductive Symbol where
  | plus
  | minus
  | star
  | slash
  | percent
  | bang
  | assign
  | equal
  | notEqual
  | less
  | lessEqual
  | greater
  | greaterEqual
  | andAnd
  | orOr
  | leftParen
  | rightParen
  | leftBrace
  | rightBrace
  | semicolon
  | comma
deriving DecidableEq, Repr

namespace Symbol

/-- The spelling of a symbol. -/
def spelling : Symbol → String
  | plus => "+"
  | minus => "-"
  | star => "*"
  | slash => "/"
  | percent => "%"
  | bang => "!"
  | assign => "="
  | equal => "=="
  | notEqual => "!="
  | less => "<"
  | lessEqual => "<="
  | greater => ">"
  | greaterEqual => ">="
  | andAnd => "&&"
  | orOr => "||"
  | leftParen => "("
  | rightParen => ")"
  | leftBrace => "\x7b"
  | rightBrace => "\x7d"
  | semicolon => ";"
  | comma => ","

/-- The symbol of one character. -/
def ofChar? (c : Char) : Option Symbol :=
  match c with
  | '+' => some plus
  | '-' => some minus
  | '*' => some star
  | '/' => some slash
  | '%' => some percent
  | '!' => some bang
  | '=' => some assign
  | '<' => some less
  | '>' => some greater
  | '(' => some leftParen
  | ')' => some rightParen
  | '{' => some leftBrace
  | '}' => some rightBrace
  | ';' => some semicolon
  | ',' => some comma
  | _ => none

/-- The symbol of two characters. -/
def ofPair? (c d : Char) : Option Symbol :=
  match c, d with
  | '=', '=' => some equal
  | '!', '=' => some notEqual
  | '<', '=' => some lessEqual
  | '>', '=' => some greaterEqual
  | '&', '&' => some andAnd
  | '|', '|' => some orOr
  | _, _ => none

end Symbol

/-! ## §3. Tokens -/

/-- The kinds of tokens. -/
inductive Token.Kind where
  | number
  | identifier
  | keyword (k : Keyword)
  | symbol (s : Symbol)
  | invalid
  | openComment
  | endOfInput
deriving DecidableEq, Repr

/-- How a kind is called in a message. -/
def Token.Kind.describe : Token.Kind → String
  | number => "integer"
  | identifier => "identifier"
  | keyword k => "'" ++ k.spelling ++ "'"
  | symbol s => "'" ++ s.spelling ++ "'"
  | invalid => "invalid character"
  | openComment => "unterminated comment"
  | endOfInput => "end of input"

/-- A token: its kind, its text and its place. -/
structure Token where
  kind : Token.Kind
  text : String
  place : Location
deriving DecidableEq, Repr

/-- The tokens of a source text and the point behind its last character. -/
structure Lexed where
  tokens : List Token
  stop : Position
deriving DecidableEq, Repr

/-- The token that stands for the end of a source text. -/
def Token.endAt (stop : Position) : Token := ⟨.endOfInput, "", ⟨stop, stop⟩⟩

/-- All tokens, the one for the end included. -/
def Lexed.all (l : Lexed) : List Token := l.tokens ++ [Token.endAt l.stop]

end TinyLang
