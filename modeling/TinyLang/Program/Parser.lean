/-
  TinyLang.Program.Parser — from tokens to a program.

  The grammar, with the six levels of binary operators from the loosest to the tightest:

      program      = declaration* block
      declaration  = ("integer" | "boolean") name ("," name)* ";"
      block        = "{" statement* "}"
      statement    = block | name "=" expression ";" | "output" expression ";"
                   | "while" "(" expression ")" statement
                   | "if" "(" expression ")" branch ("else" branch)?
      branch       = ";" | statement
      expression   = level 1
      level n      = level (n+1) | level n operator(n) level (n+1)        (n from 1 to 6)
      level 7      = ("!" | "-") level 7 | number | "true" | "false" | "read" | name
                   | "(" expression ")"

  The levels are read by one loop that takes operators as long as they are tight enough, and
  the right part of each by the same loop, one level tighter.

  A parser takes the tokens ahead and gives what it read with the tokens behind it, or the
  error at the first token that does not fit.  Its recursion runs on a bound on the tokens
  ahead, which goes down with each token taken; where the bound is used up no token is
  ahead, and the answer is the one for the end of the text.
-/

import TinyLang.Program.Error
import TinyLang.Program.Tree
import TinyLang.Token.Lexer

namespace TinyLang

/-! ## §1. The tokens ahead -/

/-- The tokens ahead, the point behind the last token taken, and the end of the text. -/
structure Ahead where
  last : Position
  tokens : List Token
  stop : Position
deriving DecidableEq, Repr

namespace Ahead

/-- All tokens of a text. -/
def ofLexed (l : Lexed) : Ahead := ⟨Position.start, l.tokens, l.stop⟩

/-- The next token; at the end it is the token for the end. -/
def next (a : Ahead) : Token := a.tokens.headD (Token.endAt a.stop)

/-- The point where the next token starts. -/
def here (a : Ahead) : Position := a.next.place.start

/-- Takes the next token. -/
def advance (a : Ahead) : Ahead :=
  match a.tokens with
  | [] => a
  | t :: tokens => ⟨t.place.stop, tokens, a.stop⟩

/-- The error of a next token that does not fit. -/
def unexpected (a : Ahead) (expected : Expected) : SyntaxError where
  cause := match a.next.kind with
    | .endOfInput => .unexpectedEnd expected
    | .invalid => .invalidCharacter a.next.text
    | .openComment => .openComment
    | _ => .unexpectedToken a.next.text expected
  position := a.here

end Ahead

/-- A parser of things of a type. -/
def Parse (β : Type) : Type := Ahead → Except SyntaxError (β × Ahead)

namespace Parse

/-- Takes the next token, which must be of a kind. -/
def expect (kind : Token.Kind) : Parse Token := fun a =>
  if a.next.kind = kind then .ok (a.next, a.advance) else .error (a.unexpected (.token kind))

/-- A name. -/
def identifier : Parse (Identifier Location) := fun a => do
  let (t, b) ← expect .identifier a
  .ok (⟨⟨a.here, b.last⟩, t.text⟩, b)

/-! ## §2. Expressions -/

/-- How tight a binary operator holds its operands; the greater number is the tighter. -/
def precedence? : Token.Kind → Option Nat
  | .symbol .orOr => some 1
  | .symbol .andAnd => some 2
  | .symbol .equal | .symbol .notEqual => some 3
  | .symbol .less | .symbol .lessEqual | .symbol .greater | .symbol .greaterEqual => some 4
  | .symbol .plus | .symbol .minus => some 5
  | .symbol .star | .symbol .slash | .symbol .percent => some 6
  | _ => none

/-- What follows a first operand: the operators that are at least as tight as `least`, each with a
    right part of tighter operators only, so that they group to the left. What has been read up to
    here started at `start` and makes up `left`. -/
def operators (operand : Parse (Expr Location)) :
    Nat → Nat → Position → Expr Location → Parse (Expr Location)
  | 0, _, _, left, a => .ok (left, a)
  | bound + 1, least, start, left, a =>
    match precedence? a.next.kind with
    | some p =>
      if p < least then .ok (left, a)
      else do
        let (first, b) ← operand a.advance
        let (right, c) ← operators operand bound (p + 1) a.advance.here first b
        operators operand bound least start (.binary ⟨start, c.last⟩ a.next.text left right) c
    | none => .ok (left, a)

/-- An expression whose operators outside of parentheses are at least as tight as `least`. -/
def climb (operand : Parse (Expr Location)) (least : Nat) : Parse (Expr Location) := fun a => do
  let (left, b) ← operand a
  operators operand b.tokens.length least a.here left b

/-- The greatest literal. -/
def maxInteger : Nat := 0x7fffffffffffffff

/-- The literal of a number token. -/
def number (t : Token) : Except SyntaxError (Expr Location) :=
  let n := Nat.ofDigitChars 10 t.text.toList 0
  if n ≤ maxInteger then .ok (.literal t.place (.integer (.ofNat n)))
  else .error ⟨.invalidNumber t.text, t.place.start⟩

/-- An operand: a prefix operator with its operand, a literal, an input, a variable, or an
    expression in parentheses, which leave no node. -/
def operand : Nat → Parse (Expr Location)
  | 0, a => .error (a.unexpected .expression)
  | bound + 1, a =>
    let t := a.next
    match t.kind with
    | .symbol .bang | .symbol .minus => do
      let (e, b) ← operand bound a.advance
      .ok (.unary ⟨a.here, b.last⟩ t.text e, b)
    | .number => do
      let e ← number t
      .ok (e, a.advance)
    | .keyword .trueKw => .ok (.literal t.place (.bool true), a.advance)
    | .keyword .falseKw => .ok (.literal t.place (.bool false), a.advance)
    | .keyword .readKw => .ok (.read t.place, a.advance)
    | .identifier => .ok (.name ⟨t.place, t.text⟩, a.advance)
    | .symbol .leftParen => do
      let (e, b) ← climb (operand bound) 1 a.advance
      let (_, c) ← expect (.symbol .rightParen) b
      .ok (e, c)
    | _ => .error (a.unexpected .expression)

/-- An expression. -/
def expression : Parse (Expr Location) := fun a => climb (operand a.tokens.length) 1 a

/-! ## §3. Statements -/

/-- An expression in the parentheses that a test needs. -/
def test : Parse (Expr Location) := fun a => do
  let (_, a) ← expect (.symbol .leftParen) a
  let (e, a) ← expression a
  let (_, a) ← expect (.symbol .rightParen) a
  .ok (e, a)

/-- The statements of a block up to its closing brace. -/
def statements (statement : Parse (Stmt Location)) : Nat → Parse (List (Stmt Location))
  | 0, a => .error (a.unexpected (.token (.symbol .rightBrace)))
  | bound + 1, a =>
    match a.next.kind with
    | .symbol .rightBrace => .ok ([], a.advance)
    | .endOfInput => .error (a.unexpected (.token (.symbol .rightBrace)))
    | _ => do
      let (s, b) ← statement a
      let (body, c) ← statements statement bound b
      .ok (s :: body, c)

/-- A block, over the given statements. -/
def block (statement : Parse (Stmt Location)) : Parse (Stmt Location) := fun a => do
  let (_, b) ← expect (.symbol .leftBrace) a
  let (body, c) ← statements statement b.tokens.length b
  .ok (.block ⟨a.here, c.last⟩ body, c)

/-- A branch of a choice, which is absent if it is a semicolon. -/
def branch (statement : Parse (Stmt Location)) : Parse (Option (Stmt Location)) := fun a =>
  if a.next.kind = .symbol .semicolon then .ok (none, a.advance)
  else do
    let (s, b) ← statement a
    .ok (some s, b)

/-- The branch behind `else`, which is absent if there is no `else`. -/
def alternate (statement : Parse (Stmt Location)) : Parse (Option (Stmt Location)) := fun a =>
  if a.next.kind = .keyword .elseKw then branch statement a.advance else .ok (none, a)

/-- A statement. -/
def statement : Nat → Parse (Stmt Location)
  | 0, a => .error (a.unexpected .statement)
  | bound + 1, a =>
    match a.next.kind with
    | .symbol .leftBrace => block (statement bound) a
    | .identifier => do
      let (x, b) ← identifier a
      let (_, b) ← expect (.symbol .assign) b
      let (e, b) ← expression b
      let (_, b) ← expect (.symbol .semicolon) b
      .ok (.assign ⟨a.here, b.last⟩ x e, b)
    | .keyword .outputKw => do
      let (e, b) ← expression a.advance
      let (_, b) ← expect (.symbol .semicolon) b
      .ok (.output ⟨a.here, b.last⟩ e, b)
    | .keyword .whileKw => do
      let (e, b) ← test a.advance
      let (s, b) ← statement bound b
      .ok (.loop ⟨a.here, b.last⟩ e s, b)
    | .keyword .ifKw => do
      let (e, b) ← test a.advance
      let (s, b) ← branch (statement bound) b
      let (t, b) ← alternate (statement bound) b
      .ok (.choice ⟨a.here, b.last⟩ e s t, b)
    | _ => .error (a.unexpected .statement)

/-! ## §4. Programs -/

/-- The type that a keyword declares. -/
def type? : Token.Kind → Option ValueType
  | .keyword .integerKw => some .integer
  | .keyword .booleanKw => some .boolean
  | _ => none

/-- Further names of a declaration, each behind a comma. -/
def moreNames : Nat → Parse (List (Identifier Location))
  | 0, a => .ok ([], a)
  | bound + 1, a =>
    if a.next.kind = .symbol .comma then do
      let (x, b) ← identifier a.advance
      let (names, c) ← moreNames bound b
      .ok (x :: names, c)
    else .ok ([], a)

/-- What follows the type of a declaration. -/
def declaration (type : ValueType) : Parse (Declaration Location) := fun a => do
  let (first, b) ← identifier a.advance
  let (others, b) ← moreNames b.tokens.length b
  let (_, b) ← expect (.symbol .semicolon) b
  .ok (⟨⟨a.here, b.last⟩, type, first, others⟩, b)

/-- The declarations of a program. -/
def declarations : Nat → Parse (List (Declaration Location))
  | 0, a => .ok ([], a)
  | bound + 1, a =>
    match type? a.next.kind with
    | some type => do
      let (d, b) ← declaration type a
      let (ds, c) ← declarations bound b
      .ok (d :: ds, c)
    | none => .ok ([], a)

/-- A program and nothing behind it. -/
def program (a : Ahead) : Except SyntaxError (Program Location) := do
  let (ds, b) ← declarations a.tokens.length a
  let (s, c) ← block (statement b.tokens.length) b
  let (_, d) ← expect .endOfInput c
  .ok ⟨⟨a.here, d.last⟩, ds, s⟩

end Parse

/-- The program that a source text holds, with the place of each node. -/
def Program.parse (source : String) : Except SyntaxError (Program Location) :=
  Parse.program (Ahead.ofLexed (Lexed.ofSource source))

/-- The syntax tree of a source text, with or without places. -/
def Tree.parse (source : String) (places : Bool) : Except SyntaxError Tree :=
  (Program.parse source).map
    (Program.toTree fun l => if places then some l.toJson else none)

/-- The tree of a source text is the tree of its program. -/
theorem Tree.parse_eq_ok {source : String} {places : Bool} {t : Tree}
    (h : Tree.parse source places = .ok t) :
    ∃ p, Program.parse source = .ok p ∧
      p.toTree (fun l => if places then some l.toJson else none) = t := by
  unfold Tree.parse at h
  cases hp : Program.parse source with
  | error e =>
      rw [hp] at h
      exact absurd h (by simp [Except.map])
  | ok p =>
      rw [hp] at h
      injection h with h
      exact ⟨p, rfl, h⟩

end TinyLang
