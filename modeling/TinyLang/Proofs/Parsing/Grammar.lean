/-
  TinyLang.Proofs.Parsing.Grammar — the grammar of programs, as derivations.

  A derivation says which list of tokens stands for which program.  It looks at the kinds
  and texts of the tokens and never at their places, so a program of the grammar carries no
  notes (`Program Unit`), and `bare` takes the notes off a program that has some.

      program      = declaration* block
      declaration  = ("integer" | "boolean") name ("," name)* ";"
      block        = "{" statement* "}"
      statement    = block | name "=" expression ";" | "output" expression ";"
                   | "while" "(" expression ")" statement
                   | "if" "(" expression ")" branch ("else" branch)?
      branch       = ";" | statement
      expression   = level 1
      level n      = level (n+1) | level n operator(n) level (n+1)        (n from 1 to 6)
      level 7      = unary
      unary        = ("!" | "-") unary | primary
      primary      = number | "true" | "false" | "read" | name | "(" expression ")"

  A statement is derived as OPEN when it ends in a choice without `else`, and only a branch
  that is not open may stand in front of an `else`.  So an `else` belongs to the nearest
  choice that can still take one, and every list of tokens has at most one program.
-/

import TinyLang.Program.Parser

namespace TinyLang

/-! ## §1. Programs without notes -/

variable {α : Type}

/-- A name without its note. -/
def Identifier.bare (x : Identifier α) : Identifier Unit := ⟨(), x.name⟩

/-- An expression without its notes. -/
def Expr.bare : Expr α → Expr Unit
  | .name x => .name x.bare
  | .literal _ value => .literal () value
  | .read _ => .read ()
  | .unary _ op e => .unary () op e.bare
  | .binary _ op e f => .binary () op e.bare f.bare

mutual

/-- A statement without its notes. -/
def Stmt.bare : Stmt α → Stmt Unit
  | .block _ body => .block () (Stmt.bares body)
  | .assign _ x e => .assign () x.bare e.bare
  | .output _ e => .output () e.bare
  | .loop _ e s => .loop () e.bare s.bare
  | .choice _ e s t => .choice () e.bare (Stmt.bare? s) (Stmt.bare? t)

/-- Statements without their notes. -/
def Stmt.bares : List (Stmt α) → List (Stmt Unit)
  | [] => []
  | s :: body => s.bare :: Stmt.bares body

/-- A branch without its notes, if it is there. -/
def Stmt.bare? : Option (Stmt α) → Option (Stmt Unit)
  | none => none
  | some s => some s.bare

end

/-- A declaration without its notes. -/
def Declaration.bare (d : Declaration α) : Declaration Unit :=
  ⟨(), d.type, d.first.bare, d.others.map Identifier.bare⟩

/-- A program without its notes. -/
def Program.bare (p : Program α) : Program Unit :=
  ⟨(), p.declarations.map Declaration.bare, p.body.bare⟩

/-! ## §2. Tokens without places -/

/-- What the grammar sees of a token. -/
structure Lexeme where
  kind : Token.Kind
  text : String
deriving DecidableEq, Repr

/-- A token without its place. -/
def Token.lexeme (t : Token) : Lexeme := ⟨t.kind, t.text⟩

/-- The kinds and texts of the tokens of a source text, the end not included. -/
def lexemes (source : String) : List Lexeme := (Lexed.ofSource source).tokens.map Token.lexeme

namespace Grammar

/-! ## §3. Expressions -/

/-- The binary operators of a level, from the loosest level 1 to the tightest level 6. -/
def operatorsOf : Nat → List Symbol
  | 1 => [.orOr]
  | 2 => [.andAnd]
  | 3 => [.equal, .notEqual]
  | 4 => [.less, .lessEqual, .greater, .greaterEqual]
  | 5 => [.plus, .minus]
  | 6 => [.star, .slash, .percent]
  | _ => []

/-- The value of a numeral. -/
def decimal (text : String) : Nat := Nat.ofDigitChars 10 text.toList 0

mutual

/-- An expression of a level. -/
inductive Level : Nat → List Lexeme → Expr Unit → Prop
  | unary {ws : List Lexeme} {e : Expr Unit} : Unary ws e → Level 7 ws e
  | tighter {n : Nat} {ws : List Lexeme} {e : Expr Unit} :
      1 ≤ n → n ≤ 6 → Level (n + 1) ws e → Level n ws e
  | binary {n : Nat} {us vs : List Lexeme} {e f : Expr Unit} {s : Symbol} {text : String} :
      s ∈ operatorsOf n → Level n us e → Level (n + 1) vs f →
      Level n (us ++ ⟨.symbol s, text⟩ :: vs) (.binary () text e f)

/-- A prefix operator with its operand, or a primary expression. -/
inductive Unary : List Lexeme → Expr Unit → Prop
  | operator {ws : List Lexeme} {e : Expr Unit} {s : Symbol} {text : String} :
      s = .bang ∨ s = .minus → Unary ws e →
      Unary (⟨.symbol s, text⟩ :: ws) (.unary () text e)
  | primary {ws : List Lexeme} {e : Expr Unit} : Primary ws e → Unary ws e

/-- A primary expression. A numeral beyond `2 ^ 63 - 1`, the greatest literal, derives nothing. -/
inductive Primary : List Lexeme → Expr Unit → Prop
  | number {text : String} : decimal text ≤ 0x7fffffffffffffff →
      Primary [⟨.number, text⟩] (.literal () (.integer (.ofNat (decimal text))))
  | true {text : String} : Primary [⟨.keyword .trueKw, text⟩] (.literal () (.bool Bool.true))
  | false {text : String} : Primary [⟨.keyword .falseKw, text⟩] (.literal () (.bool Bool.false))
  | read {text : String} : Primary [⟨.keyword .readKw, text⟩] (.read ())
  | name {text : String} : Primary [⟨.identifier, text⟩] (.name ⟨(), text⟩)
  | parens {ws : List Lexeme} {e : Expr Unit} {left right : String} : Level 1 ws e →
      Primary (⟨.symbol .leftParen, left⟩ :: ws ++ [⟨.symbol .rightParen, right⟩]) e

end

/-- An expression. -/
def Expression (ws : List Lexeme) (e : Expr Unit) : Prop := Level 1 ws e

/-- An expression in parentheses, as a test needs them. -/
inductive Test : List Lexeme → Expr Unit → Prop
  | parens {ws : List Lexeme} {e : Expr Unit} {left right : String} : Expression ws e →
      Test (⟨.symbol .leftParen, left⟩ :: ws ++ [⟨.symbol .rightParen, right⟩]) e

/-! ## §4. Statements -/

mutual

/-- A statement, and whether it is open: whether it ends in a choice that could still take an
    `else`. -/
inductive Statement : Bool → List Lexeme → Stmt Unit → Prop
  | block {ws : List Lexeme} {s : Stmt Unit} : Block ws s → Statement false ws s
  | assign {ws : List Lexeme} {e : Expr Unit} {name equals stop : String} : Expression ws e →
      Statement false
        (⟨.identifier, name⟩ :: ⟨.symbol .assign, equals⟩ :: ws ++ [⟨.symbol .semicolon, stop⟩])
        (.assign () ⟨(), name⟩ e)
  | output {ws : List Lexeme} {e : Expr Unit} {word stop : String} : Expression ws e →
      Statement false (⟨.keyword .outputKw, word⟩ :: ws ++ [⟨.symbol .semicolon, stop⟩])
        (.output () e)
  | loop {us vs : List Lexeme} {e : Expr Unit} {s : Stmt Unit} {isOpen : Bool} {word : String} :
      Test us e → Statement isOpen vs s →
      Statement isOpen (⟨.keyword .whileKw, word⟩ :: us ++ vs) (.loop () e s)
  | choice {us vs : List Lexeme} {e : Expr Unit} {s : Option (Stmt Unit)} {isOpen : Bool}
      {word : String} :
      Test us e → Branch isOpen vs s →
      Statement true (⟨.keyword .ifKw, word⟩ :: us ++ vs) (.choice () e s none)
  | choiceElse {us vs xs : List Lexeme} {e : Expr Unit} {s t : Option (Stmt Unit)} {isOpen : Bool}
      {word other : String} :
      Test us e → Branch false vs s → Branch isOpen xs t →
      Statement isOpen
        (⟨.keyword .ifKw, word⟩ :: us ++ vs ++ ⟨.keyword .elseKw, other⟩ :: xs)
        (.choice () e s t)

/-- A branch of a choice, which is absent if it is a semicolon. -/
inductive Branch : Bool → List Lexeme → Option (Stmt Unit) → Prop
  | absent {text : String} : Branch false [⟨.symbol .semicolon, text⟩] none
  | present {ws : List Lexeme} {s : Stmt Unit} {isOpen : Bool} :
      Statement isOpen ws s → Branch isOpen ws (some s)

/-- A block. -/
inductive Block : List Lexeme → Stmt Unit → Prop
  | braces {ws : List Lexeme} {body : List (Stmt Unit)} {left right : String} :
      Statements ws body →
      Block (⟨.symbol .leftBrace, left⟩ :: ws ++ [⟨.symbol .rightBrace, right⟩]) (.block () body)

/-- The statements of a block. -/
inductive Statements : List Lexeme → List (Stmt Unit) → Prop
  | nil : Statements [] []
  | cons {us vs : List Lexeme} {s : Stmt Unit} {body : List (Stmt Unit)} {isOpen : Bool} :
      Statement isOpen us s → Statements vs body → Statements (us ++ vs) (s :: body)

end

/-! ## §5. Programs -/

/-- Names behind commas. -/
inductive MoreNames : List Lexeme → List (Identifier Unit) → Prop
  | nil : MoreNames [] []
  | cons {ws : List Lexeme} {names : List (Identifier Unit)} {comma name : String} :
      MoreNames ws names →
      MoreNames (⟨.symbol .comma, comma⟩ :: ⟨.identifier, name⟩ :: ws) (⟨(), name⟩ :: names)

/-- The words for the types of variables. -/
def typeWord : ValueType → Keyword
  | .integer => .integerKw
  | .boolean => .booleanKw

/-- A declaration. -/
inductive Declaration : List Lexeme → TinyLang.Declaration Unit → Prop
  | names {type : ValueType} {ws : List Lexeme} {others : List (Identifier Unit)}
      {word first stop : String} :
      MoreNames ws others →
      Declaration
        (⟨.keyword (typeWord type), word⟩ :: ⟨.identifier, first⟩ :: ws ++
          [⟨.symbol .semicolon, stop⟩])
        ⟨(), type, ⟨(), first⟩, others⟩

/-- The declarations of a program. -/
inductive Declarations : List Lexeme → List (TinyLang.Declaration Unit) → Prop
  | nil : Declarations [] []
  | cons {us vs : List Lexeme} {d : TinyLang.Declaration Unit}
      {ds : List (TinyLang.Declaration Unit)} :
      Declaration us d → Declarations vs ds → Declarations (us ++ vs) (d :: ds)

/-- A program. -/
inductive Program : List Lexeme → TinyLang.Program Unit → Prop
  | mk {us vs : List Lexeme} {ds : List (TinyLang.Declaration Unit)} {s : Stmt Unit} :
      Declarations us ds → Block vs s → Program (us ++ vs) ⟨(), ds, s⟩

end Grammar

end TinyLang
