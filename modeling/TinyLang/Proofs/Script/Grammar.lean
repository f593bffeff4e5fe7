/-
  TinyLang.Proofs.Script.Grammar — the grammar of scripts, as derivations.

  A derivation says which list of tokens stands for which part of a script.  Expressions
  stand on levels, a tighter one wherever a looser one may stand:

      level 0     level 1 | target "=" level 0              target on level 8
      level n     level (n+1) | level n operator(n) level (n+1)        (n from 1 to 6)
      level 7     level 8 | ("!" | "-") level 7
      level 8     level 9 | level 8 "." word | level 8 "(" arguments ")"
      level 9     name | number | string | "true" | "false" | "(" level 0 ")"

  and parentheses leave no trace in the expression.  A statement is derived as OPEN when it
  ends in a choice without `else`, and only a statement that is not open may stand in front
  of an `else`, which so belongs to the nearest choice that can still take one.
-/

import TinyLang.Proofs.Script.Tokens

namespace TinyLang.Script

namespace Grammar

/-! ## §1. Expressions -/

/-- The binary operators of a level, from the loosest level 1 to the tightest level 6. -/
def operatorsOf : Nat → List String
  | 1 => ["||"]
  | 2 => ["&&"]
  | 3 => ["==", "!="]
  | 4 => ["<", "<=", ">", ">="]
  | 5 => ["+", "-"]
  | 6 => ["*", "/", "%"]
  | _ => []

/-- The operators in front of an operand. -/
def signs : List String := ["!", "-"]

/-- Whether an expression can be assigned to. -/
def isTarget : Expr → Bool
  | .identifier _ | .member _ _ => true
  | _ => false

mutual

/-- An expression of a level. -/
inductive Phrase : Nat → List Token → Expr → Prop
  | tighter {k : Nat} {ts : List Token} {e : Expr} : k < 9 → Phrase (k + 1) ts e → Phrase k ts e
  | assign {us vs : List Token} {target value : Expr} : isTarget target = true →
      Phrase 8 us target → Phrase 0 vs value →
      Phrase 0 (us ++ .mark "=" :: vs) (.assign "=" target value)
  | binary {k : Nat} {us vs : List Token} {op : String} {left right : Expr} :
      op ∈ operatorsOf k → Phrase k us left → Phrase (k + 1) vs right →
      Phrase k (us ++ .mark op :: vs) (.binary op left right)
  | unary {ts : List Token} {op : String} {e : Expr} : op ∈ signs → Phrase 7 ts e →
      Phrase 7 (.mark op :: ts) (.unary .before op e)
  | member {ts : List Token} {object : Expr} {property : String} : Phrase 8 ts object →
      Phrase 8 (ts ++ [.mark ".", .word property]) (.member object property)
  | call {us vs : List Token} {callee : Expr} {arguments : List Expr} : Phrase 8 us callee →
      Arguments vs arguments →
      Phrase 8 (us ++ .mark "(" :: vs ++ [.mark ")"]) (.call callee arguments)
  | identifier {name : String} : name ∉ reservedWords →
      Phrase 9 [.word name] (.identifier name)
  | number {n : Nat} : Phrase 9 [.number n] (.literal (.integer n))
  | string {s : String} : Phrase 9 [.string s] (.literal (.string s))
  | true : Phrase 9 [.word "true"] (.literal (.bool Bool.true))
  | false : Phrase 9 [.word "false"] (.literal (.bool Bool.false))
  | parens {ts : List Token} {e : Expr} : Phrase 0 ts e →
      Phrase 9 (.mark "(" :: ts ++ [.mark ")"]) e

/-- The arguments of a call. -/
inductive Arguments : List Token → List Expr → Prop
  | none : Arguments [] []
  | some {ts : List Token} {es : List Expr} : Items ts es → Arguments ts es

/-- One or more expressions with commas between them. -/
inductive Items : List Token → List Expr → Prop
  | last {ts : List Token} {e : Expr} : Phrase 0 ts e → Items ts [e]
  | more {us vs : List Token} {e : Expr} {es : List Expr} : Phrase 0 us e → Items vs es →
      Items (us ++ .mark "," :: vs) (e :: es)

end

/-! ## §2. Statements -/

/-- A variable with or without its first value. -/
inductive Declarator : List Token → String × Option Expr → Prop
  | bare {name : String} : name ∉ reservedWords → Declarator [.word name] (name, none)
  | initial {ts : List Token} {name : String} {e : Expr} : name ∉ reservedWords → Phrase 0 ts e →
      Declarator (.word name :: .mark "=" :: ts) (name, some e)

/-- One or more variables with commas between them. -/
inductive Declarators : List Token → List (String × Option Expr) → Prop
  | last {ts : List Token} {d : String × Option Expr} : Declarator ts d → Declarators ts [d]
  | more {us vs : List Token} {d : String × Option Expr} {ds : List (String × Option Expr)} :
      Declarator us d → Declarators vs ds → Declarators (us ++ .mark "," :: vs) (d :: ds)

mutual

/-- A statement, and whether it is open: whether it ends in a choice that could still take an
    `else`. -/
inductive Statement : Bool → List Token → Stmt → Prop
  | declare {ts : List Token} {ds : List (String × Option Expr)} : Declarators ts ds →
      Statement false (.word "var" :: ts ++ [.mark ";"]) (.declare .varWord ds)
  | expression {ts : List Token} {e : Expr} : Phrase 0 ts e →
      Statement false (ts ++ [.mark ";"]) (.expression e)
  | block {ts : List Token} {body : List Stmt} : Statements ts body →
      Statement false (.mark "\x7b" :: ts ++ [.mark "\x7d"]) (.block body)
  | loop {us vs : List Token} {test : Expr} {s : Stmt} {isOpen : Bool} : Phrase 0 us test →
      Statement isOpen vs s →
      Statement isOpen (.word "while" :: .mark "(" :: us ++ .mark ")" :: vs) (.loop test s)
  | choice {us vs : List Token} {test : Expr} {s : Stmt} {isOpen : Bool} : Phrase 0 us test →
      Statement isOpen vs s →
      Statement true (.word "if" :: .mark "(" :: us ++ .mark ")" :: vs) (.choice test s none)
  | choiceElse {us vs ws : List Token} {test : Expr} {s t : Stmt} {isOpen : Bool} :
      Phrase 0 us test → Statement false vs s → Statement isOpen ws t →
      Statement isOpen
        (.word "if" :: .mark "(" :: us ++ .mark ")" :: vs ++ .word "else" :: ws)
        (.choice test s (some t))
  | empty : Statement false [.mark ";"] .empty

/-- Statements one behind the other. -/
inductive Statements : List Token → List Stmt → Prop
  | nil : Statements [] []
  | cons {us vs : List Token} {s : Stmt} {body : List Stmt} {isOpen : Bool} :
      Statement isOpen us s → Statements vs body → Statements (us ++ vs) (s :: body)

end

end Grammar

/-- A text is read as a script. -/
def Reads (text : String) (script : List Stmt) : Prop :=
  ∃ ts, Tokenized text.toList ts ∧ Grammar.Statements ts script

/-! ## §3. Levels -/

namespace Grammar

/-- The binary operators stand on the levels 1 to 6. -/
theorem operatorsOf_level {k : Nat} {op : String} (h : op ∈ operatorsOf k) : 1 ≤ k ∧ k ≤ 6 := by
  unfold operatorsOf at h
  split at h
  case h_7 => exact absurd h List.not_mem_nil
  all_goals omega

/-- A tighter expression may stand wherever a looser one may. -/
theorem Phrase.mono {j k : Nat} {ts : List Token} {e : Expr} (hjk : j ≤ k) (hk : k ≤ 9)
    (h : Phrase k ts e) : Phrase j ts e := by
  induction k with
  | zero =>
      obtain rfl : j = 0 := by omega
      exact h
  | succ k ih =>
      by_cases hj : j = k + 1
      · subst hj
        exact h
      · exact ih (by omega) (by omega) (.tighter (by omega) h)

end Grammar

end TinyLang.Script
