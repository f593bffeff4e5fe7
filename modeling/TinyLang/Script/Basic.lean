/-
  TinyLang.Script.Basic — the scripts that programs become.

  A script is a list of statements of JavaScript, over expressions with operators given by
  their spelling.  Equality of scripts is that of their parts, numbers being compared as
  numbers.
-/

import TinyLang.Number.Binary64

namespace TinyLang.Script

/-! ## §1. Trees -/

/-- A literal. -/
inductive Literal where
  | null
  | bool (b : Bool)
  | integer (n : Int)
  | number (x : Binary64)
  | string (s : String)
deriving DecidableEq, Repr

/-- On which side of its operand a unary operator stands. -/
inductive Side where
  | before
  | behind
deriving DecidableEq, Repr

/-- The words that start a declaration of variables. -/
inductive Binding where
  | varWord
  | letWord
  | constWord
deriving DecidableEq, Repr

/-- The spelling of a word that starts a declaration. -/
def Binding.spelling : Binding → String
  | varWord => "var"
  | letWord => "let"
  | constWord => "const"

mutual

/-- An expression. -/
inductive Expr where
  | identifier (name : String)
  | literal (value : Literal)
  | call (callee : Expr) (arguments : List Expr)
  | member (object : Expr) (property : String)
  | assign (operator : String) (left right : Expr)
  | unary (side : Side) (operator : String) (argument : Expr)
  | binary (operator : String) (left right : Expr)
  | function (parameters : List String) (body : List Stmt)

/-- A statement. -/
inductive Stmt where
  | declare (word : Binding) (declarators : List (String × Option Expr))
  | expression (e : Expr)
  | block (body : List Stmt)
  | loop (test : Expr) (body : Stmt)
  | choice (test : Expr) (consequent : Stmt) (alternate : Option Stmt)
  | empty

end

instance : Inhabited Expr := ⟨.literal .null⟩

instance : Inhabited Stmt := ⟨.empty⟩

/-! ## §2. Equality -/

/-- Equality of literals: numbers are compared as numbers, and an integer is no number. -/
def Literal.same : Literal → Literal → Bool
  | .number x, .number y => x.same y
  | a, b => a == b

mutual

/-- Equality of expressions. -/
def Expr.same : Expr → Expr → Bool
  | .identifier a, .identifier b => a == b
  | .literal a, .literal b => a.same b
  | .call f as, .call g bs => f.same g && Expr.sameAll as bs
  | .member a m, .member b n => a.same b && m == n
  | .assign o a b, .assign p c d => o == p && a.same c && b.same d
  | .unary s o a, .unary t p b => s == t && o == p && a.same b
  | .binary o a b, .binary p c d => o == p && a.same c && b.same d
  | .function ps as, .function qs bs => ps == qs && Stmt.sameAll as bs
  | _, _ => false

/-- Equality of lists of expressions. -/
def Expr.sameAll : List Expr → List Expr → Bool
  | [], [] => true
  | a :: as, b :: bs => a.same b && Expr.sameAll as bs
  | _, _ => false

/-- Equality of declarators. -/
def Expr.sameDeclarators :
    List (String × Option Expr) → List (String × Option Expr) → Bool
  | [], [] => true
  | (m, none) :: as, (n, none) :: bs => m == n && Expr.sameDeclarators as bs
  | (m, some a) :: as, (n, some b) :: bs => m == n && a.same b && Expr.sameDeclarators as bs
  | _, _ => false

/-- Equality of statements. -/
def Stmt.same : Stmt → Stmt → Bool
  | .declare v as, .declare w bs => v == w && Expr.sameDeclarators as bs
  | .expression a, .expression b => a.same b
  | .block as, .block bs => Stmt.sameAll as bs
  | .loop a s, .loop b t => a.same b && s.same t
  | .choice a s none, .choice b t none => a.same b && s.same t
  | .choice a s (some u), .choice b t (some v) => a.same b && s.same t && u.same v
  | .empty, .empty => true
  | _, _ => false

/-- Equality of lists of statements. -/
def Stmt.sameAll : List Stmt → List Stmt → Bool
  | [], [] => true
  | a :: as, b :: bs => a.same b && Stmt.sameAll as bs
  | _, _ => false

end

end TinyLang.Script
