/-
  TinyLang.Program.Basic — programs of the language.

  A program declares variables and has a body of assignments, outputs, loops and choices
  over expressions.  Every node carries a note of a type `α`: the parser notes its place in
  the source, and a caller that needs no note takes `Unit`.  `Program.toTree` turns a
  program into its syntax tree and may write the notes down on the way.
-/

import TinyLang.Tree.Build

namespace TinyLang

/-! ## §1. Expressions -/

/-- The values that literals stand for. -/
inductive Literal where
  | null
  | bool (b : Bool)
  | integer (n : Int64)
  | string (s : String)
deriving DecidableEq, Repr

/-- A name with its note. -/
structure Identifier (α : Type) where
  note : α
  name : String
deriving DecidableEq, Repr

/-- An expression. -/
inductive Expr (α : Type) where
  | name (x : Identifier α)
  | literal (note : α) (value : Literal)
  | read (note : α)
  | unary (note : α) (operator : String) (argument : Expr α)
  | binary (note : α) (operator : String) (left right : Expr α)
deriving DecidableEq, Repr

/-! ## §2. Statements -/

/-- A statement. A branch of a choice may be absent. -/
inductive Stmt (α : Type) where
  | block (note : α) (body : List (Stmt α))
  | assign (note : α) (target : Identifier α) (value : Expr α)
  | output (note : α) (value : Expr α)
  | loop (note : α) (test : Expr α) (body : Stmt α)
  | choice (note : α) (test : Expr α) (consequent alternate : Option (Stmt α))
deriving Repr

/-- A declaration of one or more variables of one type. -/
structure Declaration (α : Type) where
  note : α
  type : ValueType
  first : Identifier α
  others : List (Identifier α)
deriving DecidableEq, Repr

/-- The variables of a declaration, in order. -/
def Declaration.names {α : Type} (d : Declaration α) : List (Identifier α) := d.first :: d.others

/-- A program. -/
structure Program (α : Type) where
  note : α
  declarations : List (Declaration α)
  body : Stmt α
deriving Repr

end TinyLang
