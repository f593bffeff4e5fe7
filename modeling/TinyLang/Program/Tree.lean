/-
  TinyLang.Program.Tree — the syntax tree of a program.

  Each node becomes a tagged node with the fields of its form.  `mark` says what is written
  down for a note: nothing, or a leaf that goes into the field `location` behind the other
  fields.
-/

import TinyLang.Program.Basic

namespace TinyLang

variable {α : Type}

/-- Writes a note down on a node, if there is something to write. -/
def Tree.mark (t : Tree) (place : Option Json) : Tree :=
  match place with
  | some place => t.locate place
  | none => t

/-- The JSON value of a literal. -/
def Literal.toJson : Literal → Json
  | .null => .null
  | .bool b => .bool b
  | .integer n => .ofInt64 n
  | .string s => .string s

/-- The tree of a name. -/
def Identifier.toTree (mark : α → Option Json) (x : Identifier α) : Tree :=
  (Tree.identifier x.name).mark (mark x.note)

/-- The tree of an expression. -/
def Expr.toTree (mark : α → Option Json) : Expr α → Tree
  | .name x => x.toTree mark
  | .literal note value => (Tree.literal value.toJson).mark (mark note)
  | .read note => Tree.read.mark (mark note)
  | .unary note op e => (Tree.unary op (e.toTree mark)).mark (mark note)
  | .binary note op e f => (Tree.binary op (e.toTree mark) (f.toTree mark)).mark (mark note)

mutual

/-- The tree of a statement. -/
def Stmt.toTree (mark : α → Option Json) : Stmt α → Tree
  | .block note body => (Tree.block (Stmt.toTrees mark body)).mark (mark note)
  | .assign note x e => (Tree.assignment (x.toTree mark) (e.toTree mark)).mark (mark note)
  | .output note e => (Tree.output (e.toTree mark)).mark (mark note)
  | .loop note e s => (Tree.loop (e.toTree mark) (s.toTree mark)).mark (mark note)
  | .choice note e s t =>
    (Tree.conditional (e.toTree mark) (Stmt.toTree? mark s) (Stmt.toTree? mark t)).mark (mark note)

/-- The trees of a list of statements. -/
def Stmt.toTrees (mark : α → Option Json) : List (Stmt α) → List Tree
  | [] => []
  | s :: body => s.toTree mark :: Stmt.toTrees mark body

/-- The tree of a branch, if it is there. -/
def Stmt.toTree? (mark : α → Option Json) : Option (Stmt α) → Option Tree
  | none => none
  | some s => some (s.toTree mark)

end

/-- The tree of a declaration. -/
def Declaration.toTree (mark : α → Option Json) (d : Declaration α) : Tree :=
  (Tree.declaration (d.names.map (·.toTree mark)) d.type).mark (mark d.note)

/-- The tree of a program. -/
def Program.toTree (mark : α → Option Json) (p : Program α) : Tree :=
  (Tree.program (p.declarations.map (·.toTree mark)) (p.body.toTree mark)).mark (mark p.note)

end TinyLang
