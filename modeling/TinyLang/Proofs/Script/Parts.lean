/-
  TinyLang.Proofs.Script.Parts — what is inside of a script.

  The parts of a script are its statements and expressions, with all that stands in them at
  any depth: initialisers, operands, arguments, clauses and the bodies of functions.  What
  is said of all parts of a script is said of it EVERYWHERE.
-/

import TinyLang.Script.Basic

namespace TinyLang.Script

/-- A part of a script. -/
inductive Part where
  | statement (s : Stmt)
  | expression (e : Expr)

mutual

/-- An expression and all that is inside of it. -/
def Expr.parts : Expr → List Part
  | .identifier x => [.expression (.identifier x)]
  | .literal value => [.expression (.literal value)]
  | .call callee arguments =>
    .expression (.call callee arguments) :: (callee.parts ++ Expr.partsOfAll arguments)
  | .member object property => .expression (.member object property) :: object.parts
  | .assign op left right => .expression (.assign op left right) :: (left.parts ++ right.parts)
  | .unary side op argument => .expression (.unary side op argument) :: argument.parts
  | .binary op left right => .expression (.binary op left right) :: (left.parts ++ right.parts)
  | .function parameters body => .expression (.function parameters body) :: Stmt.partsOfAll body

/-- Expressions and all that is inside of them. -/
def Expr.partsOfAll : List Expr → List Part
  | [] => []
  | e :: es => e.parts ++ Expr.partsOfAll es

/-- The initialisers of declarators and all that is inside of them. -/
def Expr.partsOfDeclarators : List (String × Option Expr) → List Part
  | [] => []
  | (_, none) :: ds => Expr.partsOfDeclarators ds
  | (_, some e) :: ds => e.parts ++ Expr.partsOfDeclarators ds

/-- A statement and all that is inside of it. -/
def Stmt.parts : Stmt → List Part
  | .declare word declarators =>
    .statement (.declare word declarators) :: Expr.partsOfDeclarators declarators
  | .expression e => .statement (.expression e) :: e.parts
  | .block body => .statement (.block body) :: Stmt.partsOfAll body
  | .loop test body => .statement (.loop test body) :: (test.parts ++ body.parts)
  | .choice test consequent none =>
    .statement (.choice test consequent none) :: (test.parts ++ consequent.parts)
  | .choice test consequent (some alternate) =>
    .statement (.choice test consequent (some alternate)) ::
      (test.parts ++ (consequent.parts ++ alternate.parts))
  | .empty => [.statement .empty]

/-- Statements and all that is inside of them. -/
def Stmt.partsOfAll : List Stmt → List Part
  | [] => []
  | s :: body => s.parts ++ Stmt.partsOfAll body

end

/-- Something holds of an expression and of all that is inside of it. -/
def Expr.Everywhere (P : Part → Prop) (e : Expr) : Prop := ∀ p ∈ e.parts, P p

/-- Something holds of a statement and of all that is inside of it. -/
def Stmt.Everywhere (P : Part → Prop) (s : Stmt) : Prop := ∀ p ∈ s.parts, P p

section Everywhere

variable {P : Part → Prop}

/-- A property of all parts of some expressions is one of each expression, everywhere. -/
theorem Expr.forall_partsOfAll {es : List Expr} :
    (∀ p ∈ Expr.partsOfAll es, P p) ↔ ∀ e ∈ es, e.Everywhere P := by
  induction es with
  | nil =>
      show (∀ p ∈ [], P p) ↔ _
      simp
  | cons e es ih =>
      show (∀ p ∈ e.parts ++ Expr.partsOfAll es, P p) ↔ _
      rw [List.forall_mem_append, ih, List.forall_mem_cons]
      rfl

theorem Expr.forall_partsOfDeclarators {ds : List (String × Option Expr)} :
    (∀ p ∈ Expr.partsOfDeclarators ds, P p) ↔ ∀ d ∈ ds, ∀ e ∈ d.2, e.Everywhere P := by
  induction ds with
  | nil =>
      show (∀ p ∈ [], P p) ↔ _
      simp
  | cons d ds ih =>
      obtain ⟨name, _ | e⟩ := d
      · show (∀ p ∈ Expr.partsOfDeclarators ds, P p) ↔ _
        rw [ih, List.forall_mem_cons]
        simp
      · show (∀ p ∈ e.parts ++ Expr.partsOfDeclarators ds, P p) ↔ _
        rw [List.forall_mem_append, ih, List.forall_mem_cons]
        simp [Expr.Everywhere]

/-- A property of all parts of some statements is one of each statement, everywhere. -/
theorem Stmt.forall_partsOfAll {body : List Stmt} :
    (∀ p ∈ Stmt.partsOfAll body, P p) ↔ ∀ s ∈ body, s.Everywhere P := by
  induction body with
  | nil =>
      show (∀ p ∈ [], P p) ↔ _
      simp
  | cons s body ih =>
      show (∀ p ∈ s.parts ++ Stmt.partsOfAll body, P p) ↔ _
      rw [List.forall_mem_append, ih, List.forall_mem_cons]
      rfl

/-! What holds of a part and everywhere in the parts right below it holds everywhere. -/

theorem Expr.everywhere_identifier {x : String} :
    (Expr.identifier x).Everywhere P ↔ P (.expression (.identifier x)) :=
  List.forall_mem_singleton

theorem Expr.everywhere_literal {value : Literal} :
    (Expr.literal value).Everywhere P ↔ P (.expression (.literal value)) :=
  List.forall_mem_singleton

/-- A property holds everywhere in a call if it holds of the call and everywhere in its parts. -/
theorem Expr.everywhere_call {callee : Expr} {arguments : List Expr} :
    (Expr.call callee arguments).Everywhere P ↔
      P (.expression (.call callee arguments)) ∧ callee.Everywhere P ∧
        ∀ e ∈ arguments, e.Everywhere P := by
  rw [← Expr.forall_partsOfAll]
  exact List.forall_mem_cons.trans (and_congr_right' List.forall_mem_append)

theorem Expr.everywhere_member {object : Expr} {property : String} :
    (Expr.member object property).Everywhere P ↔
      P (.expression (.member object property)) ∧ object.Everywhere P :=
  List.forall_mem_cons

theorem Expr.everywhere_assign {op : String} {left right : Expr} :
    (Expr.assign op left right).Everywhere P ↔
      P (.expression (.assign op left right)) ∧ left.Everywhere P ∧ right.Everywhere P :=
  List.forall_mem_cons.trans (and_congr_right' List.forall_mem_append)

theorem Expr.everywhere_unary {side : Side} {op : String} {argument : Expr} :
    (Expr.unary side op argument).Everywhere P ↔
      P (.expression (.unary side op argument)) ∧ argument.Everywhere P :=
  List.forall_mem_cons

theorem Expr.everywhere_binary {op : String} {left right : Expr} :
    (Expr.binary op left right).Everywhere P ↔
      P (.expression (.binary op left right)) ∧ left.Everywhere P ∧ right.Everywhere P :=
  List.forall_mem_cons.trans (and_congr_right' List.forall_mem_append)

theorem Expr.everywhere_function {parameters : List String} {body : List Stmt} :
    (Expr.function parameters body).Everywhere P ↔
      P (.expression (.function parameters body)) ∧ ∀ s ∈ body, s.Everywhere P := by
  rw [← Stmt.forall_partsOfAll]
  exact List.forall_mem_cons

/-- A property holds everywhere in a declaration if it holds of the declaration and in all values it
    gives. -/
theorem Stmt.everywhere_declare {word : Binding} {ds : List (String × Option Expr)} :
    (Stmt.declare word ds).Everywhere P ↔
      P (.statement (.declare word ds)) ∧ ∀ d ∈ ds, ∀ e ∈ d.2, e.Everywhere P := by
  rw [← Expr.forall_partsOfDeclarators]
  exact List.forall_mem_cons

theorem Stmt.everywhere_expression {e : Expr} :
    (Stmt.expression e).Everywhere P ↔ P (.statement (.expression e)) ∧ e.Everywhere P :=
  List.forall_mem_cons

theorem Stmt.everywhere_block {body : List Stmt} :
    (Stmt.block body).Everywhere P ↔
      P (.statement (.block body)) ∧ ∀ s ∈ body, s.Everywhere P := by
  rw [← Stmt.forall_partsOfAll]
  exact List.forall_mem_cons

theorem Stmt.everywhere_loop {test : Expr} {body : Stmt} :
    (Stmt.loop test body).Everywhere P ↔
      P (.statement (.loop test body)) ∧ test.Everywhere P ∧ body.Everywhere P :=
  List.forall_mem_cons.trans (and_congr_right' List.forall_mem_append)

/-- A property holds everywhere in a choice if it holds of the choice, in its test and in its
    branches. -/
theorem Stmt.everywhere_choice {test : Expr} {consequent alternate : Stmt} :
    (Stmt.choice test consequent (some alternate)).Everywhere P ↔
      P (.statement (.choice test consequent (some alternate))) ∧ test.Everywhere P ∧
        consequent.Everywhere P ∧ alternate.Everywhere P :=
  List.forall_mem_cons.trans
    (and_congr_right' (List.forall_mem_append.trans (and_congr_right' List.forall_mem_append)))

theorem Stmt.everywhere_choice_none {test : Expr} {consequent : Stmt} :
    (Stmt.choice test consequent none).Everywhere P ↔
      P (.statement (.choice test consequent none)) ∧ test.Everywhere P ∧
        consequent.Everywhere P :=
  List.forall_mem_cons.trans (and_congr_right' List.forall_mem_append)

theorem Stmt.everywhere_empty : Stmt.empty.Everywhere P ↔ P (.statement .empty) :=
  List.forall_mem_singleton

end Everywhere

end TinyLang.Script
