/-
  TinyLang.Lowering.Suspension — statements that wait.

  A suspension is a call that goes on later, in a function that it is given as its last
  argument.  In a list of steps everything behind a suspension goes into that function, so
  what is left of the list is a list of statements:

      expand (a ++ b) = expand a ++ expand b       when no step of `a` waits
-/

import TinyLang.Script.Basic

namespace TinyLang

/-- A call that goes on later: what is called with which arguments, the name under which the
    result is handed over, and the statements that follow. -/
structure Suspension where
  callee : Script.Expr
  arguments : List Script.Expr
  binding : Option String
  continuation : List Script.Stmt

namespace Suspension

/-- A call with nothing behind it. -/
def ofCall (callee : Script.Expr) (arguments : List Script.Expr) : Suspension :=
  ⟨callee, arguments, none, []⟩

/-- Names the result. -/
def bind (s : Suspension) (name : String) : Suspension := { s with binding := some name }

/-- Puts statements behind those that already follow. -/
def attach (s : Suspension) (rest : List Script.Stmt) : Suspension :=
  { s with continuation := s.continuation ++ rest }

/-- The call, with a function of what follows as its last argument. -/
def toStatement (s : Suspension) : Script.Stmt :=
  .expression (.call s.callee (s.arguments ++ [.function s.binding.toList s.continuation]))

/-- The call, followed by the given statements. -/
def resume (s : Suspension) (rest : List Script.Stmt) : Script.Stmt := (s.attach rest).toStatement

end Suspension

/-- A step of a body: a statement, or a call that goes on later. -/
inductive Step where
  | now (s : Script.Stmt)
  | later (s : Suspension)

/-- A step by itself, as a statement: behind a suspension that stands alone nothing follows. -/
def Step.alone : Step → Script.Stmt
  | .now s => s
  | .later s => s.resume []

/-- The statements of a list of steps: all that stands behind a suspension goes into it. -/
def expand : List Step → List Script.Stmt
  | [] => []
  | .now s :: steps => s :: expand steps
  | .later s :: steps => [s.resume (expand steps)]

/-- Where no step waits, expansion leaves the statements as they are. -/
theorem expand_map_now (body : List Script.Stmt) : expand (body.map Step.now) = body := by
  induction body with
  | nil => rfl
  | cons s body ih => simp [expand, ih]

end TinyLang
