/-
  TinyLang.Lowering.Fields — the walked fields of a node, by what they hold.

  What a node becomes is a `Target`.  A `Reading` takes a walked tree for a text, an
  expression, a sequence of statements and so on, or says which shape it misses.  A rule
  asks for the fields of its node one by one, each with the reading it needs, and stops at
  the first that is missing or of another shape.
-/

import TinyLang.Lowering.Error
import TinyLang.Lowering.Suspension
import TinyLang.Lowering.Walk

namespace TinyLang

/-! ## §1. What nodes become -/

/-- What a node becomes. -/
inductive Target where
  | program (body : List Script.Stmt)
  | statement (s : Script.Stmt)
  | expression (e : Script.Expr)
  | suspension (s : Suspension)

namespace Target

/-- What a target is called in a message. -/
def kindName : Target → String
  | .program _ => "program"
  | .statement _ => "statement"
  | .expression _ => "expression"
  | .suspension _ => "suspension"

/-- The script of a target: an expression stands as a statement, and a suspension as its call. -/
def script : Target → List Script.Stmt
  | .program body => body
  | .statement s => [s]
  | .expression e => [.expression e]
  | .suspension s => [s.toStatement]

end Target

/-! ## §2. Readings of a walked tree -/

/-- The literal of a scalar. An integer beyond the signed words becomes the number nearest to
    it. -/
def Json.toLiteral? : Json → Option Script.Literal
  | .null => some .null
  | .bool b => some (.bool b)
  | .number (.integer n) =>
    some (if n.value < 0x8000000000000000 then .integer n.value
      else .number (Binary64.ofRatio false n.value.toNat 1))
  | .number (.float x) => some (.number x.value)
  | .string s => some (.string s)
  | .array _ => none
  | .object _ => none

namespace Walked

/-- The text of a leaf. -/
def text? : Walked Target → Option String
  | .leaf (.string s) => some s
  | _ => none

/-- The literal of a leaf that is a scalar. -/
def scalar? : Walked Target → Option Script.Literal
  | .leaf value => value.toLiteral?
  | _ => none

/-- The expression that a node has become. -/
def expression? : Walked Target → Option Script.Expr
  | .node (.expression e) => some e
  | _ => none

/-- The step that a node has become: a statement, or a call that goes on later. -/
def step? : Walked Target → Option Step
  | .node (.statement s) => some (.now s)
  | .node (.suspension s) => some (.later s)
  | _ => none

/-- The name of the variable that a node has become. -/
def name? : Walked Target → Option String
  | .node (.expression (.identifier x)) => some x
  | _ => none

end Walked

/-- A way to read a walked tree, which gives the shape that it misses where it cannot. -/
def Reading (α : Type) : Type := Walked Target → Except Shape α

namespace Reading

variable {α β : Type}

/-- What there is to be seen in a tree, which is of a shape. -/
def only (shape : Shape) (view : Walked Target → Option α) : Reading α := fun w =>
  match view w with
  | some x => .ok x
  | none => .error shape

/-- What is made of what is read. -/
def map (g : α → β) (r : Reading α) : Reading β := fun w => (r w).map g

/-- The items of a sequence, each read in one way. -/
def each (shape : Shape) (item : Reading α) : Reading (List α) := fun w =>
  match w with
  | .seq items => items.mapM item
  | _ => .error shape

/-- A text. -/
def text : Reading String := only .text Walked.text?

/-- The literal of a scalar. -/
def scalar : Reading Script.Literal := only .scalar Walked.scalar?

/-- An expression. -/
def expression : Reading Script.Expr := only .expression Walked.expression?

/-- A step. -/
def step : Reading Step := only .statement Walked.step?

/-- A statement. -/
def statement : Reading Script.Stmt := step.map Step.alone

/-- A sequence of steps. -/
def steps : Reading (List Step) := each .statements step

/-- A sequence of statements. -/
def statements : Reading (List Script.Stmt) := each .statements statement

/-- A name. What is asked for is a sequence, whichever of its items is none. -/
def name : Reading String := only .identifiers Walked.name?

/-- A sequence of names. -/
def names : Reading (List String) := each .identifiers name

end Reading

/-! ## §3. Fields of a node -/

/-- The walked fields of a node of a known form. -/
structure Fields where
  tag : Tag
  fields : List (String × Walked Target)

namespace Fields

variable {α : Type}

/-- A field that has to be there, read in a given way. -/
def read (f : Fields) (name : String) (r : Reading α) : Except LoweringError α :=
  match Record.find? name f.fields with
  | some w => (r w).mapError (.unexpectedShape f.tag name)
  | none => .error (.missingField f.tag name)

/-- A field that may be absent or null, and stands for a default then. -/
def readOr (f : Fields) (name : String) (r : Reading α) (default : α) : Except LoweringError α :=
  match Record.find? name f.fields with
  | none => .ok default
  | some (.leaf .null) => .ok default
  | some _ => f.read name r

/-- A field that is there is read as the tree in it. -/
theorem read_of_find? {f : Fields} {name : String} {w : Walked Target}
    (h : Record.find? name f.fields = some w) (r : Reading α) :
    f.read name r = (r w).mapError (.unexpectedShape f.tag name) := by
  unfold read
  rw [h]

theorem read_of_find?_none {f : Fields} {name : String} (h : Record.find? name f.fields = none)
    (r : Reading α) : f.read name r = .error (.missingField f.tag name) := by
  unfold read
  rw [h]

end Fields

end TinyLang
