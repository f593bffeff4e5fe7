/-
  TinyLang.Lowering.Rules — what each form of a program becomes.

  There is one rule for each tag.  A rule reads the walked fields of its node and gives a
  target; fields that it does not ask for do not matter.  `Tree.lower` walks a tree with
  the rules.
-/

import TinyLang.Lowering.Fields
import TinyLang.Naming

namespace TinyLang

namespace Lowering

open Script (Stmt Expr)

/-! ## §1. The runtime -/

/-- The statement that loads the runtime. -/
def importRuntime (names : Naming) : Stmt :=
  .declare .varWord
    [(names.binding,
      some (.call (.identifier Naming.loader) [.literal (.string names.path)]))]

/-- A call of a member of the runtime. -/
def callRuntime (names : Naming) (member : String) (arguments : List Expr) : Expr :=
  .call (.member (.identifier names.binding) member) arguments

/-- The value that a variable of a type starts with. -/
def initial : ValueType → Script.Literal
  | .integer => .integer 0
  | .boolean => .bool false

/-- The declaration of variables of a type. -/
def declareAll (type : ValueType) (declared : List String) : Stmt :=
  .declare .varWord (declared.map fun x => (x, some (.literal (initial type))))

/-! ## §2. Rules -/

/-- The type with a name. -/
def valueType (name : String) : Except LoweringError ValueType :=
  match ValueType.ofName? name with
  | some type => .ok type
  | none => .error (.unknownType name)

/-- The rule of a form. -/
def rule (names : Naming) (f : Fields) : Except LoweringError Target :=
  match f.tag with
  | .program => do
    let declarations ← f.read "declarations" .statements
    let body ← f.read "body" .step
    .ok (.program (importRuntime names :: declarations ++ expand [body]))
  | .declaration => do
    let declared ← f.read "ids" .names
    let name ← f.read "valueType" .text
    let type ← valueType name
    if declared.isEmpty then .error .emptyDeclaration
    else .ok (.statement (declareAll type declared))
  | .block => do
    let body ← f.read "body" .steps
    .ok (.statement (.block (expand body)))
  | .identifier => do
    let name ← f.read "name" .text
    .ok (.expression (.identifier (names.rename name)))
  | .literal => do
    let value ← f.read "value" .scalar
    .ok (.expression (.literal value))
  | .assignment => do
    let left ← f.read "left" .expression
    let right ← f.read "right" .expression
    .ok (.statement (.expression (.assign "=" left right)))
  | .read => .ok (.expression (callRuntime names Naming.readMember []))
  | .output => do
    let value ← f.read "value" .expression
    .ok (.statement (.expression (callRuntime names Naming.outputMember [value])))
  | .unary => do
    let operator ← f.read "operator" .text
    let argument ← f.read "argument" .expression
    .ok (.expression (.unary .before operator argument))
  | .binary => do
    let operator ← f.read "operator" .text
    let left ← f.read "left" .expression
    let right ← f.read "right" .expression
    .ok (.expression (.binary operator left right))
  | .loop => do
    let test ← f.read "test" .expression
    let body ← f.read "body" .statement
    .ok (.statement (.loop test body))
  | .conditional => do
    let test ← f.read "test" .expression
    let consequent ← f.readOr "consequent" .statement .empty
    let alternate ← f.readOr "alternate" .statement .empty
    .ok (.statement (.choice test consequent (some alternate)))

/-- What a node with walked fields becomes. -/
def lowerNode (names : Naming) (tag : String) (fields : List (String × Walked Target)) :
    Except LoweringError Target :=
  match Tag.ofName? tag with
  | some tag => rule names ⟨tag, fields⟩
  | none => .error (.unknownTag tag)

end Lowering

/-! ## §3. Trees -/

namespace Tree

/-- What a tree becomes. The root has to be a node. -/
def lower (names : Naming) (t : Tree) : Except LoweringError Target := do
  match ← t.walk (Lowering.lowerNode names) with
  | .node target => .ok target
  | w => .error (.unexpectedRoot "a node" w.shapeName)

/-- The script that a tree becomes. The root has to be a program. -/
def lowerProgram (names : Naming) (t : Tree) : Except LoweringError (List Script.Stmt) := do
  match ← t.lower names with
  | .program body => .ok body
  | target => .error (.unexpectedRoot "program" target.kindName)

end Tree

end TinyLang
