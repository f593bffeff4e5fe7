/-
  TinyLang.Tree.Tag — the closed vocabulary of syntax trees.

  Twelve tags name the forms of a program, and two names stand for the types of its
  variables.  Each name is read back by `ofName?`.
-/

namespace TinyLang

/-! ## §1. Node tags -/

/-- The forms of a node. -/
inductive Tag where
  | program
  | declaration
  | block
  | identifier
  | literal
  | assignment
  | read
  | output
  | unary
  | binary
  | loop
  | conditional
deriving DecidableEq, Repr

namespace Tag

/-- The name of a form, as it stands in a tree. -/
def name : Tag → String
  | program => "Tiny"
  | declaration => "Declaration"
  | block => "BlockStatement"
  | identifier => "Identifier"
  | literal => "Literal"
  | assignment => "AssignmentStatement"
  | read => "ReadExpression"
  | output => "OutputStatement"
  | unary => "UnaryExpression"
  | binary => "BinaryExpression"
  | loop => "WhileStatement"
  | conditional => "IfStatement"

/-- All forms. -/
def all : List Tag :=
  [program, declaration, block, identifier, literal, assignment, read, output, unary, binary,
    loop, conditional]

/-- The form with a name. -/
def ofName? (name : String) : Option Tag := all.find? fun tag => tag.name == name

/-- No two forms share a name. -/
theorem ofName?_name (tag : Tag) : ofName? tag.name = some tag := by
  cases tag <;> decide

/-- The message about a name that no form has. -/
def unknownMessage (name : String) : String := "unknown node type: " ++ name

end Tag

/-! ## §2. Types of variables -/

/-- The types of variables. -/
inductive ValueType where
  | integer
  | boolean
deriving DecidableEq, Repr

namespace ValueType

/-- The name of a type. -/
def name : ValueType → String
  | integer => "integer"
  | boolean => "boolean"

/-- The type with a name. -/
def ofName? (name : String) : Option ValueType :=
  [integer, boolean].find? fun type => type.name == name

/-- No two types share a name. -/
theorem ofName?_name (type : ValueType) : ofName? type.name = some type := by
  cases type <;> decide

/-- The message about a name that no type has. -/
def unknownMessage (name : String) : String := "unknown value type: " ++ name

end ValueType

end TinyLang
