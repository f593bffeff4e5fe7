/-
  TinyLang.Lowering.Error — why a tree is no program.

  A node is refused for its tag or for the first of its fields that is missing or has not
  the shape that its form asks for; a tree is refused for its root.
-/

import TinyLang.Tree.Tag

namespace TinyLang

/-- What a field has to hold. -/
inductive Shape where
  | text
  | scalar
  | expression
  | statement
  | statements
  | identifiers
deriving DecidableEq, Repr

/-- What a shape is called in a message. -/
def Shape.describe : Shape → String
  | text => "a string"
  | scalar => "a scalar"
  | expression => "an expression"
  | statement => "a statement"
  | statements => "a sequence of statements"
  | identifiers => "a sequence of identifiers"

/-- Why a tree is refused. -/
inductive LoweringError where
  | unknownTag (tag : String)
  | missingField (tag : Tag) (field : String)
  | unexpectedShape (tag : Tag) (field : String) (expected : Shape)
  | unknownType (name : String)
  | emptyDeclaration
  | unexpectedRoot (expected found : String)
deriving DecidableEq, Repr

/-- The wording of a refusal. -/
def LoweringError.message : LoweringError → String
  | unknownTag tag => "No transformer for node type: " ++ tag
  | missingField tag field => tag.name ++ " is missing field `" ++ field ++ "`"
  | unexpectedShape tag field expected =>
    tag.name ++ "." ++ field ++ " must be " ++ expected.describe
  | unknownType name => "unsupported value type `" ++ name ++ "`, expected integer or boolean"
  | emptyDeclaration => "declaration lists no identifiers"
  | unexpectedRoot expected found =>
    "expected " ++ expected ++ " at the root, found " ++ found

end TinyLang
