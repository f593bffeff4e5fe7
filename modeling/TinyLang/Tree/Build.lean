/-
  TinyLang.Tree.Build — the nodes of a program.

  One builder for each form of the language.  The fields stand in a fixed order, and a
  branch that is absent is written as the null leaf.
-/

import TinyLang.Json.Location
import TinyLang.Tree.Basic

namespace TinyLang.Tree

/-- A leaf that holds a text. -/
def text (s : String) : Tree := .leaf (.string s)

/-- A node of one of the known forms. -/
def ofTag (tag : Tag) (fields : List (String × Tree)) : Tree := .node tag.name fields

/-- A program: declarations and a body. -/
def program (declarations : List Tree) (body : Tree) : Tree :=
  ofTag .program [("declarations", .seq declarations), ("body", body)]

/-- A declaration of variables of one type. -/
def declaration (names : List Tree) (type : ValueType) : Tree :=
  ofTag .declaration [("ids", .seq names), ("valueType", text type.name)]

/-- A block of statements. -/
def block (body : List Tree) : Tree := ofTag .block [("body", .seq body)]

/-- A variable. -/
def identifier (name : String) : Tree := ofTag .identifier [("name", text name)]

/-- A literal with a value. -/
def literal (value : Json) : Tree := ofTag .literal [("value", .leaf value)]

/-- An assignment of a value to a variable. -/
def assignment (left right : Tree) : Tree := ofTag .assignment [("left", left), ("right", right)]

/-- The next input. -/
def read : Tree := ofTag .read []

/-- The output of a value. -/
def output (value : Tree) : Tree := ofTag .output [("value", value)]

/-- An operator with one operand. -/
def unary (operator : String) (argument : Tree) : Tree :=
  ofTag .unary [("operator", text operator), ("argument", argument)]

/-- An operator with two operands. -/
def binary (operator : String) (left right : Tree) : Tree :=
  ofTag .binary [("operator", text operator), ("left", left), ("right", right)]

/-- A loop. -/
def loop (test body : Tree) : Tree := ofTag .loop [("test", test), ("body", body)]

/-- A choice between two branches, each of which may be absent. -/
def conditional (test : Tree) (consequent alternate : Option Tree) : Tree :=
  ofTag .conditional
    [("test", test), ("consequent", consequent.getD null), ("alternate", alternate.getD null)]

/-- The name of the field that holds a node's place in the source. -/
def locationKey : String := "location"

/-- Notes a place in the source on a node. -/
def locate (t : Tree) (place : Json) : Tree := t.setField locationKey (.leaf place)

end TinyLang.Tree
