/-
  TinyLang.Tree.Basic — syntax trees as they are exchanged.

  A tree is a sequence, a node with a tag and named fields, or a leaf that holds a JSON
  value.  Every JSON value is a tree (`Tree.ofJson`): arrays are sequences, objects with a
  member `type` are nodes, and all else is a leaf.  A tree goes back in two ways: as the
  document that is written for it (`Tree.document`), where a field named `type` stands
  beside the tag, and as a value (`Tree.toJson`), where it takes the tag's place.
-/

import TinyLang.Json.Writer
import TinyLang.Tree.Tag

namespace TinyLang

/-- A syntax tree. -/
inductive Tree where
  | seq (items : List Tree)
  | node (tag : String) (fields : List (String × Tree))
  | leaf (value : Json)
deriving Repr, Inhabited

namespace Tree

/-- The member of a JSON object that makes it a node. -/
def tagKey : String := "type"

/-! ## §1. Parts -/

/-- The tree that stands for nothing. -/
def null : Tree := .leaf .null

/-- Whether a tree is the one that stands for nothing. -/
def isNull : Tree → Bool
  | .leaf .null => true
  | _ => false

/-- The text of a leaf that holds one. -/
def text? : Tree → Option String
  | .leaf (.string s) => some s
  | _ => none

/-- The items of a sequence. -/
def items? : Tree → Option (List Tree)
  | .seq items => some items
  | _ => none

/-- The fields of a node; other trees have none. -/
def fields : Tree → List (String × Tree)
  | .node _ fields => fields
  | _ => []

/-- The value of a field. -/
def field? (t : Tree) (name : String) : Option Tree := Record.find? name t.fields

/-- Gives a value to a field of a node; other trees stay as they are. -/
def setField (t : Tree) (name : String) (value : Tree) : Tree :=
  match t with
  | .node tag fields => .node tag (Record.put name value fields)
  | t => t

mutual

/-- The number of nodes in a tree. Leaves hold none. -/
def nodeCount : Tree → Nat
  | .seq items => nodeCountItems items
  | .node _ fields => 1 + nodeCountFields fields
  | .leaf _ => 0

/-- The number of nodes in a list of trees. -/
def nodeCountItems : List Tree → Nat
  | [] => 0
  | t :: items => t.nodeCount + nodeCountItems items

/-- The number of nodes in a list of fields. -/
def nodeCountFields : List (String × Tree) → Nat
  | [] => 0
  | (_, t) :: fields => t.nodeCount + nodeCountFields fields

end

/-! ## §2. Equality -/

mutual

/-- Equality of trees; the order of a node's fields does not matter. -/
def same : Tree → Tree → Bool
  | .seq as, .seq bs => sameItems as bs
  | .node t as, .node u bs => t == u && as.length == bs.length && sameFields as bs
  | .leaf a, .leaf b => a.same b
  | _, _ => false

/-- Whether two lists agree item by item. -/
def sameItems : List Tree → List Tree → Bool
  | [], [] => true
  | a :: as, b :: bs => a.same b && sameItems as bs
  | _, _ => false

/-- Whether each field of the first node has the same value in the second. -/
def sameFields : List (String × Tree) → List (String × Tree) → Bool
  | [], _ => true
  | (n, a) :: as, bs =>
    (match Record.find? n bs with
      | some b => a.same b
      | none => false) && sameFields as bs

end

/-! ## §3. From JSON -/

/-- The tag that a member `type` gives: its text, or how the value is written if it is no text. -/
def tagText : Json → String
  | .string s => s
  | v => v.compact

mutual

/-- The tree of a JSON value. -/
def ofJson : Json → Tree
  | .array items => .seq (ofItems items)
  | .object members =>
    match Record.find? tagKey members with
    | some tag => .node (tagText tag) (ofMembers members)
    | none => .leaf (.object members)
  | v => .leaf v

/-- The trees of a list of values. -/
def ofItems : List Json → List Tree
  | [] => []
  | v :: items => ofJson v :: ofItems items

/-- The fields of a list of members, the tag apart. -/
def ofMembers : List (String × Json) → List (String × Tree)
  | [] => []
  | (n, v) :: members =>
    if n = tagKey then ofMembers members else (n, ofJson v) :: ofMembers members

end

/-! ## §4. To JSON -/

mutual

/-- The document that is written for a tree: the tag first, then the fields, one of which may be
    named like the tag. -/
def document : Tree → Json
  | .seq items => .array (documentItems items)
  | .node tag fields => .object ((tagKey, .string tag) :: documentFields fields)
  | .leaf value => value

/-- The documents of a list of trees. -/
def documentItems : List Tree → List Json
  | [] => []
  | t :: items => t.document :: documentItems items

/-- The documents of a list of fields. -/
def documentFields : List (String × Tree) → List (String × Json)
  | [] => []
  | (n, t) :: fields => (n, t.document) :: documentFields fields

end

mutual

/-- The value of a tree: the tag first, then the fields, of which one named like the tag takes its
    place. -/
def toJson : Tree → Json
  | .seq items => .array (toItems items)
  | .node tag fields => .object (Record.putAll [(tagKey, .string tag)] (toMembers fields))
  | .leaf value => value

/-- The values of a list of trees. -/
def toItems : List Tree → List Json
  | [] => []
  | t :: items => t.toJson :: toItems items

/-- The values of a list of fields. -/
def toMembers : List (String × Tree) → List (String × Json)
  | [] => []
  | (n, t) :: fields => (n, t.toJson) :: toMembers fields

end

/-- The compact text of a tree. -/
def compact (t : Tree) : String := t.document.compact

/-- The pretty text of a tree. -/
def pretty (t : Tree) : String := t.document.pretty

end Tree

end TinyLang
