/-
  TinyLang.Lowering.Walk — a walk over a syntax tree from the leaves up.

  Each node is visited once its fields have been walked, fields in their order and items
  from left to right.  What a walk gives has the shape of the tree, with the results of
  the visits in place of the nodes.  Visits run in a monad, so they may keep a state and
  may stop the walk.
-/

import TinyLang.Tree.Basic

namespace TinyLang

/-- A tree whose nodes have been replaced by results. -/
inductive Walked (α : Type) where
  | seq (items : List (Walked α))
  | node (result : α)
  | leaf (value : Json)

namespace Walked

variable {α : Type}

/-- The result at the root. -/
def node? : Walked α → Option α
  | .node result => some result
  | _ => none

/-- What a walked tree is called in a message. -/
def shapeName : Walked α → String
  | .seq _ => "sequence"
  | .node _ => "node"
  | .leaf _ => "leaf"

end Walked

namespace Tree

variable {m : Type → Type} [Monad m] {α : Type}

mutual

/-- Walks a tree. -/
def walk (visit : String → List (String × Walked α) → m α) : Tree → m (Walked α)
  | .seq items => do
    let items ← walkItems visit items
    return .seq items
  | .node tag fields => do
    let fields ← walkFields visit fields
    let result ← visit tag fields
    return .node result
  | .leaf value => pure (.leaf value)

/-- Walks a list of trees, from left to right. -/
def walkItems (visit : String → List (String × Walked α) → m α) :
    List Tree → m (List (Walked α))
  | [] => pure []
  | t :: items => do
    let t ← t.walk visit
    let items ← walkItems visit items
    return t :: items

/-- Walks a list of fields, in their order. -/
def walkFields (visit : String → List (String × Walked α) → m α) :
    List (String × Tree) → m (List (String × Walked α))
  | [] => pure []
  | (name, t) :: fields => do
    let t ← t.walk visit
    let fields ← walkFields visit fields
    return (name, t) :: fields

end

end Tree

end TinyLang
