/-
  TinyLang.Proofs.Tree.Nodes — the nodes of a tree, from the leaves up.

  The nodes of a tree are listed in the order in which a walk meets them: fields in their
  order, items from left to right, and each node behind all that is in it.

      (node tag fields).nodes = nodes of the fields ++ [(tag, fields)]

  The OUTLINE of a tree is what can be seen of it without looking into a node: sequences and
  leaves as they are, and of a node its tag alone.
-/

import TinyLang.Lowering.Walk

namespace TinyLang.Tree

/-! ## §1. Nodes -/

mutual

/-- The nodes of a tree, each behind the nodes in its fields. Leaves hold none. -/
def nodes : Tree → List (String × List (String × Tree))
  | .seq items => nodesOfItems items
  | .node tag fields => nodesOfFields fields ++ [(tag, fields)]
  | .leaf _ => []

/-- The nodes of a list of trees. -/
def nodesOfItems : List Tree → List (String × List (String × Tree))
  | [] => []
  | t :: items => t.nodes ++ nodesOfItems items

/-- The nodes of a list of fields. -/
def nodesOfFields : List (String × Tree) → List (String × List (String × Tree))
  | [] => []
  | (_, t) :: fields => t.nodes ++ nodesOfFields fields

end

mutual

/-- No node is left out or listed twice. -/
theorem length_nodes : ∀ t : Tree, t.nodes.length = t.nodeCount
  | .seq items => length_nodesOfItems items
  | .node tag fields => by
      rw [nodes, List.length_append, length_nodesOfFields fields, nodeCount, List.length_singleton]
      omega
  | .leaf _ => rfl

/-- As many nodes are listed for items as are counted. -/
theorem length_nodesOfItems : ∀ items : List Tree,
    (nodesOfItems items).length = nodeCountItems items
  | [] => rfl
  | t :: items => by
      rw [nodesOfItems, List.length_append, length_nodes t, length_nodesOfItems items,
        nodeCountItems]

theorem length_nodesOfFields : ∀ fields : List (String × Tree),
    (nodesOfFields fields).length = nodeCountFields fields
  | [] => rfl
  | (_, t) :: fields => by
      rw [nodesOfFields, List.length_append, length_nodes t, length_nodesOfFields fields,
        nodeCountFields]

end

/-! ## §2. Outlines -/

mutual

/-- A tree with its outermost nodes replaced by their tags. -/
def outline : Tree → Walked String
  | .seq items => .seq (outlineItems items)
  | .node tag _ => .node tag
  | .leaf value => .leaf value

/-- The outlines of a list of trees. -/
def outlineItems : List Tree → List (Walked String)
  | [] => []
  | t :: items => t.outline :: outlineItems items

end

/-- The outlines of a list of fields. -/
def outlineFields (fields : List (String × Tree)) : List (String × Walked String) :=
  fields.map fun (name, t) => (name, t.outline)

end TinyLang.Tree
