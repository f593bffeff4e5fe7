/-
  TinyLang.Proofs.Tree.Document — the two JSON forms of a tree.

  A tree goes out as a document, which is written, and as a value.  The two differ at a
  node with a field named like the tag: the document has both members, and in the value
  the field stands in the tag's place.  A reader merges members of one name, so what it
  finds in the document is the value:

      parse? t.compact = parse? t.pretty = some t.toJson

  A value that becomes a tree and comes back is the same tree again, and the same value up
  to the order of members unless a tag on the way was not a text:

      ofJson (ofJson v).toJson = ofJson v
      (ofJson v).toJson.same v = stringTagged v
-/

import TinyLang.Proofs.Json.Nesting
import TinyLang.Tree.Basic

namespace TinyLang

/-! ## §1. What a reader finds in a document -/

namespace Tree

mutual

/-- Whether the leaves of a tree hold no floats. The objects in a leaf have each name once; the
    names of a node's fields may be any. -/
def ExactLeaves : Tree → Prop
  | .seq items => ExactLeavesItems items
  | .node _ fields => ExactLeavesFields fields
  | .leaf v => v.Exact

/-- Whether the leaves of all trees of a list hold no floats. -/
def ExactLeavesItems : List Tree → Prop
  | [] => True
  | t :: items => t.ExactLeaves ∧ ExactLeavesItems items

/-- Whether the leaves of all fields hold no floats. -/
def ExactLeavesFields : List (String × Tree) → Prop
  | [] => True
  | (_, t) :: fields => t.ExactLeaves ∧ ExactLeavesFields fields

end

mutual

/-- The document of a tree holds no float if none of its leaves does. -/
theorem floatFree_document : ∀ t : Tree, t.ExactLeaves → t.document.FloatFree
  | .seq items, h => floatFree_documentItems items h
  | .node _ fields, h => ⟨trivial, floatFree_documentFields fields h⟩
  | .leaf _, h => Json.Exact.floatFree h

theorem floatFree_documentItems : ∀ items : List Tree, ExactLeavesItems items →
    Json.FloatFreeItems (documentItems items)
  | [], _ => trivial
  | t :: items, h => ⟨floatFree_document t h.1, floatFree_documentItems items h.2⟩

theorem floatFree_documentFields : ∀ fields : List (String × Tree), ExactLeavesFields fields →
    Json.FloatFreeMembers (documentFields fields)
  | [], _ => trivial
  | (_, t) :: fields, h => ⟨floatFree_document t h.1, floatFree_documentFields fields h.2⟩

end

mutual

/-- **The document with its members merged is the value.** -/
theorem merged_document : ∀ t : Tree, t.ExactLeaves → t.document.merged = t.toJson
  | .seq items, h => by
      rw [document, Json.merged, merged_documentItems items h, toJson]
  | .node tag fields, h => by
      have hfields := merged_documentFields fields h
      show Json.object (Record.ofMembers
        ((tagKey, .string tag) :: Json.mergedMembers (documentFields fields))) = _
      rw [hfields]
      -- merging puts the tag into the empty record, and then the fields behind it
      rfl
  | .leaf _, h => Json.Exact.merged_eq h

theorem merged_documentItems : ∀ items : List Tree, ExactLeavesItems items →
    Json.mergedItems (documentItems items) = toItems items
  | [], _ => rfl
  | t :: items, h => by
      rw [documentItems, Json.mergedItems, merged_document t h.1, merged_documentItems items h.2,
        toItems]

/-- The fields of a document, merged, are the members of the value of the tree. -/
theorem merged_documentFields : ∀ fields : List (String × Tree), ExactLeavesFields fields →
    Json.mergedMembers (documentFields fields) = toMembers fields
  | [], _ => rfl
  | (_, t) :: fields, h => by
      rw [documentFields, Json.mergedMembers, merged_document t h.1,
        merged_documentFields fields h.2, toMembers]

end

/-- The nesting of a written document is its depth. -/
theorem nesting_document {style : Json.Style} (hs : style.Blank) {t : Tree}
    (ht : t.ExactLeaves) : Json.nesting (t.document.write style 0) = t.document.depth := by
  have h : Json.nesting (t.document.write style 0 ++ "") = t.document.depth :=
    Json.nesting_write hs (floatFree_document t ht) rfl
  rwa [String.append_empty] at h

/-- The written document of a tree is read as the tree's value, in every style. -/
theorem parse?_document {style : Json.Style} (hs : style.Blank) {t : Tree} (ht : t.ExactLeaves)
    (hd : t.document.depth ≤ Json.maxDepth) :
    Json.parse? (t.document.write style 0) = some t.toJson := by
  have h : Json.parse? (t.document.write style 0 ++ "") = some t.document.merged :=
    Json.parse?_write_merged hs (floatFree_document t ht) hd rfl
  rwa [String.append_empty, merged_document t ht] at h

end Tree

/-! ## §2. Values with distinct names -/

namespace Json

mutual

/-- Whether no object of a value has a name twice, as none has that was read or built. -/
def Distinct : Json → Prop
  | .array items => DistinctItems items
  | .object members => (Record.names members).Nodup ∧ DistinctMembers members
  | _ => True

/-- Whether no object of a list of values has a name twice. -/
def DistinctItems : List Json → Prop
  | [] => True
  | v :: items => v.Distinct ∧ DistinctItems items

/-- Whether no object of a list of members has a name twice. -/
def DistinctMembers : List (String × Json) → Prop
  | [] => True
  | (_, v) :: members => v.Distinct ∧ DistinctMembers members

end

/-- A number that is read is finite, and so the same as itself. -/
theorem Number.same_self (n : Number) : n.same n = true := by
  cases n with
  | integer n => exact beq_self_eq_true n.value
  | float x =>
      -- a finite number is no NaN, the only word that differs from itself
      have hfinite : (x.value.exponentField == 2047) = false := by
        have h := x.finite
        rw [Binary64.isFinite, bne, Bool.not_eq_true'] at h
        exact h
      show x.value.same x.value = true
      rw [Binary64.same, Binary64.isNaN, hfinite, beq_self_eq_true]
      rfl

mutual

/-- A value with distinct names is the same as itself. -/
theorem same_self : ∀ v : Json, v.Distinct → v.same v = true
  | .null, _ => rfl
  | .bool b, _ => beq_self_eq_true b
  | .number n, _ => n.same_self
  | .string s, _ => beq_self_eq_true s
  | .array items, h => sameItems_self items h
  | .object members, h => by
      rw [same, beq_self_eq_true, Bool.true_and]
      apply sameMembers_self members h.2
      intro n v hmem
      exact Record.find?_of_mem h.1 hmem

theorem sameItems_self : ∀ items : List Json, DistinctItems items → sameItems items items = true
  | [], _ => rfl
  | v :: items, h => by
      rw [sameItems, same_self v h.1, sameItems_self items h.2]
      rfl

/-- Members are the same as those of a record in which each of them is found. -/
theorem sameMembers_self : ∀ (members : List (String × Json)) {all : List (String × Json)},
    DistinctMembers members → (∀ n v, (n, v) ∈ members → Record.find? n all = some v) →
      sameMembers members all = true
  | [], _, _, _ => rfl
  | (n, v) :: members, all, h, hall => by
      have hrest : ∀ m w, (m, w) ∈ members → Record.find? m all = some w := by
        intro m w hmem
        exact hall m w (List.mem_cons_of_mem _ hmem)
      rw [sameMembers, hall n v List.mem_cons_self]
      show (v.same v && sameMembers members all) = true
      rw [same_self v h.1, sameMembers_self members h.2 hrest]
      rfl

end

end Json

/-! ## §3. From a value to a tree and back -/

namespace Tree

/-- Members have the names of the fields they come from. -/
theorem names_toMembers (fields : List (String × Tree)) :
    Record.names (toMembers fields) = Record.names fields := by
  induction fields with
  | nil => rfl
  | cons f fields ih =>
      obtain ⟨n, t⟩ := f
      exact congrArg (n :: ·) ih

/-- The fields of a node are the members without the one for the tag. -/
theorem names_ofMembers (members : List (String × Json)) :
    Record.names (ofMembers members) = (Record.names members).filter (· != tagKey) := by
  induction members with
  | nil => rfl
  | cons m members ih =>
      obtain ⟨n, v⟩ := m
      show _ = (n :: Record.names members).filter (· != tagKey)
      rw [ofMembers]
      by_cases h : n = tagKey
      · rw [if_pos h, List.filter_cons_of_neg (by simpa using h)]
        exact ih
      · rw [if_neg h, List.filter_cons_of_pos (by simpa using h)]
        exact congrArg (n :: ·) ih

/-- A node whose names are distinct, the tag's among them, is an object as it stands. -/
theorem toJson_node {tag : String} {fields : List (String × Tree)}
    (h : (tagKey :: Record.names fields).Nodup) :
    (node tag fields).toJson = .object ((tagKey, .string tag) :: toMembers fields) := by
  have hnames : (Record.names ([(tagKey, Json.string tag)] ++ toMembers fields)).Nodup := by
    show (tagKey :: Record.names (toMembers fields)).Nodup
    rw [names_toMembers]
    exact h
  rw [toJson, Record.putAll_eq_append _ _ hnames]
  rfl

/-- The tag and the fields of a node have distinct names. -/
theorem nodup_ofMembers {members : List (String × Json)} (h : (Record.names members).Nodup) :
    (tagKey :: Record.names (ofMembers members)).Nodup := by
  rw [names_ofMembers, List.nodup_cons]
  exact ⟨by simp, h.filter _⟩

/-- An object that is a node, and back: the tag comes first, as a text. -/
theorem toJson_ofJson_object {members : List (String × Json)} {tag : Json}
    (h : (Record.names members).Nodup) (htag : Record.find? tagKey members = some tag) :
    (ofJson (.object members)).toJson =
      .object ((tagKey, .string (tagText tag)) :: toMembers (ofMembers members)) := by
  rw [ofJson, htag]
  exact toJson_node (nodup_ofMembers h)

mutual

/-- **A value that became a tree and came back becomes the same tree.** -/
theorem ofJson_toJson_ofJson : ∀ v : Json, v.Distinct → ofJson (ofJson v).toJson = ofJson v
  | .null, _ | .bool _, _ | .number _, _ | .string _, _ => rfl
  | .array items, h => by
      show Tree.seq (ofItems (toItems (ofItems items))) = Tree.seq (ofItems items)
      rw [ofItems_toItems items h]
  | .object members, h => by
      cases htag : Record.find? tagKey members with
      | none =>
          -- without a tag the object is a leaf, which is its own value
          rw [ofJson, htag]
          show ofJson (.object members) = _
          rw [ofJson, htag]
      | some tag =>
          have hfields : ofMembers (toMembers (ofMembers members)) = ofMembers members :=
            ofMembers_toMembers members h.2
          rw [toJson_ofJson_object h.1 htag, ofJson, Record.find?, if_pos rfl]
          show Tree.node (tagText tag) (ofMembers ((tagKey, .string (tagText tag)) ::
            toMembers (ofMembers members))) = _
          rw [ofMembers, if_pos rfl, hfields, ofJson, htag]

/-- Items go through a document and back unchanged. -/
theorem ofItems_toItems : ∀ items : List Json, Json.DistinctItems items →
    ofItems (toItems (ofItems items)) = ofItems items
  | [], _ => rfl
  | v :: items, h => by
      rw [ofItems, toItems, ofItems, ofJson_toJson_ofJson v h.1, ofItems_toItems items h.2]

theorem ofMembers_toMembers : ∀ members : List (String × Json), Json.DistinctMembers members →
    ofMembers (toMembers (ofMembers members)) = ofMembers members
  | [], _ => rfl
  | (n, v) :: members, h => by
      have hrest := ofMembers_toMembers members h.2
      by_cases hn : n = tagKey
      · rw [ofMembers, if_pos hn, hrest]
      · rw [ofMembers, if_neg hn, toMembers, ofMembers, if_neg hn, ofJson_toJson_ofJson v h.1,
          hrest]

end

/-! ## §4. What is lost on the way -/

/-- Whether a value is a text. -/
def isText : Json → Bool
  | .string _ => true
  | _ => false

mutual

/-- Whether the tags of a value are texts. Tags are looked for in arrays and in objects that have
    one; an object without a tag is not looked into. -/
def stringTagged : Json → Bool
  | .array items => stringTaggedItems items
  | .object members =>
    match Record.find? tagKey members with
    | some tag => isText tag && stringTaggedMembers members
    | none => true
  | _ => true

/-- Whether the tags of all values of a list are texts. -/
def stringTaggedItems : List Json → Bool
  | [] => true
  | v :: items => stringTagged v && stringTaggedItems items

/-- Whether the tags in all members but the tag are texts. -/
def stringTaggedMembers : List (String × Json) → Bool
  | [] => true
  | (n, v) :: members => (n == tagKey || stringTagged v) && stringTaggedMembers members

end

/-- The text of a tag is the tag if the tag is a text. -/
theorem same_tagText (tag : Json) : (Json.string (tagText tag)).same tag = isText tag := by
  cases tag with
  | string s => exact beq_self_eq_true s
  | _ => rfl

/-- One member of a tagged object becomes the tag, and all others become fields. -/
theorem length_ofMembers {members : List (String × Json)} {tag : Json}
    (h : (Record.names members).Nodup) (htag : Record.find? tagKey members = some tag) :
    (toMembers (ofMembers members)).length + 1 = members.length := by
  have herase : Record.names (toMembers (ofMembers members)) =
      (Record.names members).erase tagKey := by
    rw [names_toMembers, names_ofMembers, h.erase_eq_filter]
  have hmem : tagKey ∈ Record.names members := Record.mem_names_of_find? htag
  have hlength : (toMembers (ofMembers members)).length = members.length - 1 := by
    rw [← Record.length_names, herase, List.length_erase_of_mem hmem, Record.length_names]
  have hpos : 0 < members.length := by
    rw [← Record.length_names]
    exact List.length_pos_of_mem hmem
  omega

mutual

/-- **A value that became a tree and came back is the same exactly when its tags are texts.** -/
theorem same_toJson_ofJson : ∀ v : Json, v.Distinct →
    (ofJson v).toJson.same v = stringTagged v
  | .null, _ => rfl
  | .bool b, _ => beq_self_eq_true b
  | .number n, _ => n.same_self
  | .string s, _ => beq_self_eq_true s
  | .array items, h => by
      show Json.sameItems (toItems (ofItems items)) items = stringTaggedItems items
      exact sameItems_toItems items h
  | .object members, h => by
      cases htag : Record.find? tagKey members with
      | none =>
          rw [ofJson, htag, stringTagged, htag]
          exact Json.same_self (.object members) h
      | some tag =>
          -- the object has its tag beside the fields, so the two sides have as many members
          have hlength := length_ofMembers h.1 htag
          have hmembers := sameMembers_toMembers members h.2 (fun n v => Record.find?_of_mem h.1)
          rw [toJson_ofJson_object h.1 htag, Json.same, List.length_cons, hlength,
            beq_self_eq_true, Bool.true_and, Json.sameMembers, htag]
          show ((Json.string (tagText tag)).same tag && _) = _
          rw [same_tagText, hmembers, stringTagged, htag]

/-- Items come back the same if and only if all tags in them are strings. -/
theorem sameItems_toItems : ∀ items : List Json, Json.DistinctItems items →
    Json.sameItems (toItems (ofItems items)) items = stringTaggedItems items
  | [], _ => rfl
  | v :: items, h => by
      rw [ofItems, toItems, Json.sameItems, same_toJson_ofJson v h.1, sameItems_toItems items h.2,
        stringTaggedItems]

theorem sameMembers_toMembers : ∀ (members : List (String × Json)) {all : List (String × Json)},
    Json.DistinctMembers members → (∀ n v, (n, v) ∈ members → Record.find? n all = some v) →
      Json.sameMembers (toMembers (ofMembers members)) all = stringTaggedMembers members
  | [], _, _, _ => rfl
  | (n, v) :: members, all, h, hall => by
      have hrest := sameMembers_toMembers members h.2
        (fun m w hmem => hall m w (List.mem_cons_of_mem _ hmem))
      rw [stringTaggedMembers, ← hrest, ofMembers]
      by_cases hn : n = tagKey
      · rw [if_pos hn, beq_iff_eq.2 hn]
        rfl
      · rw [if_neg hn, beq_eq_false_iff_ne.2 hn, toMembers, Json.sameMembers,
          hall n v List.mem_cons_self, ← same_toJson_ofJson v h.1]
        rfl

end

/-! ## §5. The two forms agree -/

/-- **THE TWO JSON FORMS OF A TREE AGREE, AND DECODING IS STABLE**: a tree without floats whose text
    nests no deeper than the reader follows is read back, from its compact and from its pretty
    text, as its value with the members in their order; and a value becomes the same tree after it
    was a tree, and the same value up to the order of members exactly when its tags are texts. -/
theorem document_and_value_agree (t : Tree) (v : Json) (ht : t.ExactLeaves)
    (hnesting : Json.nesting t.compact ≤ 127) (hv : v.Distinct) :
    (Json.parse? t.compact = some t.toJson ∧ Json.parse? t.pretty = some t.toJson) ∧
      ofJson (ofJson v).toJson = ofJson v ∧
      ((ofJson v).toJson.same v = true ↔ stringTagged v = true) := by
  have hd : t.document.depth ≤ Json.maxDepth := by
    rw [← nesting_document Json.Style.compact_blank ht]
    exact hnesting
  refine ⟨⟨parse?_document Json.Style.compact_blank ht hd,
    parse?_document Json.Style.pretty_blank ht hd⟩, ofJson_toJson_ofJson v hv, ?_⟩
  rw [same_toJson_ofJson v hv]

/-- The two forms agree on a node with a field named like its tag and a leaf that looks like a
    node, and decoding is stable on an object whose tag stands last. -/
theorem document_and_value_agree_tagged : ∃ (t : Tree) (v : Json),
    t = .node "Literal" [("type", .leaf (.string "text")),
      ("value", .leaf (.object [("type", .null), ("list", .array [.ofNat 7, .bool true])]))] ∧
    v = .object [("body", .array [.object [("type", .string "Read")]]), ("type", .string "Block")] ∧
    t.ExactLeaves ∧ Json.nesting t.compact ≤ 127 ∧ v.Distinct ∧
    (Json.parse? t.compact = some t.toJson ∧ Json.parse? t.pretty = some t.toJson) ∧
    ofJson (ofJson v).toJson = ofJson v ∧
    ((ofJson v).toJson.same v = true ↔ stringTagged v = true) := by
  refine ⟨_, _, rfl, rfl, ?_⟩
  have ht : ExactLeaves (.node "Literal" [("type", .leaf (.string "text")),
      ("value", .leaf (.object [("type", .null), ("list", .array [.ofNat 7, .bool true])]))]) :=
    ⟨trivial, ⟨by decide, trivial, ⟨trivial, trivial, trivial⟩, trivial⟩, trivial⟩
  have hv : Json.Distinct (.object [("body", .array [.object [("type", .string "Read")]]),
      ("type", .string "Block")]) :=
    ⟨by decide, ⟨⟨by decide, trivial, trivial⟩, trivial⟩, trivial, trivial⟩
  have hnesting : Json.nesting (Tree.compact (.node "Literal" [("type", .leaf (.string "text")),
      ("value", .leaf (.object [("type", .null), ("list", .array [.ofNat 7, .bool true])]))])) ≤
        127 := by
    show Json.nesting (Json.write .compact 0 _) ≤ 127
    rw [nesting_document Json.Style.compact_blank ht]
    decide
  exact ⟨ht, hnesting, hv, document_and_value_agree _ _ ht hnesting hv⟩

end Tree

end TinyLang
