/-
  TinyLang.Proofs.Lowering.Decoration — places are decoration.

  The place of a node is one more field of it, and nothing depends on that field.  A source
  text is parsed in the same way whether places are written down or not; and lowering gives
  the same, result or error, for a tree and for what is left of it without its NOTES, which
  are the fields for places that hold a leaf:

      (Tree.parse source true).map unlocated = Tree.parse source false
      t.undecorated.lower names              = t.lower names

  A walk goes through a note without a visit, and a rule asks for no field of that name, so
  on any tree, of a program or not, the first error stays the first.  A field for a place
  that holds nodes is walked like any other, and can fail; it is no note.
-/

import TinyLang.Lowering.Rules
import TinyLang.Proofs.Parsing.Locations

namespace TinyLang

/-! ## §1. Trees without notes -/

/-- Whether a tree is a leaf. -/
def Tree.isLeaf : Tree → Bool
  | .leaf _ => true
  | _ => false

/-- Whether a walked tree is a leaf. -/
def Walked.isLeaf {α : Type} : Walked α → Bool
  | .leaf _ => true
  | _ => false

namespace Tree

mutual

/-- A tree without its notes. -/
def undecorated : Tree → Tree
  | .seq items => .seq (undecoratedItems items)
  | .node tag fields => .node tag (undecoratedFields fields)
  | .leaf value => .leaf value

/-- The items of a sequence without their notes. -/
def undecoratedItems : List Tree → List Tree
  | [] => []
  | t :: items => t.undecorated :: undecoratedItems items

/-- The fields of a node without the notes among them and in them. -/
def undecoratedFields : List (String × Tree) → List (String × Tree)
  | [] => []
  | (name, t) :: fields =>
    if name = locationKey ∧ t.isLeaf then undecoratedFields fields
    else (name, t.undecorated) :: undecoratedFields fields

end

end Tree

/-- Walked fields without the notes among them. -/
def Walked.unnoted {α : Type} (fields : List (String × Walked α)) : List (String × Walked α) :=
  fields.filter fun field => ¬ (field.1 = Tree.locationKey ∧ field.2.isLeaf)

namespace Walked

variable {α : Type}

/-- A note is left out. -/
theorem unnoted_cons_note {name : String} {w : Walked α} (h : name = Tree.locationKey ∧ w.isLeaf)
    (fields : List (String × Walked α)) : unnoted ((name, w) :: fields) = unnoted fields := by
  unfold unnoted
  rw [List.filter_cons_of_neg (by simpa using h)]

/-- What is no note stays. -/
theorem unnoted_cons {name : String} {w : Walked α} (h : ¬ (name = Tree.locationKey ∧ w.isLeaf))
    (fields : List (String × Walked α)) :
    unnoted ((name, w) :: fields) = (name, w) :: unnoted fields :=
  List.filter_cons_of_pos (decide_eq_true h)

/-- Every other field is still found, with the value it had. -/
theorem find?_unnoted {name : String} (h : name ≠ Tree.locationKey)
    (fields : List (String × Walked α)) :
    Record.find? name (unnoted fields) = Record.find? name fields := by
  induction fields with
  | nil => rfl
  | cons field fields ih =>
      obtain ⟨n, w⟩ := field
      by_cases hnote : n = Tree.locationKey ∧ w.isLeaf
      · have hother : n ≠ name := fun heq => h (heq.symm.trans hnote.1)
        rw [unnoted_cons_note hnote, ih, Record.find?, if_neg hother]
      · rw [unnoted_cons hnote, Record.find?, Record.find?, ih]

end Walked

/-! ## §2. Walks -/

/-- Visits that do not look at notes. -/
def IgnoresNotes {m : Type → Type} {α : Type}
    (visit : String → List (String × Walked α) → m α) : Prop :=
  ∀ tag fields, visit tag (Walked.unnoted fields) = visit tag fields

namespace Tree

section Walk

variable {m : Type → Type} [Monad m] {α : Type}
  {visit : String → List (String × Walked α) → m α}

/-- Only a leaf is walked to a leaf, so what is no note stays none. -/
theorem unnoted_walk [LawfulMonad m] {name : String} {t : Tree}
    (h : ¬ (name = locationKey ∧ t.isLeaf)) (rest : m (List (String × Walked α))) :
    Walked.unnoted <$> (do
      let w ← t.walk visit
      let fields ← rest
      return (name, w) :: fields) = (do
      let w ← t.walk visit
      let fields ← rest
      return (name, w) :: Walked.unnoted fields) := by
  -- what comes out of the walk is a leaf exactly where a leaf went in
  cases t with
  | seq items =>
      have hseq : ∀ walked : List (Walked α),
          ¬ (name = locationKey ∧ (Walked.seq walked).isLeaf) :=
        fun _ hnote => absurd hnote.2 Bool.false_ne_true
      simp only [walk, bind_assoc, pure_bind, map_bind, map_pure, Walked.unnoted_cons (hseq _)]
  | node tag fields =>
      have hnode : ∀ result : α, ¬ (name = locationKey ∧ (Walked.node result).isLeaf) :=
        fun _ hnote => absurd hnote.2 Bool.false_ne_true
      simp only [walk, bind_assoc, pure_bind, map_bind, map_pure, Walked.unnoted_cons (hnode _)]
  | leaf value =>
      have hleaf : ¬ (name = locationKey ∧ (Walked.leaf value : Walked α).isLeaf) :=
        fun hnote => h ⟨hnote.1, rfl⟩
      simp only [walk, pure_bind, map_bind, map_pure, Walked.unnoted_cons hleaf]

mutual

/-- **A walk whose visits do not look at notes does not look at them either.** -/
theorem walk_undecorated [LawfulMonad m] (hvisit : IgnoresNotes visit) :
    ∀ t : Tree, t.undecorated.walk visit = t.walk visit
  | .seq items => by
      simp only [undecorated, walk]
      rw [walkItems_undecorated hvisit items]
  | .node tag fields => by
      -- the visit gets the walked fields without the notes, which is all it looks at
      simp only [undecorated, walk]
      rw [walkFields_undecorated hvisit fields]
      simp only [map_eq_pure_bind, bind_assoc, pure_bind, hvisit tag _]
  | .leaf _ => rfl

/-- Items are walked as they were, each without its notes. -/
theorem walkItems_undecorated [LawfulMonad m] (hvisit : IgnoresNotes visit) :
    ∀ items : List Tree, walkItems visit (undecoratedItems items) = walkItems visit items
  | [] => rfl
  | t :: items => by
      simp only [undecoratedItems, walkItems]
      rw [walk_undecorated hvisit t, walkItems_undecorated hvisit items]

/-- Walking fields without their notes gives the walked fields without theirs. -/
theorem walkFields_undecorated [LawfulMonad m] (hvisit : IgnoresNotes visit) :
    ∀ fields : List (String × Tree),
      walkFields visit (undecoratedFields fields) = Walked.unnoted <$> walkFields visit fields
  | [] => by
      simp only [undecoratedFields, walkFields, map_pure]
      rfl
  | (name, t) :: fields => by
      have ih := walkFields_undecorated hvisit fields
      by_cases hnote : name = locationKey ∧ t.isLeaf
      · -- a note is a leaf, so nothing is visited in it
        obtain ⟨rfl, hleaf⟩ := hnote
        cases t with
        | leaf value =>
            have hwalked : locationKey = locationKey ∧ (Walked.leaf value : Walked α).isLeaf :=
              ⟨rfl, rfl⟩
            simp only [undecoratedFields, hleaf, and_self, if_true, ih, walkFields, walk, pure_bind,
              map_bind, map_pure, Walked.unnoted_cons_note hwalked]
            exact map_eq_pure_bind _ _
        | seq items => exact absurd hleaf Bool.false_ne_true
        | node tag fields => exact absurd hleaf Bool.false_ne_true
      · -- anything else is walked, and what comes out of it is no note
        simp only [undecoratedFields, if_neg hnote, walkFields]
        rw [walk_undecorated hvisit t, ih, unnoted_walk hnote]
        simp only [map_eq_pure_bind, bind_assoc, pure_bind]

end

end Walk

end Tree

/-! ## §3. Rules -/

namespace Lowering

/-- The walked fields of two nodes of one form agree on all but the field for the place. -/
structure Agree (f g : Fields) : Prop where
  tag : f.tag = g.tag
  find : ∀ name, name ≠ Tree.locationKey → Record.find? name f.fields = Record.find? name g.fields

/-- Whatever is read from any other field is the same in both. -/
theorem Agree.read {f g : Fields} (h : Agree f g) (name : String)
    (hname : name ≠ Tree.locationKey) {α : Type} (r : Reading α) :
    f.read name r = g.read name r := by
  unfold Fields.read
  rw [h.find name hname, h.tag]

theorem Agree.readOr {f g : Fields} (h : Agree f g) (name : String)
    (hname : name ≠ Tree.locationKey) {α : Type} (r : Reading α) (default : α) :
    f.readOr name r default = g.readOr name r default := by
  unfold Fields.readOr
  rw [h.find name hname, h.read name hname]

/-- **No rule asks for the place of its node.** -/
theorem rule_agree (names : Naming) {tag : Tag} {as bs : List (String × Walked Target)}
    (h : Agree ⟨tag, as⟩ ⟨tag, bs⟩) : rule names ⟨tag, as⟩ = rule names ⟨tag, bs⟩ := by
  -- no rule reads the field of the location, which is all that two such records may differ in
  cases tag with
  | program =>
      simp only [rule, h.read "declarations" (by decide), h.read "body" (by decide)]
  | declaration =>
      simp only [rule, h.read "ids" (by decide), h.read "valueType" (by decide)]
  | block => simp only [rule, h.read "body" (by decide)]
  | identifier => simp only [rule, h.read "name" (by decide)]
  | literal => simp only [rule, h.read "value" (by decide)]
  | assignment =>
      simp only [rule, h.read "left" (by decide), h.read "right" (by decide)]
  | read => rfl
  | output => simp only [rule, h.read "value" (by decide)]
  | unary =>
      simp only [rule, h.read "operator" (by decide), h.read "argument" (by decide)]
  | binary =>
      simp only [rule, h.read "operator" (by decide), h.read "left" (by decide),
        h.read "right" (by decide)]
  | loop => simp only [rule, h.read "test" (by decide), h.read "body" (by decide)]
  | conditional =>
      simp only [rule, h.read "test" (by decide), h.readOr "consequent" (by decide),
        h.readOr "alternate" (by decide)]

/-- Lowering looks at no note, in a node of any tag. -/
theorem ignoresNotes_lowerNode (names : Naming) : IgnoresNotes (lowerNode names) := by
  intro tag fields
  unfold lowerNode
  cases Tag.ofName? tag with
  | none => rfl
  | some form => exact rule_agree names ⟨rfl, fun _ hname => Walked.find?_unnoted hname fields⟩

end Lowering

/-- Lowering gives the same result, or the same error, without notes. -/
theorem Tree.lower_undecorated (names : Naming) (t : Tree) :
    t.undecorated.lower names = t.lower names := by
  unfold Tree.lower
  rw [Tree.walk_undecorated (Lowering.ignoresNotes_lowerNode names) t]

theorem Tree.lowerProgram_undecorated (names : Naming) (t : Tree) :
    t.undecorated.lowerProgram names = t.lowerProgram names := by
  unfold Tree.lowerProgram
  rw [Tree.lower_undecorated]

/-! ## §4. Source texts -/

namespace Tree

/-- The tree with places is the tree without them once they are removed, and an error does not
    depend on whether they are written down. -/
theorem map_unlocated_parse (source : String) :
    (Tree.parse source true).map unlocated = Tree.parse source false := by
  unfold Tree.parse
  cases Program.parse source with
  | error e => rfl
  | ok p =>
      have hplaces : (p.toTree placed).unlocated = p.toTree noMark := by
        rw [Program.unlocated_toTree, Program.toTree_bare]
      exact congrArg Except.ok hplaces

/-- Every node of a tree with places has one. -/
theorem hasPlace_of_parse {source : String} {t : Tree} (h : Tree.parse source true = .ok t)
    {tag : String} {fields : List (String × Tree)} (hnode : (tag, fields) ∈ t.nodes) :
    ∃ place, (Tree.node tag fields).HasPlace place := by
  obtain ⟨p, hp, rfl⟩ := Tree.parse_eq_ok h
  have hspans := Program.parse_spans hp
  obtain ⟨form, place, -, hdelimited⟩ :=
    (Program.Spans.part hspans.proper hspans).delimited tag fields hnode
  exact ⟨place, hdelimited.noted⟩

/-- **PLACES ARE DECORATION.**  A source text is refused with the same error, or has the same tree,
    with places and without, where every node with places has one; and lowering any tree, to a
    target or to a script, gives the same result or the same error without its notes. -/
theorem places_are_decoration :
    (∀ source, (Tree.parse source true).map unlocated = Tree.parse source false ∧
      ∀ t, Tree.parse source true = .ok t → ∀ tag fields, (tag, fields) ∈ t.nodes →
        ∃ place, (Tree.node tag fields).HasPlace place) ∧
    (∀ (names : Naming) (t : Tree), t.undecorated.lower names = t.lower names ∧
      t.undecorated.lowerProgram names = t.lowerProgram names) := by
  constructor
  · intro source
    exact ⟨map_unlocated_parse source, fun t ht tag fields hnode => hasPlace_of_parse ht hnode⟩
  · intro names t
    exact ⟨lower_undecorated names t, lowerProgram_undecorated names t⟩

/-- A sum in parentheses, which is given its place anew when the product around it grows. -/
theorem places_are_decoration_product : ∃ t,
    Tree.parse "integer a; \x7b a = (1 + a) * 2 * -a; \x7d" true = .ok t ∧ t.nodes.length = 14 ∧
      (∀ tag fields, (tag, fields) ∈ t.nodes → ∃ place, (Tree.node tag fields).HasPlace place) ∧
      Tree.parse "integer a; \x7b a = (1 + a) * 2 * -a; \x7d" false = .ok t.unlocated ∧
      ∀ names : Naming, t.undecorated.lowerProgram names = t.lowerProgram names := by
  have hcount : (Tree.parse "integer a; \x7b a = (1 + a) * 2 * -a; \x7d" true).toOption.map
      (fun t => t.nodes.length) = some 14 := by rfl
  obtain ⟨hplain, hplaces⟩ := places_are_decoration.1 "integer a; \x7b a = (1 + a) * 2 * -a; \x7d"
  cases ht : Tree.parse "integer a; \x7b a = (1 + a) * 2 * -a; \x7d" true with
  | error e =>
      rw [ht] at hcount
      exact absurd hcount (by simp [Except.toOption])
  | ok t =>
      rw [ht] at hcount hplain
      exact ⟨t, rfl, Option.some.inj hcount, hplaces t ht, hplain.symm,
        fun names => (places_are_decoration.2 names t).2⟩

end Tree

end TinyLang
