/-
  TinyLang.Proofs.Parsing.Locations — the place of a node delimits the node's own text.

  The slice of the source text in the place of a node, put alone where such a node can
  stand, parses to that node again:

      { output SLICE; }     an expression
      { SLICE }             a statement
      SLICE {}              a declaration
      SLICE                 the program

  The node spans its tokens (`Program.Spans`), the slice holds these tokens and no others,
  and the parser reads what the grammar derives from them.  The place of a node lies within
  that of the node around it, and the items of a sequence stand one behind the other.
-/

import TinyLang.Proofs.Lexing.Slices
import TinyLang.Proofs.Parsing.Complete
import TinyLang.Proofs.Tree.Nodes

namespace TinyLang

/-! ## §1. Places in trees -/

namespace Tree

/-- A node has a place written down on it. -/
def HasPlace (t : Tree) (place : Location) : Prop :=
  t.field? locationKey = some (.leaf place.toJson)

mutual

/-- A tree without the field for places, on every node. -/
def unlocated : Tree → Tree
  | .seq items => .seq (unlocatedItems items)
  | .node tag fields => .node tag (unlocatedFields fields)
  | .leaf value => .leaf value

/-- The items of a sequence without places. -/
def unlocatedItems : List Tree → List Tree
  | [] => []
  | t :: items => t.unlocated :: unlocatedItems items

/-- The fields of a node without the one for its place, and their nodes without places. -/
def unlocatedFields : List (String × Tree) → List (String × Tree)
  | [] => []
  | (name, t) :: fields =>
    if name = locationKey then unlocatedFields fields
    else (name, t.unlocated) :: unlocatedFields fields

end

mutual

/-- The outermost nodes of a tree. -/
def outermost : Tree → List Tree
  | .seq items => outermostOfItems items
  | .node tag fields => [.node tag fields]
  | .leaf _ => []

/-- The outermost nodes of a list of trees. -/
def outermostOfItems : List Tree → List Tree
  | [] => []
  | t :: items => t.outermost ++ outermostOfItems items

end

/-- The nodes that stand in the fields of a node, with no other node between. -/
def children (t : Tree) : List Tree := t.fields.flatMap fun field => field.2.outermost

end Tree

/-- A slice of a source text, put alone where a node of a form can stand. -/
def Tag.context (form : Tag) (slice : String) : String :=
  match form with
  | .program => slice
  | .declaration => slice ++ " \x7b\x7d"
  | .block | .assignment | .output | .loop | .conditional => "\x7b " ++ slice ++ " \x7d"
  | .identifier | .literal | .read | .unary | .binary => "\x7b output " ++ slice ++ "; \x7d"

/-- The tree of a program in which a node of a form stands alone. -/
def Tag.inContext (form : Tag) (t : Tree) : Tree :=
  match form with
  | .program => t
  | .declaration => Tree.program [t] (Tree.block [])
  | .block | .assignment | .output | .loop | .conditional => Tree.program [] (Tree.block [t])
  | .identifier | .literal | .read | .unary | .binary =>
    Tree.program [] (Tree.block [Tree.output t])

/-- A node of a form whose place delimits it in a source text. -/
structure Tree.Delimited (source : String) (form : Tag) (place : Location) (t : Tree) : Prop where
  /-- The place is the one written down on the node. -/
  noted : t.HasPlace place
  /-- The slice in the place, read alone, is the node again. -/
  reread : ∃ slice, place.slice? source = some slice ∧
    Tree.parse (form.context slice) false = .ok (form.inContext t.unlocated)
  /-- The places of the nodes in it lie within its own. -/
  nested : ∀ child ∈ t.children, ∃ inner, child.HasPlace inner ∧ place.Contains inner
  /-- The items of its sequences stand one behind the other. -/
  ordered : ∀ field ∈ t.fields, ∀ items, field.2 = .seq items →
    items.Pairwise fun t u => ∃ p q, t.HasPlace p ∧ u.HasPlace q ∧ p.Precedes q

/-! ## §2. Slices in their context -/

section Context

open Lexer (Yields Stops)

variable {text : List Char} {ws : List Lexeme}

/-- The lexemes of a text in a context. -/
theorem lexemes_around (before behind : String) (text : List Char) :
    lexemes (before ++ String.ofList text ++ behind) =
      Lexer.lexed (before.toList ++ (text ++ behind.toList)) := by
  have hofList : (String.ofList text).toList = text := String.toList_ofList
  rw [lexemes_eq_lexed, String.toList_append, String.toList_append, hofList, List.append_assoc]

theorem lexed_openBlock (rest : List Char) :
    Lexer.lexed ('{' :: ' ' :: rest) = ⟨.symbol .leftBrace, "\x7b"⟩ :: Lexer.lexed rest := by
  rw [Lexer.lexed_mark (s := .leftBrace) rfl (by decide), Lexer.lexed_blank (by decide)]
  rfl

/-- An expression alone, as the value of an output. -/
theorem parse_expression_alone (h : Yields Stops text ws) {e : Expr Unit}
    (he : Grammar.Expression ws e) :
    Tree.parse ("\x7b output " ++ String.ofList text ++ "; \x7d") false =
      .ok (Tree.program [] (Tree.block [Tree.output (e.toTree noMark)])) := by
  have hword : ∀ rest, Lexer.lexed ("output".toList ++ ' ' :: rest)
      = ⟨.keyword .outputKw, "output"⟩ :: Lexer.lexed (' ' :: rest) :=
    fun rest => Lexer.lexed_word rfl rfl rfl
  -- the text goes between tokens that it cannot join, so its lexemes stay as they are
  have hlex : lexemes ("\x7b output " ++ String.ofList text ++ "; \x7d") =
      ⟨.symbol .leftBrace, "\x7b"⟩ :: ((⟨.keyword .outputKw, "output"⟩ :: ws ++
        [⟨.symbol .semicolon, ";"⟩]) ++ []) ++ [⟨.symbol .rightBrace, "\x7d"⟩] := by
    rw [lexemes_around]
    show Lexer.lexed ('{' :: ' ' :: ("output".toList ++ ' ' :: (text ++ [';', ' ', '}']))) = _
    rw [lexed_openBlock, hword, Lexer.lexed_blank (by decide), h [';', ' ', '}'] rfl]
    simp only [List.append_nil, List.cons_append, List.append_assoc]
    rfl
  refine Tree.parse_complete (p := ⟨(), [], .block () [.output () e]⟩) ?_
  rw [hlex]
  exact .of_block (.braces (.cons (.output he) .nil))

/-- A statement alone in a block. -/
theorem parse_statement_alone (h : Yields Stops text ws) {isOpen : Bool} {s : Stmt Unit}
    (hs : Grammar.Statement isOpen ws s) :
    Tree.parse ("\x7b " ++ String.ofList text ++ " \x7d") false =
      .ok (Tree.program [] (Tree.block [s.toTree noMark])) := by
  have hlex : lexemes ("\x7b " ++ String.ofList text ++ " \x7d") =
      ⟨.symbol .leftBrace, "\x7b"⟩ :: (ws ++ []) ++ [⟨.symbol .rightBrace, "\x7d"⟩] := by
    rw [lexemes_around]
    show Lexer.lexed ('{' :: ' ' :: (text ++ [' ', '}'])) = _
    rw [lexed_openBlock, h [' ', '}'] rfl, List.append_nil]
    rfl
  refine Tree.parse_complete (p := ⟨(), [], .block () [s]⟩) ?_
  rw [hlex]
  exact .of_block (.braces (.cons hs .nil))

/-- A declaration alone, in front of an empty block. -/
theorem parse_declaration_alone (h : Yields Stops text ws) {d : Declaration Unit}
    (hd : Grammar.Declaration ws d) :
    Tree.parse (String.ofList text ++ " \x7b\x7d") false =
      .ok (Tree.program [d.toTree noMark] (Tree.block [])) := by
  have hlex : lexemes (String.ofList text ++ " \x7b\x7d") =
      (ws ++ []) ++ (⟨.symbol .leftBrace, "\x7b"⟩ :: [] ++ [⟨.symbol .rightBrace, "\x7d"⟩]) := by
    have haround := lexemes_around "" " \x7b\x7d" text
    rw [String.empty_append] at haround
    rw [haround]
    show Lexer.lexed (text ++ [' ', '{', '}']) = _
    rw [h [' ', '{', '}'] rfl, List.append_nil]
    rfl
  refine Tree.parse_complete (p := ⟨(), [d], .block () []⟩) ?_
  rw [hlex]
  exact .mk (.cons hd .nil) (.braces .nil)

/-- The text of a program needs no context. -/
theorem parse_program_alone (h : Yields Stops text ws) {p : Program Unit}
    (hp : Grammar.Program ws p) :
    Tree.parse (String.ofList text) false = .ok (p.toTree noMark) := by
  refine Tree.parse_complete ?_
  rw [lexemes_eq_lexed, String.toList_ofList, h.lexed rfl]
  exact hp

end Context

/-! ## §3. Trees without places -/

/-- Writes the place of a node down. -/
def placed (l : Location) : Option Json := some l.toJson

/-- Removing the places of an expression's tree leaves its tree without marks. -/
theorem Expr.unlocated_toTree (e : Expr Location) :
    (e.toTree placed).unlocated = e.bare.toTree noMark := by
  induction e with
  | name x => rfl
  | literal note value => rfl
  | read note => rfl
  | unary note op e ih =>
      show Tree.unary op (e.toTree placed).unlocated = _
      rw [ih]
      rfl
  | binary note op e f ihe ihf =>
      show Tree.binary op (e.toTree placed).unlocated (f.toTree placed).unlocated = _
      rw [ihe, ihf]
      rfl

mutual

/-- Removing the places of a statement's tree leaves its tree without marks. -/
theorem Stmt.unlocated_toTree : ∀ s : Stmt Location,
    (s.toTree placed).unlocated = s.bare.toTree noMark
  | .block _ body => by
      show Tree.block (Tree.unlocatedItems (Stmt.toTrees placed body)) = _
      rw [Stmt.unlocated_toTrees body]
      rfl
  | .assign _ x e => by
      show Tree.assignment (x.toTree placed).unlocated (e.toTree placed).unlocated = _
      rw [Expr.unlocated_toTree e]
      rfl
  | .output _ e => by
      show Tree.output (e.toTree placed).unlocated = _
      rw [Expr.unlocated_toTree e]
      rfl
  | .loop _ e s => by
      show Tree.loop (e.toTree placed).unlocated (s.toTree placed).unlocated = _
      rw [Expr.unlocated_toTree e, Stmt.unlocated_toTree s]
      rfl
  | .choice _ e s t => by
      show Tree.ofTag .conditional [("test", (e.toTree placed).unlocated),
        ("consequent", ((Stmt.toTree? placed s).getD Tree.null).unlocated),
        ("alternate", ((Stmt.toTree? placed t).getD Tree.null).unlocated)] = _
      rw [Expr.unlocated_toTree e, Stmt.unlocated_toTree? s, Stmt.unlocated_toTree? t]
      rfl

theorem Stmt.unlocated_toTrees : ∀ body : List (Stmt Location),
    Tree.unlocatedItems (Stmt.toTrees placed body) = Stmt.toTrees noMark (Stmt.bares body)
  | [] => rfl
  | s :: body => by
      rw [Stmt.toTrees, Tree.unlocatedItems, Stmt.unlocated_toTree s, Stmt.unlocated_toTrees body]
      rfl

theorem Stmt.unlocated_toTree? : ∀ s : Option (Stmt Location),
    ((Stmt.toTree? placed s).getD Tree.null).unlocated =
      (Stmt.toTree? noMark (Stmt.bare? s)).getD Tree.null
  | none => rfl
  | some s => Stmt.unlocated_toTree s

end

theorem unlocatedItems_map {β : Type} (f : β → Tree) (xs : List β) :
    Tree.unlocatedItems (xs.map f) = xs.map fun x => (f x).unlocated := by
  induction xs with
  | nil => rfl
  | cons x xs ih =>
      rw [List.map_cons, Tree.unlocatedItems, ih]
      rfl

theorem Declaration.unlocated_toTree (d : Declaration Location) :
    (d.toTree placed).unlocated = d.bare.toTree noMark := by
  show Tree.declaration (Tree.unlocatedItems (d.names.map (·.toTree placed))) d.type = _
  rw [unlocatedItems_map]
  unfold Declaration.toTree Declaration.bare Declaration.names
  simp only [List.map_cons, List.map_map]
  rfl

/-- Removing the places of a program's tree leaves its tree without marks. -/
theorem Program.unlocated_toTree (p : Program Location) :
    (p.toTree placed).unlocated = p.bare.toTree noMark := by
  show Tree.program (Tree.unlocatedItems (p.declarations.map (·.toTree placed)))
    (p.body.toTree placed).unlocated = _
  rw [unlocatedItems_map, Stmt.unlocated_toTree]
  simp only [Declaration.unlocated_toTree]
  unfold Program.toTree Program.bare
  simp only [List.map_map]
  rfl

/-! ## §4. Nodes around their parts -/

/-- Every node of a tree is delimited by its place. -/
def Tree.AllDelimited (source : String) (t : Tree) : Prop :=
  ∀ tag fields, (tag, fields) ∈ t.nodes →
    ∃ form place, tag = Tag.name form ∧ (Tree.node tag fields).Delimited source form place

/-- What stands in a field of a node that spans the tokens `ts`: its nodes are delimited, their
    places are within the range of these tokens, and if it is a sequence its items are in order. -/
structure Part (source : String) (ts : List Token) (t : Tree) : Prop where
  delimited : t.AllDelimited source
  nested : ∀ child ∈ t.outermost, ∃ inner, child.HasPlace inner ∧ (Token.span ts).Contains inner
  ordered : ∀ items, t = .seq items →
    items.Pairwise fun t u => ∃ p q, t.HasPlace p ∧ u.HasPlace q ∧ p.Precedes q

section Parts

variable {source : String} {ts : List Token}

theorem part_leaf (value : Json) : Part source ts (.leaf value) where
  delimited := fun _ _ h => absurd h (by simp [Tree.nodes])
  nested := fun _ h => absurd h (by simp [Tree.outermost])
  ordered := fun _ h => absurd h (by simp)

theorem mem_nodesOfItems {node : String × List (String × Tree)} {items : List Tree} :
    node ∈ Tree.nodesOfItems items ↔ ∃ t ∈ items, node ∈ t.nodes := by
  induction items with
  | nil => simp [Tree.nodesOfItems]
  | cons t items ih => simp [Tree.nodesOfItems, ih]

theorem mem_nodesOfFields {node : String × List (String × Tree)} {fields : List (String × Tree)} :
    node ∈ Tree.nodesOfFields fields ↔ ∃ field ∈ fields, node ∈ field.2.nodes := by
  induction fields with
  | nil => simp [Tree.nodesOfFields]
  | cons field fields ih =>
      obtain ⟨name, t⟩ := field
      simp [Tree.nodesOfFields, ih]

theorem mem_outermostOfItems {t : Tree} {items : List Tree} :
    t ∈ Tree.outermostOfItems items ↔ ∃ item ∈ items, t ∈ item.outermost := by
  induction items with
  | nil => simp [Tree.outermostOfItems]
  | cons item items ih => simp [Tree.outermostOfItems, ih]

/-- A sequence is a part if its items are, and stand in order. -/
theorem part_seq {items : List Tree} (hitems : ∀ t ∈ items, Part source ts t)
    (hordered : items.Pairwise fun t u => ∃ p q, t.HasPlace p ∧ u.HasPlace q ∧ p.Precedes q) :
    Part source ts (.seq items) where
  -- the nodes of a list are those of its items
  delimited := by
    intro tag fields h
    obtain ⟨t, ht, hnode⟩ := mem_nodesOfItems.1 h
    exact (hitems t ht).delimited tag fields hnode
  nested := by
    intro child h
    obtain ⟨t, ht, hchild⟩ := mem_outermostOfItems.1 h
    exact (hitems t ht).nested child hchild
  ordered := by
    intro items' h
    injection h with h
    rw [← h]
    exact hordered

theorem parts_nil : ∀ field ∈ ([] : List (String × Tree)), Part source ts field.2 :=
  fun _ h => absurd h (by simp)

theorem parts_cons {name : String} {t : Tree} {fields : List (String × Tree)}
    (ht : Part source ts t) (hfields : ∀ field ∈ fields, Part source ts field.2) :
    ∀ field ∈ (name, t) :: fields, Part source ts field.2 :=
  List.forall_mem_cons.2 ⟨ht, hfields⟩

/-- **One node around its parts**: all that is to be shown of it is that its slice is read as the
    node again. -/
theorem part_node {form : Tag} {fields : List (String × Tree)} {place : Location} {es : List Token}
    (hordered : Token.Ordered ts) (hes : es <:+: ts) (hmarks : Marks place es)
    (hplace : (Tree.node form.name fields).HasPlace place)
    (hreread : ∃ slice, place.slice? source = some slice ∧ Tree.parse (form.context slice) false =
      .ok (form.inContext (Tree.node form.name fields).unlocated))
    (hfields : ∀ field ∈ fields, Part source es field.2) :
    Part source ts (.node form.name fields) where
  delimited := by
    intro tag fields' h
    -- the nodes of its fields come first, and then the node itself
    rcases List.mem_append.1 h with h | h
    · obtain ⟨field, hfield, hnode⟩ := mem_nodesOfFields.1 h
      exact (hfields field hfield).delimited tag fields' hnode
    · obtain ⟨rfl, rfl⟩ := Prod.mk.inj (List.mem_singleton.1 h)
      refine ⟨form, place, rfl, hplace, hreread, ?_, ?_⟩
      · intro child hchild
        obtain ⟨field, hfield, hchild⟩ := List.mem_flatMap.1 hchild
        rw [hmarks.range]
        exact (hfields field hfield).nested child hchild
      · intro field hfield items hitems
        exact (hfields field hfield).ordered items hitems
  nested := by
    intro child hchild
    rw [Tree.outermost, List.mem_singleton] at hchild
    subst hchild
    refine ⟨place, hplace, ?_⟩
    rw [hmarks.range]
    exact hordered.contains_span hes.subset hmarks.nonempty
  ordered := fun _ h => absurd h (by simp)

/-- Things in the order of their tokens have places in that order. -/
theorem InOrder.pairwise {β : Type} {Spans : β → List Token → Prop} (note : β → Location)
    (hmarks : ∀ x own, Spans x own → Marks (note x) own) :
    ∀ {xs : List β} {ts : List Token}, InOrder Spans xs ts → Token.Ordered ts →
      (∀ x ∈ xs, ∃ own, own <:+: ts ∧ Spans x own) ∧
        xs.Pairwise fun x y => (note x).Precedes (note y) := by
  intro xs
  induction xs with
  | nil => exact fun _ _ => ⟨fun _ h => absurd h (by simp), .nil⟩
  | cons x xs ih =>
      -- the tokens of the first thing stand in front of all tokens of the others
      rintro ts ⟨us, vs, rfl, ⟨own, hown, hspans⟩, hrest⟩ hordered
      obtain ⟨hall, hpairwise⟩ := ih hrest (hordered.sublist (List.sublist_append_right us vs))
      refine ⟨?_, List.pairwise_cons.2 ⟨?_, hpairwise⟩⟩
      · intro y hy
        rcases List.mem_cons.1 hy with rfl | hy
        · exact ⟨own, hown.trans (List.prefix_append us vs).isInfix, hspans⟩
        · obtain ⟨own', hown', hspans'⟩ := hall y hy
          exact ⟨own', hown'.trans (List.suffix_append us vs).isInfix, hspans'⟩
      · intro y hy
        obtain ⟨own', hown', hspans'⟩ := hall y hy
        have hx := hmarks x own hspans
        have hy := hmarks y own' hspans'
        rw [hx.range, hy.range]
        exact hordered.precedes_span rfl hown.subset hown'.subset hx.nonempty hy.nonempty

/-- Statements that span their tokens one behind the other stand in order. -/
theorem Stmt.SpansAll.inOrder : ∀ {body : List (Stmt Location)} {ts : List Token},
    Stmt.SpansAll body ts → InOrder Stmt.Spans body ts
  | [], _, _ => trivial
  | _ :: _, _, ⟨us, vs, hts, hspans, hrest⟩ =>
      ⟨us, vs, hts, ⟨us, List.infix_rfl, hspans⟩, hrest.inOrder⟩

end Parts

/-! ## §5. Every node of a program -/

/-- The form of an expression. -/
def Expr.form {α : Type} : Expr α → Tag
  | .name _ => .identifier
  | .literal .. => .literal
  | .read _ => .read
  | .unary .. => .unary
  | .binary .. => .binary

/-- The form of a statement. -/
def Stmt.form {α : Type} : Stmt α → Tag
  | .block .. => .block
  | .assign .. => .assignment
  | .output .. => .output
  | .loop .. => .loop
  | .choice .. => .conditional

section Nodes

variable {source : String}
  (hproper : ∀ t ∈ (Lexed.ofSource source).tokens, t.kind ≠ .openComment)

include hproper

/-- **The text at the place of an expression is that expression**: it is read again as the same
    tree. -/
theorem Expr.Owns.reread {e : Expr Location} {ts : List Token} (h : e.Owns ts)
    (hts : ts <:+: (Lexed.ofSource source).tokens) :
    ∃ slice, e.note.slice? source = some slice ∧
      Tree.parse (e.form.context slice) false =
        .ok (e.form.inContext (e.toTree placed).unlocated) := by
  obtain ⟨hmarks, hexpr⟩ := h
  obtain ⟨text, hslice, hholds⟩ := slice?_span hproper hts hmarks.nonempty
  refine ⟨String.ofList text, by rw [hmarks.range]; exact hslice, ?_⟩
  rw [Expr.unlocated_toTree]
  have hparse := parse_expression_alone hholds hexpr
  cases e <;> exact hparse

/-- **The text at the place of a statement is that statement.** -/
theorem Stmt.Owns.reread {s : Stmt Location} {ts : List Token} (h : s.Owns ts)
    (hts : ts <:+: (Lexed.ofSource source).tokens) :
    ∃ slice, s.note.slice? source = some slice ∧
      Tree.parse (s.form.context slice) false =
        .ok (s.form.inContext (s.toTree placed).unlocated) := by
  obtain ⟨hmarks, isOpen, hstmt⟩ := h
  obtain ⟨text, hslice, hholds⟩ := slice?_span hproper hts hmarks.nonempty
  refine ⟨String.ofList text, by rw [hmarks.range]; exact hslice, ?_⟩
  rw [Stmt.unlocated_toTree]
  have hparse := parse_statement_alone hholds hstmt
  cases s <;> exact hparse

/-- The nodes of an expression, one case for each form. -/
theorem Expr.Spans.part : ∀ {e : Expr Location} {es ts : List Token}, e.Spans es → es <:+: ts →
    ts <:+: (Lexed.ofSource source).tokens → Part source ts (e.toTree placed) := by
  intro e
  induction e with
  | name x =>
      intro es ts h hes hts
      exact part_node ((Lexed.ordered source).sublist hts.sublist) hes h.1 rfl
        (Expr.Owns.reread hproper h (hes.trans hts))
        (parts_cons (part_leaf _) (parts_cons (part_leaf _) parts_nil))
  | literal note value =>
      intro es ts h hes hts
      exact part_node ((Lexed.ordered source).sublist hts.sublist) hes h.1 rfl
        (Expr.Owns.reread hproper h (hes.trans hts))
        (parts_cons (part_leaf _) (parts_cons (part_leaf _) parts_nil))
  | read note =>
      intro es ts h hes hts
      exact part_node ((Lexed.ordered source).sublist hts.sublist) hes h.1 rfl
        (Expr.Owns.reread hproper h (hes.trans hts)) (parts_cons (part_leaf _) parts_nil)
  | unary note op e ih =>
      rintro es ts ⟨h, fs, hfs, hspans⟩ hes hts
      have hall := hes.trans hts
      exact part_node ((Lexed.ordered source).sublist hts.sublist) hes h.1 rfl
        (Expr.Owns.reread hproper h hall)
        (parts_cons (part_leaf _) (parts_cons (ih hspans hfs hall)
          (parts_cons (part_leaf _) parts_nil)))
  | binary note op e f ihe ihf =>
      rintro es ts ⟨h, ⟨us, hus, hleft⟩, vs, hvs, hright⟩ hes hts
      have hall := hes.trans hts
      exact part_node ((Lexed.ordered source).sublist hts.sublist) hes h.1 rfl
        (Expr.Owns.reread hproper h hall)
        (parts_cons (part_leaf _) (parts_cons (ihe hleft hus hall)
          (parts_cons (ihf hright hvs hall) (parts_cons (part_leaf _) parts_nil))))

/-- An expression that has its tokens among others is a part of what spans these. -/
theorem Expr.Within.part {e : Expr Location} {ts : List Token} (h : e.Within ts)
    (hts : ts <:+: (Lexed.ofSource source).tokens) : Part source ts (e.toTree placed) := by
  obtain ⟨es, hes, hspans⟩ := h
  exact Expr.Spans.part hproper hspans hes hts

end Nodes

theorem Stmt.toTrees_eq_map {α : Type} (mark : α → Option Json) (body : List (Stmt α)) :
    Stmt.toTrees mark body = body.map (·.toTree mark) := by
  induction body with
  | nil => rfl
  | cons s body ih => rw [Stmt.toTrees, ih, List.map_cons]

theorem Stmt.hasPlace (s : Stmt Location) : (s.toTree placed).HasPlace s.note := by
  cases s <;> rfl

/-- Statements in the order of their tokens make up a sequence in order. -/
theorem Stmt.SpansAll.ordered {body : List (Stmt Location)} {ts : List Token}
    (h : Stmt.SpansAll body ts) (hordered : Token.Ordered ts) :
    (Stmt.toTrees placed body).Pairwise fun t u =>
      ∃ p q, t.HasPlace p ∧ u.HasPlace q ∧ p.Precedes q := by
  obtain ⟨-, hpairwise⟩ := h.inOrder.pairwise Stmt.note (fun s own hs => hs.owns.1) hordered
  rw [Stmt.toTrees_eq_map, List.pairwise_map]
  exact hpairwise.imp fun hprecedes => ⟨_, _, Stmt.hasPlace _, Stmt.hasPlace _, hprecedes⟩

section Statements

variable {source : String}

mutual

/-- The nodes of a statement, one case for each form. -/
theorem Stmt.Spans.part
    (hproper : ∀ t ∈ (Lexed.ofSource source).tokens, t.kind ≠ .openComment) :
    ∀ {s : Stmt Location} {ss ts : List Token}, s.Spans ss → ss <:+: ts →
      ts <:+: (Lexed.ofSource source).tokens → Part source ts (s.toTree placed)
  | .block note body, ss, ts, ⟨h, bs, hbs, hspans⟩, hss, hts => by
      have hall := hss.trans hts
      -- the statements stand in their order, as the tokens they span do
      have hordered := (Lexed.ordered source).sublist (hbs.trans hall).sublist
      have hitems := part_seq (Stmt.SpansAll.parts hproper hspans hbs hall) (hspans.ordered hordered)
      exact part_node ((Lexed.ordered source).sublist hts.sublist) hss h.1 rfl
        (Stmt.Owns.reread hproper h hall) (parts_cons hitems (parts_cons (part_leaf _) parts_nil))
  | .assign note x e, ss, ts, ⟨h, hx, he⟩, hss, hts => by
      have hall := hss.trans hts
      have hleft := Expr.Within.part hproper hx hall
      have hright := Expr.Within.part hproper he hall
      exact part_node ((Lexed.ordered source).sublist hts.sublist) hss h.1 rfl
        (Stmt.Owns.reread hproper h hall)
        (parts_cons hleft (parts_cons hright (parts_cons (part_leaf _) parts_nil)))
  | .output note e, ss, ts, ⟨h, he⟩, hss, hts => by
      have hall := hss.trans hts
      have hvalue := Expr.Within.part hproper he hall
      exact part_node ((Lexed.ordered source).sublist hts.sublist) hss h.1 rfl
        (Stmt.Owns.reread hproper h hall) (parts_cons hvalue (parts_cons (part_leaf _) parts_nil))
  | .loop note e s, ss, ts, ⟨h, he, bs, hbs, hbody⟩, hss, hts => by
      have hall := hss.trans hts
      have htest := Expr.Within.part hproper he hall
      have hbody := Stmt.Spans.part hproper hbody hbs hall
      exact part_node ((Lexed.ordered source).sublist hts.sublist) hss h.1 rfl
        (Stmt.Owns.reread hproper h hall)
        (parts_cons htest (parts_cons hbody (parts_cons (part_leaf _) parts_nil)))
  | .choice note e s t, ss, ts, ⟨h, he, hs, ht⟩, hss, hts => by
      have hall := hss.trans hts
      have htest := Expr.Within.part hproper he hall
      have hconsequent := Stmt.WithinBranch.part hproper hs hall
      have halternate := Stmt.WithinBranch.part hproper ht hall
      exact part_node ((Lexed.ordered source).sublist hts.sublist) hss h.1 rfl
        (Stmt.Owns.reread hproper h hall)
        (parts_cons htest (parts_cons hconsequent (parts_cons halternate
          (parts_cons (part_leaf _) parts_nil))))

/-- Each of some statements is a part of what spans all their tokens. -/
theorem Stmt.SpansAll.parts
    (hproper : ∀ t ∈ (Lexed.ofSource source).tokens, t.kind ≠ .openComment) :
    ∀ {body : List (Stmt Location)} {bs ts : List Token}, Stmt.SpansAll body bs → bs <:+: ts →
      ts <:+: (Lexed.ofSource source).tokens →
      ∀ t ∈ Stmt.toTrees placed body, Part source ts t
  | [], _, _, _, _, _ => fun _ h => absurd h (by simp [Stmt.toTrees])
  | s :: body, bs, ts, ⟨us, vs, hbs, hspans, hrest⟩, hinfix, hts => by
      subst hbs
      intro t ht
      rcases List.mem_cons.1 ht with rfl | ht
      · exact Stmt.Spans.part hproper hspans ((List.prefix_append us vs).isInfix.trans hinfix) hts
      · exact Stmt.SpansAll.parts hproper hrest ((List.suffix_append us vs).isInfix.trans hinfix) hts
          t ht

/-- A branch that is not there is a leaf, which has no place. -/
theorem Stmt.WithinBranch.part
    (hproper : ∀ t ∈ (Lexed.ofSource source).tokens, t.kind ≠ .openComment) :
    ∀ {s : Option (Stmt Location)} {ts : List Token}, Stmt.WithinBranch s ts →
      ts <:+: (Lexed.ofSource source).tokens →
      Part source ts ((Stmt.toTree? placed s).getD Tree.null)
  | none, _, _, _ => part_leaf _
  | some _, _, ⟨_, hss, hspans⟩, hts => Stmt.Spans.part hproper hspans hss hts

end

end Statements

section Programs

variable {source : String}
  (hproper : ∀ t ∈ (Lexed.ofSource source).tokens, t.kind ≠ .openComment)

include hproper

theorem Declaration.Spans.part {d : Declaration Location} {ds ts : List Token} (h : d.Spans ds)
    (hds : ds <:+: ts) (hts : ts <:+: (Lexed.ofSource source).tokens) :
    Part source ts (d.toTree placed) := by
  obtain ⟨hmarks, hdecl, ns, hns, hnames⟩ := h
  have hall := hds.trans hts
  have hordered := (Lexed.ordered source).sublist (hns.trans hall).sublist
  obtain ⟨hspans, hpairwise⟩ := hnames.pairwise Identifier.note (fun x own hx => hx.1)
    hordered
  have hitems : Part source ds (.seq (d.names.map (·.toTree placed))) := by
    refine part_seq ?_ ?_
    · intro t ht
      obtain ⟨x, hx, rfl⟩ := List.mem_map.1 ht
      obtain ⟨own, hown, hx⟩ := hspans x hx
      exact Expr.Spans.part hproper hx (hown.trans hns) hall
    · rw [List.pairwise_map]
      exact hpairwise.imp fun hprecedes => ⟨_, _, rfl, rfl, hprecedes⟩
  refine part_node ((Lexed.ordered source).sublist hts.sublist) hds hmarks rfl ?_
    (parts_cons hitems (parts_cons (part_leaf _) (parts_cons (part_leaf _) parts_nil)))
  -- the slice of the source holds the tokens of the declaration, so it reads as one again
  obtain ⟨text, hslice, hholds⟩ := slice?_span hproper hall hmarks.nonempty
  refine ⟨String.ofList text, by rw [hmarks.range]; exact hslice, ?_⟩
  show _ = Except.ok (Tag.inContext .declaration (d.toTree placed).unlocated)
  rw [Declaration.unlocated_toTree]
  exact parse_declaration_alone hholds hdecl

/-- A program is a part of its whole source: every node in it is delimited by its place. -/
theorem Program.Spans.part {p : Program Location} (h : p.Spans (Lexed.ofSource source).tokens) :
    Part source (Lexed.ofSource source).tokens (p.toTree placed) := by
  obtain ⟨hmarks, hprogram, us, vs, huv, hdecls, hbody⟩ := h
  have hordered := Lexed.ordered source
  -- the tokens of the declarations come first, and then those of the body
  have hus : us <:+: (Lexed.ofSource source).tokens := by
    rw [huv]
    exact (List.prefix_append us vs).isInfix
  have hvs : vs <:+: (Lexed.ofSource source).tokens := by
    rw [huv]
    exact (List.suffix_append us vs).isInfix
  obtain ⟨hspans, hpairwise⟩ := hdecls.pairwise Declaration.note (fun d own hd => hd.1)
    (hordered.sublist hus.sublist)
  have hitems : Part source (Lexed.ofSource source).tokens
      (.seq (p.declarations.map (·.toTree placed))) := by
    refine part_seq ?_ ?_
    · intro t ht
      obtain ⟨d, hd, rfl⟩ := List.mem_map.1 ht
      obtain ⟨own, hown, hd⟩ := hspans d hd
      exact Declaration.Spans.part hproper hd (hown.trans hus) List.infix_rfl
    · rw [List.pairwise_map]
      exact hpairwise.imp fun hprecedes => ⟨_, _, rfl, rfl, hprecedes⟩
  refine part_node hordered List.infix_rfl hmarks rfl ?_
    (parts_cons hitems (parts_cons (Stmt.Spans.part hproper hbody hvs List.infix_rfl)
      (parts_cons (part_leaf _) parts_nil)))
  obtain ⟨text, hslice, hholds⟩ := slice?_span hproper List.infix_rfl hmarks.nonempty
  refine ⟨String.ofList text, by rw [hmarks.range]; exact hslice, ?_⟩
  show _ = Except.ok (Tag.inContext .program (p.toTree placed).unlocated)
  rw [Program.unlocated_toTree]
  exact parse_program_alone hholds hprogram

end Programs

/-- The last token of a program is the closing brace of its body. -/
theorem Grammar.Program.last {ws : List Lexeme} {p : TinyLang.Program Unit}
    (h : Grammar.Program ws p) : ∃ us right, ws = us ++ [⟨.symbol .rightBrace, right⟩] := by
  obtain @⟨us, vs, ds, s, hds, hblock⟩ := h
  obtain @⟨ws, body, left, right, hbody⟩ := hblock
  exact ⟨us ++ ⟨.symbol .leftBrace, left⟩ :: ws, right, by simp⟩

/-- A program has no comment without an end, since that would be its last token. -/
theorem Program.Spans.proper {source : String} {p : Program Location}
    (h : p.Spans (Lexed.ofSource source).tokens) :
    ∀ t ∈ (Lexed.ofSource source).tokens, t.kind ≠ .openComment := by
  intro t ht hk
  obtain ⟨us, vs, huv⟩ := List.append_of_mem ht
  obtain rfl := openComment_last huv hk
  obtain ⟨ws, right, hws⟩ := h.2.1.last
  rw [huv, List.map_append] at hws
  have hlast := List.append_inj_right' hws rfl
  have hkind := congrArg Lexeme.kind (List.cons.inj hlast).1
  rw [show t.lexeme.kind = .openComment from hk] at hkind
  exact absurd hkind (by simp)

/-- **THE PLACE OF A NODE DELIMITS ITS OWN TEXT.**  In the tree of a source text each node has a
    place; the slice in it, put alone where such a node can stand, parses to that node without its
    places; the places of its children lie within it, and the items of a sequence are in order and
    do not overlap. -/
theorem Tree.parse_delimited {source : String} {t : Tree} (h : Tree.parse source true = .ok t) :
    ∀ tag fields, (tag, fields) ∈ t.nodes →
      ∃ form place, tag = Tag.name form ∧ (Tree.node tag fields).Delimited source form place := by
  obtain ⟨p, hp, rfl⟩ := Tree.parse_eq_ok h
  have hspans := Program.parse_spans hp
  exact (Program.Spans.part hspans.proper hspans).delimited

/-- The places of a program with parentheses and a comment, which belong to the nodes around them. -/
theorem parse_delimited_product : ∃ t,
    Tree.parse "integer a, b; \x7b a = (1 + b) /* sum */ * 2; \x7d" true = .ok t ∧ t.nodes.length = 12 ∧
      ∀ tag fields, (tag, fields) ∈ t.nodes → ∃ form place, tag = Tag.name form ∧
        (Tree.node tag fields).Delimited "integer a, b; \x7b a = (1 + b) /* sum */ * 2; \x7d" form place := by
  have hcount : (Tree.parse "integer a, b; \x7b a = (1 + b) /* sum */ * 2; \x7d" true).toOption.map
      (fun t => t.nodes.length) = some 12 := by rfl
  cases ht : Tree.parse "integer a, b; \x7b a = (1 + b) /* sum */ * 2; \x7d" true with
  | error e =>
      rw [ht] at hcount
      exact absurd hcount (by simp [Except.toOption])
  | ok t =>
      rw [ht] at hcount
      exact ⟨t, rfl, Option.some.inj hcount, Tree.parse_delimited ht⟩

end TinyLang
