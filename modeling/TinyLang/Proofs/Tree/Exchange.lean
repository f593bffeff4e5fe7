/-
  TinyLang.Proofs.Tree.Exchange — trees of programs as JSON text.

  A tree goes out as a document and comes back as a tree.  Nothing is lost when no node
  repeats a name and every leaf is a value that is read as a leaf:

      ofJson t.document = t                            for every faithful tree t

  The trees of programs are faithful, with and without the places of their nodes, so a
  program may be compiled from its text or from the JSON text of its tree.
-/

import TinyLang.Compile
import TinyLang.Proofs.Json.Nesting
import TinyLang.Proofs.Lowering.Direct

namespace TinyLang

/-! ## §1. Trees that come back -/

namespace Tree

mutual

/-- Whether a tree comes back from its document: the names of a node's fields are distinct and not
    the tag's, and its leaves are exact values that are read as leaves. -/
def Faithful : Tree → Prop
  | .seq items => FaithfulItems items
  | .node _ fields => (tagKey :: Record.names fields).Nodup ∧ FaithfulFields fields
  | .leaf v => v.Exact ∧ ofJson v = .leaf v

/-- Whether all trees of a list come back. -/
def FaithfulItems : List Tree → Prop
  | [] => True
  | t :: items => t.Faithful ∧ FaithfulItems items

/-- Whether the trees of all fields come back. -/
def FaithfulFields : List (String × Tree) → Prop
  | [] => True
  | (_, t) :: fields => t.Faithful ∧ FaithfulFields fields

end

theorem names_documentFields (fields : List (String × Tree)) :
    Record.names (documentFields fields) = Record.names fields := by
  induction fields with
  | nil => rfl
  | cons f fields ih =>
      obtain ⟨n, t⟩ := f
      exact congrArg (n :: ·) ih

mutual

/-- The document of a faithful tree is an exact value. -/
theorem exact_document : ∀ t : Tree, t.Faithful → t.document.Exact
  | .seq items, h => exact_documentItems items h
  | .node tag fields, h => by
      refine ⟨?_, trivial, exact_documentFields fields h.2⟩
      show (tagKey :: Record.names (documentFields fields)).Nodup
      rw [names_documentFields]
      exact h.1
  | .leaf v, h => h.1

theorem exact_documentItems : ∀ items : List Tree, FaithfulItems items →
    Json.ExactItems (documentItems items)
  | [], _ => trivial
  | t :: items, h => ⟨exact_document t h.1, exact_documentItems items h.2⟩

/-- The document of faithful fields comes back exactly. -/
theorem exact_documentFields : ∀ fields : List (String × Tree), FaithfulFields fields →
    Json.ExactMembers (documentFields fields)
  | [], _ => trivial
  | (_, t) :: fields, h => ⟨exact_document t h.1, exact_documentFields fields h.2⟩

end

mutual

/-- **A faithful tree is the tree of its document.** -/
theorem ofJson_document : ∀ t : Tree, t.Faithful → ofJson t.document = t
  | .seq items, h => by
      rw [document, ofJson, ofItems_documentItems items h]
  | .node tag fields, h => by
      have hmembers := ofMembers_documentFields fields h.2 (List.nodup_cons.1 h.1).1
      -- the first member is the tag, which makes the object a node again
      rw [document, ofJson, Record.find?, if_pos rfl]
      show Tree.node tag (ofMembers ((tagKey, .string tag) :: documentFields fields)) = _
      rw [ofMembers, if_pos rfl, hmembers]
  | .leaf v, h => h.2

theorem ofItems_documentItems : ∀ items : List Tree, FaithfulItems items →
    ofItems (documentItems items) = items
  | [], _ => rfl
  | t :: items, h => by
      rw [documentItems, ofItems, ofJson_document t h.1, ofItems_documentItems items h.2]

/-- The members of a document are read as the fields they were written for, none of which is taken
    for the tag. -/
theorem ofMembers_documentFields : ∀ fields : List (String × Tree), FaithfulFields fields →
    tagKey ∉ Record.names fields → ofMembers (documentFields fields) = fields
  | [], _, _ => rfl
  | (n, t) :: fields, h, htag => by
      simp only [Record.names, List.map_cons, List.mem_cons, not_or] at htag
      rw [documentFields, ofMembers, if_neg (Ne.symm htag.1), ofJson_document t h.1,
        ofMembers_documentFields fields h.2 htag.2]

end

/-- Two runs of faithful fields are faithful together. -/
theorem faithfulFields_append {a b : List (String × Tree)} (ha : FaithfulFields a)
    (hb : FaithfulFields b) : FaithfulFields (a ++ b) := by
  induction a with
  | nil => exact hb
  | cons f a ih =>
      obtain ⟨n, t⟩ := f
      exact ⟨ha.1, ih ha.2⟩

theorem faithfulItems_map {β : Type} {f : β → Tree} {xs : List β} (h : ∀ x ∈ xs, (f x).Faithful) :
    FaithfulItems (xs.map f) := by
  induction xs with
  | nil => trivial
  | cons x xs ih =>
      rw [List.forall_mem_cons] at h
      exact ⟨h.1, ih h.2⟩

/-- A node keeps coming back when its place is noted on it. -/
theorem faithful_mark {tag : Tag} {fields : List (String × Tree)} {place : Option Json}
    (hf : FaithfulFields fields)
    (hn : decide (tagKey :: (Record.names fields ++ [locationKey])).Nodup = true)
    (hp : ∀ v ∈ place, (leaf v).Faithful) : ((ofTag tag fields).mark place).Faithful := by
  replace hn := of_decide_eq_true hn
  have hsub : (tagKey :: Record.names fields).Sublist
      (tagKey :: (Record.names fields ++ [locationKey])) :=
    (List.sublist_append_left _ _).cons_cons _
  cases place with
  | none => exact ⟨hn.sublist hsub, hf⟩
  | some v =>
      -- the place has a name of its own, so it is one more field and overwrites none
      have hnew : locationKey ∉ Record.names fields := by
        intro hmem
        have := (List.nodup_append.1 (List.nodup_cons.1 hn).2).2.2
        exact this _ hmem _ List.mem_cons_self rfl
      show (Tree.node tag.name (Record.put locationKey (.leaf v) fields)).Faithful
      rw [Record.put_of_find?_none (Record.find?_eq_none hnew)]
      refine ⟨?_, faithfulFields_append hf ⟨hp v rfl, trivial⟩⟩
      rw [Record.names, List.map_append]
      exact hn

end Tree

/-! ## §2. Trees of programs -/

open TinyLang.Tree

section

variable {α : Type} {mark : α → Option Json}

/-- A literal is an exact leaf, since its integers are small enough. -/
theorem Literal.faithful (value : Literal) : (leaf value.toJson).Faithful := by
  cases value <;> exact ⟨trivial, rfl⟩

theorem faithful_text (s : String) : (Tree.text s).Faithful := ⟨trivial, rfl⟩

theorem Identifier.faithful (hm : ∀ a, ∀ v ∈ mark a, (leaf v).Faithful) (x : Identifier α) :
    (x.toTree mark).Faithful :=
  faithful_mark ⟨faithful_text _, trivial⟩ rfl (hm _)

/-- The tree of an expression is faithful, if what is written down for notes is. -/
theorem Expr.faithful (hm : ∀ a, ∀ v ∈ mark a, (leaf v).Faithful) (e : Expr α) :
    (e.toTree mark).Faithful := by
  induction e with
  | name x => exact x.faithful hm
  | literal note value =>
      exact faithful_mark ⟨value.faithful, trivial⟩ rfl (hm note)
  | read note => exact faithful_mark trivial rfl (hm note)
  | unary note op e ih =>
      exact faithful_mark ⟨faithful_text op, ih, trivial⟩ rfl (hm note)
  | binary note op e f ihe ihf =>
      exact faithful_mark ⟨faithful_text op, ihe, ihf, trivial⟩ rfl (hm note)

mutual

/-- The tree of a statement is faithful, if what is written down for notes is. -/
theorem Stmt.faithful (hm : ∀ a, ∀ v ∈ mark a, (leaf v).Faithful) : ∀ s : Stmt α,
    (s.toTree mark).Faithful
  | .block note body =>
      faithful_mark ⟨Stmt.faithful_body hm body, trivial⟩ rfl (hm note)
  | .assign note x e =>
      faithful_mark ⟨x.faithful hm, e.faithful hm, trivial⟩ rfl (hm note)
  | .output note e => faithful_mark ⟨e.faithful hm, trivial⟩ rfl (hm note)
  | .loop note e s =>
      faithful_mark ⟨e.faithful hm, Stmt.faithful hm s, trivial⟩ rfl (hm note)
  | .choice note e s t =>
      faithful_mark ⟨e.faithful hm, Stmt.faithful_branch hm s, Stmt.faithful_branch hm t, trivial⟩
        rfl (hm note)

theorem Stmt.faithful_body (hm : ∀ a, ∀ v ∈ mark a, (leaf v).Faithful) : ∀ body : List (Stmt α),
    FaithfulItems (Stmt.toTrees mark body)
  | [] => trivial
  | s :: body => ⟨Stmt.faithful hm s, Stmt.faithful_body hm body⟩

theorem Stmt.faithful_branch (hm : ∀ a, ∀ v ∈ mark a, (leaf v).Faithful) : ∀ s : Option (Stmt α),
    ((Stmt.toTree? mark s).getD null).Faithful
  | none => ⟨trivial, rfl⟩
  | some s => Stmt.faithful hm s

end

/-- The tree of a declaration is faithful, if what is written down for notes is. -/
theorem Declaration.faithful (hm : ∀ a, ∀ v ∈ mark a, (leaf v).Faithful) (d : Declaration α) :
    (d.toTree mark).Faithful :=
  faithful_mark ⟨faithfulItems_map fun x _ => x.faithful hm, faithful_text _, trivial⟩ rfl
    (hm d.note)

/-- The tree of a program is faithful when what is noted on its nodes is. -/
theorem Program.faithful (hm : ∀ a, ∀ v ∈ mark a, (leaf v).Faithful) (p : Program α) :
    (p.toTree mark).Faithful :=
  faithful_mark ⟨faithfulItems_map fun d _ => d.faithful hm, p.body.faithful hm, trivial⟩
    rfl (hm p.note)

end

/-- A place in the source comes back as the leaf that it is written as. -/
theorem Location.faithful (l : Location) : (leaf l.toJson).Faithful := by
  have hpoint : ∀ p : Position, p.toJson.Exact :=
    fun p => ⟨by simp [Record.names], trivial, trivial, trivial, trivial⟩
  exact ⟨⟨by simp [Record.names], hpoint l.start, hpoint l.stop, trivial⟩, rfl⟩

/-- The tree of a source text is faithful, with and without places. -/
theorem Tree.faithful_of_parse {source : String} {places : Bool} {t : Tree}
    (h : Tree.parse source places = .ok t) : t.Faithful := by
  obtain ⟨p, -, rfl⟩ := Tree.parse_eq_ok h
  refine p.faithful fun l v hv => ?_
  cases places with
  | false => exact absurd hv (by simp)
  | true =>
      obtain rfl : l.toJson = v := by simpa using hv
      exact l.faithful

/-! ## §3. The two ways to a script -/

/-- The text of a faithful tree nests as deep as its document. -/
theorem Tree.nesting_pretty {t : Tree} (ht : t.Faithful) :
    Json.nesting (t.pretty ++ "\n") = t.document.depth :=
  Json.nesting_write Json.Style.pretty_blank (exact_document t ht).floatFree rfl

/-- The text of a faithful tree is read as the tree. -/
theorem Tree.ofText?_pretty {t : Tree} (ht : t.Faithful) (hd : t.document.depth ≤ Json.maxDepth) :
    ofText? (t.pretty ++ "\n") = some t := by
  have hparse : Json.parse? (t.document.write .pretty 0 ++ "\n") = some t.document :=
    Json.parse?_write Json.Style.pretty_blank (exact_document t ht) hd rfl
  show (Json.parse? (t.document.write .pretty 0 ++ "\n")).map ofJson = some t
  rw [hparse, Option.map_some, ofJson_document t ht]

/-- What is exchanged is the tree of the source, with a line end behind it. -/
theorem parseToJson_eq_ok {source : String} {places : Bool} {json : String}
    (h : parseToJson source places = .ok json) :
    ∃ t, Tree.parse source places = .ok t ∧ t.pretty ++ "\n" = json := by
  unfold parseToJson at h
  cases ht : Tree.parse source places with
  | error e =>
      rw [ht] at h
      exact absurd h (by simp [Except.map])
  | ok t =>
      rw [ht] at h
      injection h with h
      exact ⟨t, rfl, h⟩

/-- **THE TWO WAYS TO A SCRIPT AGREE**: when a source text has a tree whose JSON text nests no
    deeper than the reader follows, the JSON text and the source text both compile, and to the
    same script. -/
theorem compileJson_parseToJson (names : Naming) (source : String) (places : Bool) (json : String)
    (hjson : parseToJson source places = .ok json) (hnesting : Json.nesting json ≤ 127) :
    ∃ script, compileJson names json = .ok script ∧ compileSource names source = .ok script := by
  obtain ⟨t, ht, rfl⟩ := parseToJson_eq_ok hjson
  have hfaithful := Tree.faithful_of_parse ht
  rw [Tree.nesting_pretty hfaithful] at hnesting
  obtain ⟨p, hp, rfl⟩ := Tree.parse_eq_ok ht
  refine ⟨Script.print Script.defaultWidth (p.toScript names), ?_, compileSource_eq names hp⟩
  unfold compileJson
  rw [Tree.ofText?_pretty hfaithful hnesting]
  exact p.compile_toTree names _

/-- The two ways agree on a program with a loop, an absent branch and signs, with its places. -/
theorem compileJson_parseToJson_countdown : ∃ json,
    parseToJson "integer n; \x7b n = read; while (n > -3) if (n) ; else output n - 1; \x7d" true =
        .ok json ∧ Json.nesting json ≤ 127 ∧
      ∃ script, compileJson Naming.standard json = .ok script ∧
        compileSource Naming.standard
          "integer n; \x7b n = read; while (n > -3) if (n) ; else output n - 1; \x7d" = .ok script := by
  have hdepth : (Tree.parse "integer n; \x7b n = read; while (n > -3) if (n) ; else output n - 1; \x7d"
      true).toOption.any (fun t => t.document.depth ≤ 127) = true := by decide +kernel
  cases ht : Tree.parse "integer n; \x7b n = read; while (n > -3) if (n) ; else output n - 1; \x7d"
      true with
  | error e =>
      rw [ht] at hdepth
      exact absurd hdepth Bool.false_ne_true
  | ok t =>
      rw [ht] at hdepth
      have hjson : parseToJson "integer n; \x7b n = read; while (n > -3) if (n) ; else output n - 1; \x7d"
          true = .ok (t.pretty ++ "\n") := by
        unfold parseToJson
        rw [ht]
        rfl
      have hnesting : Json.nesting (t.pretty ++ "\n") ≤ 127 := by
        rw [Tree.nesting_pretty (Tree.faithful_of_parse ht)]
        exact of_decide_eq_true hdepth
      exact ⟨_, hjson, hnesting,
        compileJson_parseToJson Naming.standard _ true _ hjson hnesting⟩

end TinyLang
