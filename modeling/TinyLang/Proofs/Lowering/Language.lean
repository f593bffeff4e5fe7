/-
  TinyLang.Proofs.Lowering.Language — the part of the script language that lowering uses.

  Trees come from anywhere: fields may be missing, null, of another shape or not asked for.
  Whatever a tree is, what it becomes stays within a small language:

    • no functions, no operators behind their operand, no assignment but `=`,
    • a choice has both branches, a declaration is a `var` that gives each variable a value,
    • the runtime is called to read, with nothing, and to output, with one value,
    • only the first statement of a program loads the runtime.

  No node becomes a suspension, so no step of a body waits and `expand` changes no body.
-/

import TinyLang.Lowering.Rules
import TinyLang.Proofs.Script.Parts
import TinyLang.Proofs.Tree.Nodes

namespace TinyLang

open Script (Part Expr Stmt)

/-! ## §1. The language -/

namespace Lowering

/-- What is asked of a part of a script behind the import, by itself. -/
def Allowed (names : Naming) : Part → Prop
  | .expression (.function _ _) => False
  | .expression (.unary side _ _) => side = .before
  | .expression (.assign op _ _) => op = "="
  | .expression (.call callee arguments) =>
    (callee = .member (.identifier names.binding) Naming.readMember ∧ arguments = []) ∨
      (callee = .member (.identifier names.binding) Naming.outputMember ∧
        ∃ e, arguments = [e])
  | .statement (.choice _ _ alternate) => alternate.isSome
  | .statement (.declare word declarators) =>
    word = .varWord ∧ declarators ≠ [] ∧ ∀ d ∈ declarators, d.2.isSome
  | _ => True

end Lowering

/-- A target is in the language: of a program, all that is behind the statement that loads the
    runtime. -/
def Target.InLanguage (names : Naming) : Target → Prop
  | .program body =>
    ∃ rest, body =
        .declare .varWord
          [(names.binding,
            some (.call (.identifier Naming.loader) [.literal (.string names.path)]))] :: rest ∧
      ∀ s ∈ rest, s.Everywhere (Lowering.Allowed names)
  | .statement s => s.Everywhere (Lowering.Allowed names)
  | .expression e => e.Everywhere (Lowering.Allowed names)
  | .suspension _ => False

/-! ## §2. What a walk keeps -/

/-- All results of a walked tree have a property. -/
inductive Walked.All {α : Type} (P : α → Prop) : Walked α → Prop
  | seq {items : List (Walked α)} : (∀ w ∈ items, w.All P) → Walked.All P (.seq items)
  | node {result : α} : P result → Walked.All P (.node result)
  | leaf {value : Json} : Walked.All P (.leaf value)

section Walk

variable {ε α β : Type}

/-- A computation that succeeds gives a result with a property. -/
def Gives (P : α → Prop) (r : Except ε α) : Prop := ∀ x, r = .ok x → P x

theorem gives_ok {P : α → Prop} {x : α} (h : P x) : Gives P (.ok x : Except ε α) := by
  intro y hy
  cases hy
  exact h

theorem gives_error {P : α → Prop} {e : ε} : Gives P (.error e : Except ε α) :=
  fun _ h => nomatch h

/-- What the first of two computations gives is known to the second. -/
theorem Gives.bind {P : α → Prop} {Q : β → Prop} {r : Except ε α} {k : α → Except ε β}
    (hr : Gives P r) (hk : ∀ x, P x → Gives Q (k x)) : Gives Q (r >>= k) := by
  cases r with
  | error e => exact gives_error
  | ok x => exact hk x (hr x rfl)

theorem Gives.mapError {ε' : Type} {P : α → Prop} {r : Except ε α} (hr : Gives P r) (g : ε → ε') :
    Gives P (r.mapError g) := by
  cases r with
  | error e => exact gives_error
  | ok x => exact gives_ok (hr x rfl)

/-- What is known of a result may use that it is the result. -/
theorem Gives.and_eq {P : α → Prop} {r : Except ε α} (hr : Gives P r) :
    Gives (fun x => P x ∧ r = .ok x) r :=
  fun x hx => ⟨hr x hx, hx⟩

theorem gives_any (r : Except ε α) : Gives (fun _ => True) r := fun _ _ => trivial

/-- What is known of each reading is known of all results. -/
theorem gives_mapM {P : β → Prop} {read : α → Except ε β} {xs : List α}
    (h : ∀ x ∈ xs, Gives P (read x)) : Gives (fun ys => ∀ y ∈ ys, P y) (xs.mapM read) := by
  induction xs with
  | nil => exact gives_ok (by simp)
  | cons x xs ih =>
      rw [List.forall_mem_cons] at h
      rw [List.mapM_cons]
      exact h.1.bind fun y hy => (ih h.2).bind fun ys hys =>
        gives_ok (List.forall_mem_cons.2 ⟨hy, hys⟩)

/-- A node has been visited, on fields whose results all have a property. -/
def Visited (visit : String → List (String × Walked α) → Except ε α) (P : α → Prop)
    (node : String × List (String × Tree)) : Prop :=
  ∃ fields result, Tree.walkFields visit node.2 = .ok fields ∧ (∀ f ∈ fields, f.2.All P) ∧
    visit node.1 fields = .ok result

variable {visit : String → List (String × Walked α) → Except ε α} {P : α → Prop}

mutual

/-- **What visits keep a walk keeps**: if the results in the fields of a node having a property
    gives the result of its visit the property, then all results of a walk have it, and a walk that
    succeeds has visited every node. -/
theorem gives_walk (hvisit : ∀ tag fields, (∀ f ∈ fields, f.2.All P) → Gives P (visit tag fields)) :
    ∀ t : Tree, Gives (fun w => w.All P ∧ ∀ node ∈ t.nodes, Visited visit P node) (t.walk visit)
  | .seq items => by
      rw [Tree.walk, Tree.nodes]
      exact (gives_walkItems hvisit items).bind fun ws hws => gives_ok ⟨.seq hws.1, hws.2⟩
  | .node tag fields => by
      rw [Tree.walk, Tree.nodes]
      -- the fields come before the node, both in the walk and in the list of nodes
      refine (gives_walkFields hvisit fields).and_eq.bind fun ws hws => ?_
      refine (hvisit tag ws hws.1.1).and_eq.bind fun result hresult => gives_ok ?_
      refine ⟨.node hresult.1, List.forall_mem_append.2 ⟨hws.1.2, ?_⟩⟩
      intro node hnode
      obtain rfl := List.mem_singleton.1 hnode
      exact ⟨ws, result, hws.2, hws.1.1, hresult.2⟩
  | .leaf value => by
      rw [Tree.walk, Tree.nodes]
      exact gives_ok ⟨.leaf, by simp⟩

/-- What visits keep, the walk of a sequence keeps. -/
theorem gives_walkItems
    (hvisit : ∀ tag fields, (∀ f ∈ fields, f.2.All P) → Gives P (visit tag fields)) :
    ∀ items : List Tree,
      Gives (fun ws => (∀ w ∈ ws, w.All P) ∧ ∀ node ∈ Tree.nodesOfItems items, Visited visit P node)
        (Tree.walkItems visit items)
  | [] => by
      rw [Tree.walkItems, Tree.nodesOfItems]
      exact gives_ok (by simp)
  | t :: items => by
      rw [Tree.walkItems, Tree.nodesOfItems]
      exact (gives_walk hvisit t).bind fun w hw =>
        (gives_walkItems hvisit items).bind fun ws hws =>
          gives_ok ⟨List.forall_mem_cons.2 ⟨hw.1, hws.1⟩, List.forall_mem_append.2 ⟨hw.2, hws.2⟩⟩

/-- What visits keep, the walk of fields keeps. -/
theorem gives_walkFields
    (hvisit : ∀ tag fields, (∀ f ∈ fields, f.2.All P) → Gives P (visit tag fields)) :
    ∀ fields : List (String × Tree),
      Gives
        (fun ws => (∀ f ∈ ws, f.2.All P) ∧
          ∀ node ∈ Tree.nodesOfFields fields, Visited visit P node)
        (Tree.walkFields visit fields)
  | [] => by
      rw [Tree.walkFields, Tree.nodesOfFields]
      exact gives_ok (by simp)
  | (name, t) :: fields => by
      rw [Tree.walkFields, Tree.nodesOfFields]
      exact (gives_walk hvisit t).bind fun w hw =>
        (gives_walkFields hvisit fields).bind fun ws hws =>
          gives_ok ⟨List.forall_mem_cons.2 ⟨hw.1, hws.1⟩, List.forall_mem_append.2 ⟨hw.2, hws.2⟩⟩

end

end Walk

/-! ## §3. Readings -/

namespace Lowering

section Readings

variable {names : Naming} {α : Type} {P : α → Prop} {r : Reading α}

/-- A reading stays in the language: what it takes from a walked tree whose targets are in the
    language has a property. -/
def Stays (names : Naming) (P : α → Prop) (r : Reading α) : Prop :=
  ∀ w : Walked Target, w.All (Target.InLanguage names) → Gives P (r w)

/-- An expression is taken from a target as it is. -/
theorem stays_expression : Stays names (fun e => e.Everywhere (Allowed names)) .expression := by
  intro w hw
  cases hw with
  | seq _ => exact gives_error
  | leaf => exact gives_error
  | @node target htarget =>
      cases target with
      | expression e => exact gives_ok htarget
      | _ => exact gives_error

/-- A step is a statement of the language, and does not wait. -/
theorem stays_step :
    Stays names (fun step => ∃ s, step = .now s ∧ s.Everywhere (Allowed names)) .step := by
  intro w hw
  cases hw with
  | seq _ => exact gives_error
  | leaf => exact gives_error
  | @node target htarget =>
      cases target with
      | statement s => exact gives_ok ⟨s, rfl, htarget⟩
      | suspension s => exact htarget.elim
      | _ => exact gives_error

/-- A statement is a step that does not wait, so nothing is made of it. -/
theorem stays_statement : Stays names (fun s => s.Everywhere (Allowed names)) .statement := by
  intro w hw
  refine (stays_step w hw).bind fun step hstep => ?_
  obtain ⟨s, rfl, hs⟩ := hstep
  exact gives_ok hs

/-- Items that are all in the language are read as things that all have the property. -/
theorem Stays.each (h : Stays names P r) (shape : Shape) :
    Stays names (fun xs => ∀ x ∈ xs, P x) (.each shape r) := by
  intro w hw
  cases hw with
  | seq hitems => exact gives_mapM fun w hw => h w (hitems w hw)
  | node _ => exact gives_error
  | leaf => exact gives_error

/-- Steps none of which waits are statements. -/
theorem exists_map_now {Q : Stmt → Prop} {steps : List Step}
    (h : ∀ step ∈ steps, ∃ s, step = .now s ∧ Q s) :
    ∃ body : List Stmt, steps = body.map Step.now ∧ ∀ s ∈ body, Q s := by
  induction steps with
  | nil => exact ⟨[], rfl, by simp⟩
  | cons step steps ih =>
      rw [List.forall_mem_cons] at h
      obtain ⟨⟨s, rfl, hs⟩, hsteps⟩ := h
      obtain ⟨body, rfl, hbody⟩ := ih hsteps
      exact ⟨s :: body, rfl, List.forall_mem_cons.2 ⟨hs, hbody⟩⟩

/-- No step of a sequence waits, so the steps are statements. -/
theorem stays_steps :
    Stays names
      (fun steps => ∃ body : List Stmt, steps = body.map Step.now ∧
        ∀ s ∈ body, s.Everywhere (Allowed names))
      .steps :=
  fun w hw steps hsteps => exists_map_now (stays_step.each _ w hw steps hsteps)

end Readings

section Fields

variable {names : Naming} {f : Fields}

/-- A field that is read, on fields that are in the language. -/
theorem Stays.read {α : Type} {P : α → Prop} {r : Reading α} (h : Stays names P r)
    (hf : ∀ g ∈ f.fields, g.2.All (Target.InLanguage names)) (name : String) :
    Gives P (f.read name r) := by
  cases hw : Record.find? name f.fields with
  | none =>
      rw [Fields.read_of_find?_none hw]
      exact gives_error
  | some w =>
      rw [Fields.read_of_find? hw]
      exact (h w (hf _ (Record.mem_of_find? hw))).mapError _

/-- A field that is absent or null has what its default has. -/
theorem Stays.readOr {α : Type} {P : α → Prop} {r : Reading α} (h : Stays names P r)
    (hf : ∀ g ∈ f.fields, g.2.All (Target.InLanguage names)) (name : String) {default : α}
    (hdefault : P default) : Gives P (f.readOr name r default) := by
  unfold Fields.readOr
  split
  next => exact gives_ok hdefault
  next => exact gives_ok hdefault
  next => exact h.read hf name

/-! ## §4. Rules -/

/-- A declaration of at least one variable gives each of them a value. -/
theorem declareAll_everywhere {type : ValueType} {declared : List String} (h : declared ≠ []) :
    (declareAll type declared).Everywhere (Allowed names) := by
  refine Stmt.everywhere_declare.2 ⟨⟨rfl, ?_, ?_⟩, ?_⟩
  · intro hnil
    exact h (List.map_eq_nil_iff.1 hnil)
  · intro d hd
    obtain ⟨x, -, rfl⟩ := List.mem_map.1 hd
    rfl
  · intro d hd e he
    obtain ⟨x, -, rfl⟩ := List.mem_map.1 hd
    cases he
    exact Expr.everywhere_literal.2 trivial

/-- A call of the runtime is in the language if it is one of the two that are. -/
theorem callRuntime_everywhere {member : String} {arguments : List Expr}
    (hcall : Allowed names (.expression (callRuntime names member arguments)))
    (harguments : ∀ e ∈ arguments, e.Everywhere (Allowed names)) :
    (callRuntime names member arguments).Everywhere (Allowed names) :=
  Expr.everywhere_call.2 ⟨hcall,
    Expr.everywhere_member.2 ⟨trivial, Expr.everywhere_identifier.2 trivial⟩, harguments⟩

/-- **EVERY RULE STAYS IN THE LANGUAGE**, on fields that are in it. -/
theorem gives_rule (hf : ∀ g ∈ f.fields, g.2.All (Target.InLanguage names)) :
    Gives (Target.InLanguage names) (rule names f) := by
  obtain ⟨form, fields⟩ := f
  cases form
  case program =>
    refine ((stays_statement.each _).read hf _).bind fun declarations hdeclarations => ?_
    refine (stays_step.read hf _).bind fun step hstep => ?_
    obtain ⟨s, rfl, hs⟩ := hstep
    -- the body is one step that does not wait, so it stands as it is
    refine gives_ok ⟨declarations ++ [s], rfl, List.forall_mem_append.2 ⟨hdeclarations, ?_⟩⟩
    exact List.forall_mem_singleton.2 hs
  case declaration =>
    refine (gives_any _).bind fun declared _ => (gives_any _).bind fun name _ => ?_
    refine (gives_any _).bind fun type _ => ?_
    cases declared with
    | nil => exact gives_error
    | cons x declared => exact gives_ok (declareAll_everywhere (List.cons_ne_nil x declared))
  case block =>
    refine (stays_steps.read hf _).bind fun steps hsteps => ?_
    obtain ⟨body, rfl, hbody⟩ := hsteps
    rw [expand_map_now]
    exact gives_ok (Stmt.everywhere_block.2 ⟨trivial, hbody⟩)
  case identifier =>
    exact (gives_any _).bind fun _ _ => gives_ok (Expr.everywhere_identifier.2 trivial)
  case literal =>
    exact (gives_any _).bind fun _ _ => gives_ok (Expr.everywhere_literal.2 trivial)
  case assignment =>
    refine (stays_expression.read hf _).bind fun left hleft => ?_
    refine (stays_expression.read hf _).bind fun right hright => gives_ok ?_
    exact Stmt.everywhere_expression.2
      ⟨trivial, Expr.everywhere_assign.2 ⟨rfl, hleft, hright⟩⟩
  case read =>
    exact gives_ok (callRuntime_everywhere (.inl ⟨rfl, rfl⟩) (by simp))
  case output =>
    refine (stays_expression.read hf _).bind fun value hvalue => gives_ok ?_
    refine Stmt.everywhere_expression.2 ⟨trivial, ?_⟩
    exact callRuntime_everywhere (.inr ⟨rfl, value, rfl⟩) (List.forall_mem_singleton.2 hvalue)
  case unary =>
    refine (gives_any _).bind fun operator _ => ?_
    refine (stays_expression.read hf _).bind fun argument hargument => ?_
    exact gives_ok (Expr.everywhere_unary.2 ⟨rfl, hargument⟩)
  case binary =>
    refine (gives_any _).bind fun operator _ => ?_
    refine (stays_expression.read hf _).bind fun left hleft => ?_
    refine (stays_expression.read hf _).bind fun right hright => ?_
    exact gives_ok (Expr.everywhere_binary.2 ⟨trivial, hleft, hright⟩)
  case loop =>
    refine (stays_expression.read hf _).bind fun test htest => ?_
    refine (stays_statement.read hf _).bind fun body hbody => ?_
    exact gives_ok (Stmt.everywhere_loop.2 ⟨trivial, htest, hbody⟩)
  case conditional =>
    -- a branch that is absent or null is the empty statement, which is in the language
    have hempty : Stmt.empty.Everywhere (Allowed names) := Stmt.everywhere_empty.2 trivial
    refine (stays_expression.read hf _).bind fun test htest => ?_
    refine (stays_statement.readOr hf _ hempty).bind fun consequent hconsequent => ?_
    refine (stays_statement.readOr hf _ hempty).bind fun alternate halternate => ?_
    exact gives_ok (Stmt.everywhere_choice.2 ⟨rfl, htest, hconsequent, halternate⟩)

end Fields

/-- Whatever its tag, a node becomes something of the language or is refused. -/
theorem gives_lowerNode {names : Naming} (tag : String) (fields : List (String × Walked Target))
    (hf : ∀ f ∈ fields, f.2.All (Target.InLanguage names)) :
    Gives (Target.InLanguage names) (lowerNode names tag fields) := by
  unfold lowerNode
  cases Tag.ofName? tag with
  | none => exact gives_error
  | some form => exact gives_rule (f := ⟨form, fields⟩) hf

/-! ## §5. Trees -/

/-- The steps that the rule of a form expands: the body of a program is a single one. -/
def stepsOf (f : Fields) : Except LoweringError (List Step) :=
  match f.tag with
  | .program => do
    let step ← f.read "body" .step
    .ok [step]
  | .block => f.read "body" .steps
  | _ => .ok []

/-- No step of a node that is lowered waits. -/
theorem gives_stepsOf {names : Naming} {f : Fields}
    (hf : ∀ g ∈ f.fields, g.2.All (Target.InLanguage names)) :
    Gives (fun steps => ∃ body : List Stmt, steps = body.map Step.now) (stepsOf f) := by
  obtain ⟨form, fields⟩ := f
  cases form
  case program =>
    refine (stays_step.read hf _).bind fun step hstep => ?_
    -- within the language every step is a statement, so nothing is put off
    obtain ⟨s, rfl, -⟩ := hstep
    exact gives_ok ⟨[s], rfl⟩
  case block =>
    intro steps hsteps
    obtain ⟨body, hbody, -⟩ := stays_steps.read hf _ steps hsteps
    exact ⟨body, hbody⟩
  all_goals exact gives_ok ⟨[], rfl⟩

/-- Where statements stand in what a form becomes, as its body: a block is made of them, a program
    ends with them, and other forms have none. -/
def Holds (names : Naming) (body : List Stmt) : Tag → Target → Prop
  | .program, target =>
    ∃ declarations, target = .program (importRuntime names :: declarations ++ body)
  | .block, target => target = .statement (.block body)
  | _, _ => body = []

/-- The body of what a rule gives is what the steps of the rule expand to. -/
theorem gives_rule_holds (names : Naming) (f : Fields) :
    Gives (fun target => ∃ steps, stepsOf f = .ok steps ∧ Holds names (expand steps) f.tag target)
      (rule names f) := by
  obtain ⟨form, fields⟩ := f
  cases form
  case program =>
    refine (gives_any _).bind fun declarations _ => ?_
    refine (gives_any _).and_eq.bind fun step hstep => gives_ok ⟨[step], ?_, declarations, rfl⟩
    -- the steps are read again from the field that the rule has read
    show (Fields.read _ "body" .step >>= fun step => .ok [step]) = .ok [step]
    rw [hstep.2]
    rfl
  case block =>
    exact (gives_any _).and_eq.bind fun steps hsteps => gives_ok ⟨steps, hsteps.2, rfl⟩
  all_goals exact fun _ _ => ⟨[], rfl, rfl⟩

/-- A node that is lowered has a form, and its rule has been applied. -/
theorem rule_of_lowerNode {names : Naming} {tag : String} {fields : List (String × Walked Target)}
    {target : Target} (h : lowerNode names tag fields = .ok target) :
    ∃ form, Tag.ofName? tag = some form ∧ rule names ⟨form, fields⟩ = .ok target := by
  unfold lowerNode at h
  cases hform : Tag.ofName? tag with
  | none =>
      rw [hform] at h
      cases h
  | some form =>
      rw [hform] at h
      exact ⟨form, rfl, h⟩

end Lowering

/-- A tree that becomes something becomes it in a walk. -/
theorem Tree.walk_of_lower {names : Naming} {t : Tree} {target : Target}
    (h : t.lower names = .ok target) : t.walk (Lowering.lowerNode names) = .ok (.node target) := by
  unfold Tree.lower at h
  cases hwalk : t.walk (Lowering.lowerNode names) with
  | error e =>
      rw [hwalk] at h
      cases h
  | ok w =>
      rw [hwalk] at h
      cases w <;> cases h
      rfl

/-- **WHAT A TREE BECOMES IS IN THE LANGUAGE, AND NOTHING IN IT WAITS**: for any tree that is not
    refused the target is in the language, at any depth, and in every node of the tree the steps
    that its rule expands are statements, which `expand` leaves as they are and which make up the
    body of what the node becomes. -/
theorem Tree.lower_inLanguage {names : Naming} {t : Tree} {target : Target}
    (h : t.lower names = .ok target) :
    target.InLanguage names ∧
      ∀ node ∈ t.nodes, ∃ form fields body result, Tag.ofName? node.1 = some form ∧
        Tree.walkFields (Lowering.lowerNode names) node.2 = .ok fields ∧
        Lowering.stepsOf ⟨form, fields⟩ = .ok (body.map Step.now) ∧
        expand (body.map Step.now) = body ∧
        Lowering.lowerNode names node.1 fields = .ok result ∧
        Lowering.Holds names body form result := by
  obtain ⟨hall, hnodes⟩ := gives_walk Lowering.gives_lowerNode t _ (t.walk_of_lower h)
  refine ⟨?_, ?_⟩
  · obtain - | htarget := hall
    exact htarget
  · intro node hnode
    obtain ⟨fields, result, hfields, hf, hresult⟩ := hnodes node hnode
    obtain ⟨form, hform, hrule⟩ := Lowering.rule_of_lowerNode hresult
    obtain ⟨steps, hsteps, hbody⟩ := Lowering.gives_rule_holds names _ result hrule
    obtain ⟨body, rfl⟩ := Lowering.gives_stepsOf hf steps hsteps
    -- without suspensions the expansion changes nothing
    rw [expand_map_now] at hbody
    exact ⟨form, fields, body, result, hform, hfields, hsteps, expand_map_now body, hresult, hbody⟩

/-- A choice without an alternate, with a field that no rule asks for, around a block. -/
def Tree.bareChoice : Tree :=
  .node "IfStatement"
    [("test", .node "ReadExpression" [("left", .seq [])]), ("else", .leaf .null),
      ("consequent", .node "BlockStatement" [("body", .seq
        [.node "OutputStatement" [("value", .node "ReadExpression" [])]])])]

theorem Tree.lower_inLanguage_bareChoice :
    ∃ target, Tree.bareChoice.lower Naming.standard = .ok target ∧
      target.InLanguage Naming.standard := by
  cases h : Tree.bareChoice.lower Naming.standard with
  | ok target => exact ⟨target, rfl, (Tree.lower_inLanguage h).1⟩
  | error e =>
      have hok : (Tree.bareChoice.lower Naming.standard).toOption.isSome = true := by decide +kernel
      rw [h] at hok
      cases hok

end TinyLang
