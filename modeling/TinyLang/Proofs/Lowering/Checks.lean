/-
  TinyLang.Proofs.Lowering.Checks — when a tree is refused, and why.

  Rules look at what the nodes below have become.  Still, whether a tree is refused depends
  on no more than LOCAL CHECKS: each node is checked by itself, on its own fields and on the
  tags of the nodes in them, and the first check that fails in the first node that has one,
  in the order of the walk, gives the error:

      (t.lower names).map Target.category? = t.verdict.map some

  The names that the script uses have no say in it.  What makes this work is that the tag of
  a node determines what kind of thing the node becomes, and that only a name becomes a
  variable.
-/

import TinyLang.Lowering.Rules
import TinyLang.Proofs.Tree.Nodes

namespace TinyLang

/-! ## §1. What each form asks of its fields -/

/-- What a form can become. -/
inductive Category where
  | program
  | statement
  | expression
deriving DecidableEq, Repr

/-- What the nodes of a form become. -/
def Tag.category : Tag → Category
  | .program => .program
  | .declaration | .block | .assignment | .output | .loop | .conditional => .statement
  | .identifier | .literal | .read | .unary | .binary => .expression

/-- What a target is, unless it waits for what follows. -/
def Target.category? : Target → Option Category
  | .program _ => some .program
  | .statement _ => some .statement
  | .expression _ => some .expression
  | .suspension _ => none

namespace Walked

/-- Whether an outline is a node of a form that becomes a thing of a category. -/
def isOf (category : Category) : Walked String → Bool
  | .node tag => (Tag.ofName? tag).any fun form => form.category == category
  | _ => false

/-- Whether an outline is a name. -/
def isName : Walked String → Bool
  | .node tag => Tag.ofName? tag == some .identifier
  | _ => false

end Walked

/-- Whether a value is no array and no object. -/
def Json.isScalar : Json → Bool
  | .array _ | .object _ => false
  | _ => true

namespace Lowering

/-- What a form asks of a field. -/
inductive Demand where
  | text
  | scalar
  | expression
  | statement
  | branch
  | statements
  | names
deriving DecidableEq, Repr

/-- The shape that an outline should have and has not. -/
def Demand.missed? : Demand → Walked String → Option Shape
  | .text, .leaf (.string _) => none
  | .text, _ => some .text
  | .scalar, .leaf value => if value.isScalar then none else some .scalar
  | .scalar, _ => some .scalar
  | .expression, w => if w.isOf .expression then none else some .expression
  | .statement, w => if w.isOf .statement then none else some .statement
  | .branch, .leaf .null => none
  | .branch, w => if w.isOf .statement then none else some .statement
  | .statements, .seq items => if items.all (·.isOf .statement) then none else some .statement
  | .statements, _ => some .statements
  | .names, .seq items => if items.all (·.isName) then none else some .identifiers
  | .names, _ => some .identifiers

theorem Demand.missed?_expression (w : Walked String) :
    Demand.expression.missed? w = if w.isOf .expression then none else some .expression := by
  cases w <;> rfl

theorem Demand.missed?_statement (w : Walked String) :
    Demand.statement.missed? w = if w.isOf .statement then none else some .statement := by
  cases w <;> rfl

/-- One check of a node: of the shape of a field, which only a branch may do without, of the name
    of a type, or of there being names at all. -/
inductive Check where
  | field (name : String) (demand : Demand)
  | typeName (name : String)
  | someName (name : String)

/-- How a check of a node fails, given the outlines of the node's fields. -/
def Check.failure? (tag : Tag) (fields : List (String × Walked String)) :
    Check → Option LoweringError
  | .field name demand =>
    match Record.find? name fields with
    | some w => (demand.missed? w).map (.unexpectedShape tag name)
    | none => if demand = .branch then none else some (.missingField tag name)
  | .typeName name =>
    match Record.find? name fields with
    | some (.leaf (.string s)) =>
      if (ValueType.ofName? s).isSome then none else some (.unknownType s)
    | _ => none
  | .someName name =>
    match Record.find? name fields with
    | some (.seq []) => some .emptyDeclaration
    | _ => none

/-- The checks of a form, in their order. Fields that are not named here do not matter. -/
def checks : Tag → List Check
  | .program => [.field "declarations" .statements, .field "body" .statement]
  | .declaration =>
    [.field "ids" .names, .field "valueType" .text, .typeName "valueType", .someName "ids"]
  | .block => [.field "body" .statements]
  | .identifier => [.field "name" .text]
  | .literal => [.field "value" .scalar]
  | .assignment => [.field "left" .expression, .field "right" .expression]
  | .read => []
  | .output => [.field "value" .expression]
  | .unary => [.field "operator" .text, .field "argument" .expression]
  | .binary =>
    [.field "operator" .text, .field "left" .expression, .field "right" .expression]
  | .loop => [.field "test" .expression, .field "body" .statement]
  | .conditional =>
    [.field "test" .expression, .field "consequent" .branch, .field "alternate" .branch]

/-- The first failure of a node, given the outlines of its fields: its tag is unknown, or a check
    of its form fails. -/
def violation? (tag : String) (fields : List (String × Walked String)) : Option LoweringError :=
  match Tag.ofName? tag with
  | some form => (checks form).findSome? (·.failure? form fields)
  | none => some (.unknownTag tag)

/-- The failure of the first of some nodes that has one. -/
def firstViolation? (nodes : List (String × List (String × Tree))) : Option LoweringError :=
  nodes.findSome? fun node => violation? node.1 (Tree.outlineFields node.2)

end Lowering

/-- What becomes of a tree: the error of its first failing node, or else the error of a root that is
    no node, or else the category of the form of its root. (A root without a form fails itself.) -/
def Tree.verdict (t : Tree) : Except LoweringError Category :=
  match Lowering.firstViolation? t.nodes with
  | some e => .error e
  | none =>
    match t with
    | .seq _ => .error (.unexpectedRoot "a node" "sequence")
    | .leaf _ => .error (.unexpectedRoot "a node" "leaf")
    | .node tag _ =>
      match Tag.ofName? tag with
      | some form => .ok form.category
      | none => .error (.unknownTag tag)

/-! ## §2. The first failure of a chain of computations -/

namespace Lowering

variable {ε α β : Type}

/-- A computation gives the failure that is foreseen, or, if none is, a result with a property. -/
def Foreseen (failure : Option ε) (P : α → Prop) (r : Except ε α) : Prop :=
  match failure with
  | some e => r = .error e
  | none => ∃ x, r = .ok x ∧ P x

theorem foreseen_ok {P : α → Prop} {x : α} (h : P x) : Foreseen none P (.ok x : Except ε α) :=
  ⟨x, rfl, h⟩

/-- The first failure of two computations in a row is that of the first, or else of the second. -/
theorem Foreseen.bind {f g : Option ε} {P : α → Prop} {Q : β → Prop}
    {r : Except ε α} {k : α → Except ε β} (hr : Foreseen f P r)
    (hk : ∀ x, P x → Foreseen g Q (k x)) : Foreseen (f.or g) Q (r >>= k) := by
  cases f with
  | some e =>
      show (r >>= k) = .error e
      rw [show r = .error e from hr]
      rfl
  | none =>
      obtain ⟨x, rfl, hx⟩ := hr
      exact hk x hx

/-- A last step that cannot fail adds nothing to what is foreseen. -/
theorem Foreseen.finish {f : Option ε} {P : α → Prop} {Q : β → Prop}
    {r : Except ε α} {k : α → Except ε β} (hr : Foreseen f P r)
    (hk : ∀ x, P x → Foreseen none Q (k x)) : Foreseen f Q (r >>= k) := by
  have h := hr.bind hk
  rw [Option.or_none] at h
  exact h

/-- Less may be said of the result than is known. -/
theorem Foreseen.mono {f : Option ε} {P Q : α → Prop} {r : Except ε α}
    (hr : Foreseen f P r) (h : ∀ x, P x → Q x) : Foreseen f Q r := by
  cases f with
  | some e => exact hr
  | none =>
      obtain ⟨x, hx, hp⟩ := hr
      exact ⟨x, hx, h x hp⟩

/-- What is foreseen stays so when errors are told in other words. -/
theorem Foreseen.mapError {ε' : Type} {f : Option ε} {P : α → Prop} {r : Except ε α}
    (hr : Foreseen f P r) (g : ε → ε') : Foreseen (f.map g) P (r.mapError g) := by
  cases f with
  | some e =>
      rw [show r = .error e from hr]
      rfl
  | none =>
      obtain ⟨x, rfl, hx⟩ := hr
      exact foreseen_ok hx

theorem findSome?_cons_or {f : α → Option β} {x : α} {xs : List α} :
    (x :: xs).findSome? f = (f x).or (xs.findSome? f) := by
  rw [List.findSome?_cons]
  cases f x <;> rfl

/-! ## §3. Nodes become what their tags say -/

/-- A target is one that nodes with a tag become: of the category of the form, and a variable if and
    only if the form is a name. -/
def TargetOf (tag : String) (target : Target) : Prop :=
  ∃ form, Tag.ofName? tag = some form ∧ target.category? = some form.category ∧
    ((∃ x, target = .expression (.identifier x)) ↔ form = .identifier)

mutual

/-- A walked tree is one that a tree with the given outline may leave. -/
inductive Shows : Walked Target → Walked String → Prop
  | seq {ws : List (Walked Target)} {os : List (Walked String)} :
      ShowsAll ws os → Shows (.seq ws) (.seq os)
  | node {target : Target} {tag : String} : TargetOf tag target → Shows (.node target) (.node tag)
  | leaf {value : Json} : Shows (.leaf value) (.leaf value)

/-- Walked trees are ones that trees with the given outlines may leave. -/
inductive ShowsAll : List (Walked Target) → List (Walked String) → Prop
  | nil : ShowsAll [] []
  | cons {w : Walked Target} {o : Walked String} {ws : List (Walked Target)}
      {os : List (Walked String)} : Shows w o → ShowsAll ws os → ShowsAll (w :: ws) (o :: os)

end

/-- Walked fields are ones that fields with the given outlines may leave. -/
inductive ShowsFields : List (String × Walked Target) → List (String × Walked String) → Prop
  | nil : ShowsFields [] []
  | cons {name : String} {w : Walked Target} {o : Walked String}
      {ws : List (String × Walked Target)} {os : List (String × Walked String)} :
      Shows w o → ShowsFields ws os → ShowsFields ((name, w) :: ws) ((name, o) :: os)

/-- A field is there after the walk if and only if it was there before. -/
theorem ShowsFields.find? {ws : List (String × Walked Target)} {os : List (String × Walked String)}
    (h : ShowsFields ws os) (name : String) :
    (Record.find? name ws = none ∧ Record.find? name os = none) ∨
      ∃ w o, Record.find? name ws = some w ∧ Record.find? name os = some o ∧ Shows w o := by
  induction h with
  | nil => exact .inl ⟨rfl, rfl⟩
  | @cons n w o ws os hw _ ih =>
      by_cases hn : n = name
      · exact .inr ⟨w, o, by rw [Record.find?, if_pos hn], by rw [Record.find?, if_pos hn], hw⟩
      · rw [Record.find?, Record.find?, if_neg hn, if_neg hn]
        exact ih

/-- Only what is of a category passes for it. -/
theorem TargetOf.isOf {tag : String} {target : Target} (h : TargetOf tag target)
    (category : Category) :
    (Walked.node tag).isOf category = true ↔ target.category? = some category := by
  obtain ⟨form, hform, hcategory, -⟩ := h
  show (Tag.ofName? tag).any _ = true ↔ _
  rw [hform, hcategory, Option.any_some, beq_iff_eq, Option.some.injEq]

/-- Only a variable passes for a name. -/
theorem TargetOf.isName {tag : String} {target : Target} (h : TargetOf tag target) :
    (Walked.node tag).isName = true ↔ ∃ x, target = .expression (.identifier x) := by
  obtain ⟨form, hform, -, hname⟩ := h
  show (Tag.ofName? tag == some .identifier) = true ↔ _
  rw [hform, beq_iff_eq, Option.some.injEq]
  exact hname.symm

/-! ## §4. Readings -/

/-- A reading meets a demand: what a tree has left is refused exactly if the outline of the tree
    misses a shape, for want of that shape, and read as something with a property otherwise. -/
def Meets (demand : Demand) (P : Walked String → α → Prop) (r : Reading α) : Prop :=
  ∀ w o, Shows w o → Foreseen (demand.missed? o) (P o) (r w)

/-- A text is a leaf, of which the walk leaves the value. -/
theorem meets_text : Meets .text (fun o s => o = .leaf (.string s)) .text := by
  intro w o hw
  cases hw with
  | seq _ => rfl
  | node _ => rfl
  | @leaf value =>
      cases value with
      | string s => exact foreseen_ok rfl
      | _ => rfl

theorem meets_scalar : Meets .scalar (fun _ _ => True) .scalar := by
  intro w o hw
  cases hw with
  | seq _ => rfl
  | node _ => rfl
  | @leaf value =>
      cases value with
      | array items => rfl
      | object members => rfl
      | number n => cases n <;> exact foreseen_ok trivial
      | _ => exact foreseen_ok trivial

/-- A node is read as an expression exactly if its form becomes one. -/
theorem meets_expression : Meets .expression (fun _ _ => True) .expression := by
  intro w o hw
  cases hw with
  | seq _ => rfl
  | leaf => rfl
  | @node target tag htarget =>
      -- what a tag promises and what came out of its rule are of one category
      have hiff := htarget.isOf .expression
      rw [Demand.missed?_expression]
      cases target with
      | expression e =>
          rw [if_pos (hiff.2 rfl)]
          exact foreseen_ok trivial
      | _ =>
          rw [if_neg (fun h => absurd (hiff.1 h) (by simp [Target.category?]))]
          rfl

/-- A step is made of a statement and of nothing else: no node becomes a suspension. -/
theorem meets_step : Meets .statement (fun _ _ => True) .step := by
  intro w o hw
  cases hw with
  | seq _ => rfl
  | leaf => rfl
  | @node target tag htarget =>
      have hiff := htarget.isOf .statement
      rw [Demand.missed?_statement]
      cases target with
      | statement s =>
          rw [if_pos (hiff.2 rfl)]
          exact foreseen_ok trivial
      | suspension s =>
          -- no rule makes a suspension, so no tag promises one
          obtain ⟨form, -, hcategory, -⟩ := htarget
          exact absurd hcategory (by simp [Target.category?])
      | _ =>
          rw [if_neg (fun h => absurd (hiff.1 h) (by simp [Target.category?]))]
          rfl

theorem meets_statement : Meets .statement (fun _ _ => True) .statement :=
  fun w o hw => (meets_step w o hw).finish fun _ _ => foreseen_ok trivial

/-- **A sequence** is refused with one and the same error, whichever item is refused. -/
theorem foreseen_mapM {shape : Shape} {good : Walked String → Bool}
    {item : Walked Target → Except Shape α}
    (hitem : ∀ w o, Shows w o →
      Foreseen (if good o then none else some shape) (fun _ => True) (item w))
    {ws : List (Walked Target)} {outlines : List (Walked String)} (h : ShowsAll ws outlines) :
    Foreseen (if outlines.all good then none else some shape)
      (fun xs : List α => xs.length = outlines.length) (ws.mapM item) := by
  induction outlines generalizing ws with
  | nil =>
      cases h
      exact foreseen_ok rfl
  | cons o outlines ih =>
      obtain _ | @⟨w, _, ws, _, hw, hws⟩ := h
      have hfirst := hitem w o hw
      rw [List.mapM_cons, List.all_cons]
      cases hgood : good o with
      | false =>
          -- the items behind are not looked at, and their errors would be the same
          rw [hgood] at hfirst
          show (item w >>= _) = .error _
          rw [show item w = .error _ from hfirst]
          rfl
      | true =>
          rw [hgood] at hfirst
          refine hfirst.bind fun x _ => (ih hws).finish fun xs hxs => foreseen_ok ?_
          rw [List.length_cons, List.length_cons, hxs]

/-- Statements are read one by one, as statements or as steps. -/
theorem meets_statements {item : Reading α} (hitem : Meets .statement (fun _ _ => True) item) :
    Meets .statements (fun _ _ => True) (.each .statements item) := by
  intro w o hw
  cases hw with
  | seq h =>
      refine (foreseen_mapM (fun w o hw => ?_) h).mono fun _ _ => trivial
      rw [← Demand.missed?_statement]
      exact hitem w o hw
  | node _ => rfl
  | leaf => rfl

theorem foreseen_name {w : Walked Target} {o : Walked String} (hw : Shows w o) :
    Foreseen (if o.isName then none else some .identifiers) (fun _ => True) (Reading.name w) := by
  cases hw with
  | seq _ => rfl
  | leaf => rfl
  | @node target tag htarget =>
      have hiff := htarget.isName
      by_cases hname : ∃ x, target = .expression (.identifier x)
      · rw [if_pos (hiff.2 hname)]
        obtain ⟨x, rfl⟩ := hname
        exact foreseen_ok trivial
      · rw [if_neg (fun h => hname (hiff.1 h))]
        -- seen from the tag alone it is no identifier, so nothing can be read out of it
        have hnone : (Walked.node target).name? = none := by
          unfold Walked.name?
          split
          next x heq => exact absurd ⟨x, Walked.node.inj heq⟩ hname
          next => rfl
        show Reading.only _ _ _ = _
        unfold Reading.only
        rw [hnone]

/-- There are as many names as there are items to name them. -/
theorem meets_names :
    Meets .names (fun o xs => ∃ items, o = .seq items ∧ xs.length = items.length) .names := by
  intro w o hw
  cases hw with
  | seq h =>
      exact (foreseen_mapM (fun _ _ => foreseen_name) h).mono fun xs hxs => ⟨_, rfl, hxs⟩
  | node _ => rfl
  | leaf => rfl

section Fields

variable {f : Fields} {os : List (String × Walked String)}

/-- The check of a field that is there is about its shape. -/
theorem Check.failure?_present {tag : Tag} {name : String} {demand : Demand} {o : Walked String}
    (ho : Record.find? name os = some o) :
    (Check.field name demand).failure? tag os =
      (demand.missed? o).map (.unexpectedShape tag name) := by
  unfold Check.failure?
  dsimp only
  rw [ho]

/-- The check of a field that is not there fails, unless it is that of a branch. -/
theorem Check.failure?_absent {tag : Tag} {name : String} {demand : Demand}
    (ho : Record.find? name os = none) :
    (Check.field name demand).failure? tag os =
      if demand = .branch then none else some (.missingField tag name) := by
  unfold Check.failure?
  dsimp only
  rw [ho]

/-- **One field**: what is foreseen of a field that has to be there is what its outline foresees. -/
theorem Meets.read {demand : Demand} {P : Walked String → α → Prop} {r : Reading α}
    (h : Meets demand P r) (hd : demand ≠ .branch) (hf : ShowsFields f.fields os)
    (name : String) :
    Foreseen ((Check.field name demand).failure? f.tag os)
      (fun x => ∃ o, Record.find? name os = some o ∧ P o x) (f.read name r) := by
  rcases hf.find? name with ⟨hw, ho⟩ | ⟨w, o, hw, ho, hshows⟩
  · rw [Check.failure?_absent ho, Fields.read_of_find?_none hw, if_neg hd]
    rfl
  · rw [Check.failure?_present ho, Fields.read_of_find? hw]
    exact ((h w o hshows).mapError _).mono fun x hx => ⟨o, ho, hx⟩

/-- A branch may be absent or null, and has to be a statement otherwise. -/
theorem Meets.readOr {P : Walked String → α → Prop} {r : Reading α} (h : Meets .statement P r)
    (hf : ShowsFields f.fields os) (name : String) (default : α) :
    Foreseen ((Check.field name .branch).failure? f.tag os) (fun _ => True)
      (f.readOr name r default) := by
  unfold Fields.readOr
  rcases hf.find? name with ⟨hw, ho⟩ | ⟨w, o, hw, ho, hshows⟩
  · rw [Check.failure?_absent ho, hw]
    exact foreseen_ok trivial
  · have hstatement : Foreseen ((Demand.statement.missed? o).map (.unexpectedShape f.tag name))
        (fun _ => True) (f.read name r) := by
      rw [Fields.read_of_find? hw]
      exact ((h w o hshows).mapError _).mono fun _ _ => trivial
    rw [Check.failure?_present ho, hw]
    cases hshows with
    | seq _ => exact hstatement
    | node _ => exact hstatement
    -- a null is no branch at all, and any other leaf is a branch of the wrong shape
    | @leaf value =>
        cases value with
        | null => exact foreseen_ok trivial
        | _ => exact hstatement

/-! ## §5. Rules -/

/-- What the rule of a form gives. -/
def RuleGives (form : Tag) (target : Target) : Prop :=
  target.category? = some form.category ∧
    ((∃ x, target = .expression (.identifier x)) ↔ form = .identifier)

/-- The name of a type is looked up after it was read as a text. -/
theorem foreseen_valueType {name s : String} {tag : Tag}
    (hs : ∃ o, Record.find? name os = some o ∧ o = .leaf (.string s)) :
    Foreseen ((Check.typeName name).failure? tag os) (fun _ => True) (valueType s) := by
  obtain ⟨_, hs, rfl⟩ := hs
  unfold Check.failure? valueType
  dsimp only
  rw [hs]
  dsimp only
  cases ValueType.ofName? s with
  | none => rfl
  | some type => exact foreseen_ok trivial

/-- A declaration is refused when the sequence of its names is empty. -/
theorem foreseen_someName {name : String} {tag : Tag} {xs : List String} {type : ValueType}
    (hxs : ∃ o, Record.find? name os = some o ∧
      ∃ items, o = .seq items ∧ xs.length = items.length) :
    Foreseen ((Check.someName name).failure? tag os) (RuleGives .declaration)
      (if xs.isEmpty then .error .emptyDeclaration
        else .ok (.statement (declareAll type xs))) := by
  obtain ⟨_, hitems, items, rfl, hlength⟩ := hxs
  unfold Check.failure?
  dsimp only
  rw [hitems]
  cases items with
  | nil =>
      obtain rfl := List.length_eq_zero_iff.1 hlength
      rfl
  -- as many names as items, so there is a name where there is an item
  | cons o items =>
      cases xs with
      | nil => exact absurd hlength (by simp)
      | cons x xs => exact foreseen_ok ⟨rfl, by simp⟩

/-- **THE FAILURE OF A RULE IS THAT OF ITS FIRST FAILING CHECK.** -/
theorem foreseen_rule (names : Naming) (hf : ShowsFields f.fields os) :
    Foreseen ((checks f.tag).findSome? (·.failure? f.tag os)) (RuleGives f.tag)
      (rule names f) := by
  obtain ⟨form, fields⟩ := f
  -- in each case the steps of the rule are the checks of the form, in the same order
  cases form <;> simp only [checks, findSome?_cons_or, List.findSome?_nil, Option.or_none]
  case program =>
    refine ((meets_statements meets_statement).read (by decide) hf _).bind fun _ _ => ?_
    exact (meets_step.read (by decide) hf _).finish fun _ _ => foreseen_ok ⟨rfl, by simp⟩
  case declaration =>
    refine (meets_names.read (by decide) hf _).bind fun xs hxs => ?_
    refine (meets_text.read (by decide) hf _).bind fun s hs => ?_
    exact (foreseen_valueType hs).bind fun type _ => foreseen_someName hxs
  case block =>
    exact ((meets_statements meets_step).read (by decide) hf _).finish fun _ _ =>
      foreseen_ok ⟨rfl, by simp⟩
  case identifier =>
    exact (meets_text.read (by decide) hf _).finish fun _ _ => foreseen_ok ⟨rfl, by simp⟩
  case literal =>
    exact (meets_scalar.read (by decide) hf _).finish fun _ _ => foreseen_ok ⟨rfl, by simp⟩
  case assignment =>
    refine (meets_expression.read (by decide) hf _).bind fun _ _ => ?_
    exact (meets_expression.read (by decide) hf _).finish fun _ _ => foreseen_ok ⟨rfl, by simp⟩
  case read =>
    exact foreseen_ok ⟨rfl, by simp [callRuntime]⟩
  case output =>
    exact (meets_expression.read (by decide) hf _).finish fun _ _ => foreseen_ok ⟨rfl, by simp⟩
  case unary =>
    refine (meets_text.read (by decide) hf _).bind fun _ _ => ?_
    exact (meets_expression.read (by decide) hf _).finish fun _ _ => foreseen_ok ⟨rfl, by simp⟩
  case binary =>
    refine (meets_text.read (by decide) hf _).bind fun _ _ => ?_
    refine (meets_expression.read (by decide) hf _).bind fun _ _ => ?_
    exact (meets_expression.read (by decide) hf _).finish fun _ _ => foreseen_ok ⟨rfl, by simp⟩
  case loop =>
    refine (meets_expression.read (by decide) hf _).bind fun _ _ => ?_
    exact (meets_statement.read (by decide) hf _).finish fun _ _ => foreseen_ok ⟨rfl, by simp⟩
  case conditional =>
    refine (meets_expression.read (by decide) hf _).bind fun _ _ => ?_
    refine (meets_statement.readOr hf _ _).bind fun _ _ => ?_
    exact (meets_statement.readOr hf _ _).finish fun _ _ => foreseen_ok ⟨rfl, by simp⟩

end Fields

/-! ## §6. Trees -/

/-- A node without a known form is refused for its tag, and every other by its rule. -/
theorem foreseen_lowerNode (names : Naming) {tag : String} {ws : List (String × Walked Target)}
    {os : List (String × Walked String)} (h : ShowsFields ws os) :
    Foreseen (violation? tag os) (TargetOf tag) (lowerNode names tag ws) := by
  unfold violation? lowerNode
  cases hform : Tag.ofName? tag with
  | none => rfl
  | some form =>
      refine (foreseen_rule (f := ⟨form, ws⟩) names h).mono fun target htarget => ?_
      exact ⟨form, hform, htarget⟩

theorem firstViolation?_append (a b : List (String × List (String × Tree))) :
    firstViolation? (a ++ b) = (firstViolation? a).or (firstViolation? b) :=
  List.findSome?_append

mutual

/-- **A WALK FAILS AT THE FIRST NODE THAT FAILS BY ITSELF**, and otherwise leaves of each node what
    its tag foresees. -/
theorem foreseen_walk (names : Naming) : ∀ t : Tree,
    Foreseen (firstViolation? t.nodes) (fun w => Shows w t.outline) (t.walk (lowerNode names))
  | .seq items => by
      rw [Tree.nodes, Tree.walk]
      exact (foreseen_walkItems names items).finish fun _ hws => foreseen_ok (.seq hws)
  | .node tag fields => by
      -- all fields are walked before the node, those that its rule ignores included
      rw [Tree.nodes, Tree.walk, firstViolation?_append]
      refine (foreseen_walkFields names fields).bind fun ws hws => ?_
      have hnode : firstViolation? [(tag, fields)] =
          violation? tag (Tree.outlineFields fields) := by
        unfold firstViolation?
        rw [findSome?_cons_or, List.findSome?_nil, Option.or_none]
      rw [hnode]
      exact (foreseen_lowerNode names hws).finish fun _ htarget => foreseen_ok (.node htarget)
  | .leaf value => by
      rw [Tree.walk]
      exact foreseen_ok .leaf

/-- Items are walked from left to right, so the first failure is that of the first that fails. -/
theorem foreseen_walkItems (names : Naming) : ∀ items : List Tree,
    Foreseen (firstViolation? (Tree.nodesOfItems items))
      (fun ws => ShowsAll ws (Tree.outlineItems items)) (Tree.walkItems (lowerNode names) items)
  | [] => by
      rw [Tree.walkItems]
      exact foreseen_ok .nil
  | t :: items => by
      rw [Tree.nodesOfItems, Tree.walkItems, firstViolation?_append]
      exact (foreseen_walk names t).bind fun _ hw =>
        (foreseen_walkItems names items).finish fun _ hws => foreseen_ok (.cons hw hws)

/-- Fields are walked in their order, those that no rule asks for among them. -/
theorem foreseen_walkFields (names : Naming) : ∀ fields : List (String × Tree),
    Foreseen (firstViolation? (Tree.nodesOfFields fields))
      (fun ws => ShowsFields ws (Tree.outlineFields fields))
      (Tree.walkFields (lowerNode names) fields)
  | [] => by
      rw [Tree.walkFields]
      exact foreseen_ok .nil
  | (name, t) :: fields => by
      rw [Tree.nodesOfFields, Tree.walkFields, firstViolation?_append]
      exact (foreseen_walk names t).bind fun _ hw =>
        (foreseen_walkFields names fields).finish fun _ hws => foreseen_ok (.cons hw hws)

end

end Lowering

/-- The verdict on a tree is what lowering makes of it. -/
theorem Tree.map_lower_eq (names : Naming) (t : Tree) :
    (t.lower names).map Target.category? = t.verdict.map some := by
  have hwalk := Lowering.foreseen_walk names t
  unfold Tree.verdict Tree.lower
  cases hfirst : Lowering.firstViolation? t.nodes with
  | some e =>
      rw [hfirst] at hwalk
      rw [show t.walk (Lowering.lowerNode names) = .error e from hwalk]
      rfl
  -- nothing is violated, so the walk gives what the tag at the root promises
  | none =>
      rw [hfirst] at hwalk
      obtain ⟨w, hw, hshows⟩ := hwalk
      rw [hw]
      cases t with
      | seq items =>
          obtain ⟨-⟩ := hshows
          rfl
      | leaf value =>
          obtain ⟨-⟩ := hshows
          rfl
      | node tag fields =>
          obtain - | ⟨form, hform, hcategory, -⟩ := hshows
          dsimp only
          rw [hform]
          exact congrArg Except.ok hcategory

/-- **WHETHER AND WHY A TREE IS REFUSED IS DECIDED NODE BY NODE**: lowering fails with the error of
    the first failing check of the first node that has one, in the order of the walk; a tree without
    such a node is refused for a root that is no node, and otherwise becomes what the tag of its root
    says.  The choice of names changes nothing of this. -/
theorem Tree.lower_outcome (names : Naming) (t : Tree) :
    (t.lower names).map Target.category? = t.verdict.map some ∧
      ∀ other : Naming,
        (t.lower other).map Target.category? = (t.lower names).map Target.category? := by
  refine ⟨t.map_lower_eq names, ?_⟩
  intro other
  rw [t.map_lower_eq other, t.map_lower_eq names]

end TinyLang
