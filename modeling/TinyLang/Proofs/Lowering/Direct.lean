/-
  TinyLang.Proofs.Lowering.Direct — the script of a program, by recursion on the program.

  Lowering walks a syntax tree from the leaves up and looks every field up by its name.  On
  the tree of a program all this comes down to one recursion on the program:

      (p.toTree mark).lowerProgram names = .ok (p.toScript names)

  whatever is written down for the notes of its nodes.
-/

import TinyLang.Compile

namespace TinyLang

variable {α : Type}

/-! ## §1. The script of a program -/

/-- The literal of a script that a literal becomes. -/
def Literal.toScript : Literal → Script.Literal
  | .null => .null
  | .bool b => .bool b
  | .integer n => .integer n.toInt
  | .string s => .string s

/-- The expression of a script that an expression becomes. -/
def Expr.toScript (names : Naming) : Expr α → Script.Expr
  | .name x => .identifier (names.rename x.name)
  | .literal _ value => .literal value.toScript
  | .read _ => Lowering.callRuntime names Naming.readMember []
  | .unary _ op e => .unary .before op (e.toScript names)
  | .binary _ op e f => .binary op (e.toScript names) (f.toScript names)

mutual

/-- The statement of a script that a statement becomes. -/
def Stmt.toScript (names : Naming) : Stmt α → Script.Stmt
  | .block _ body => .block (Stmt.toScripts names body)
  | .assign _ x e =>
    .expression (.assign "=" (.identifier (names.rename x.name)) (e.toScript names))
  | .output _ e =>
    .expression (Lowering.callRuntime names Naming.outputMember [e.toScript names])
  | .loop _ e s => .loop (e.toScript names) (s.toScript names)
  | .choice _ e s t =>
    .choice (e.toScript names) (Stmt.branchScript names s) (some (Stmt.branchScript names t))

/-- The statements of a script that statements become. -/
def Stmt.toScripts (names : Naming) : List (Stmt α) → List Script.Stmt
  | [] => []
  | s :: body => s.toScript names :: Stmt.toScripts names body

/-- The statement of a script that a branch becomes, which is empty if the branch is absent. -/
def Stmt.branchScript (names : Naming) : Option (Stmt α) → Script.Stmt
  | none => .empty
  | some s => s.toScript names

end

/-- The declaration of a script that a declaration becomes. -/
def Declaration.toScript (names : Naming) (d : Declaration α) : Script.Stmt :=
  Lowering.declareAll d.type (d.names.map fun x => names.rename x.name)

/-- The script that a program becomes: the runtime is loaded, the variables are declared, and the
    body runs. -/
def Program.toScript (names : Naming) (p : Program α) : List Script.Stmt :=
  Lowering.importRuntime names :: p.declarations.map (·.toScript names) ++
    [p.body.toScript names]

/-! ## §2. One node -/

namespace Lowering

/-- What a node carries behind the fields of its form. -/
def extra (place : Option Json) : List (String × Walked Target) :=
  match place with
  | some place => [(Tree.locationKey, .leaf place)]
  | none => []

/-- A node with the name of a form is lowered by the rule of the form. -/
theorem lowerNode_name (names : Naming) (tag : Tag) (fields : List (String × Walked Target)) :
    lowerNode names tag.name fields = rule names ⟨tag, fields⟩ := by
  unfold lowerNode
  rw [Tag.ofName?_name]

/-- Two runs of fields that can be walked can be walked in a row. -/
theorem walkFields_append (visit : String → List (String × Walked Target) → Except LoweringError Target)
    {a b : List (String × Tree)} {va vb : List (String × Walked Target)}
    (ha : Tree.walkFields visit a = .ok va) (hb : Tree.walkFields visit b = .ok vb) :
    Tree.walkFields visit (a ++ b) = .ok (va ++ vb) := by
  induction a generalizing va with
  | nil =>
      injection ha with ha
      subst ha
      exact hb
  | cons field a ih =>
      obtain ⟨n, t⟩ := field
      simp only [Tree.walkFields] at ha
      simp only [List.cons_append, Tree.walkFields]
      cases ht : t.walk visit with
      | error e =>
          rw [ht] at ha
          exact absurd ha (by simp [bind, Except.bind])
      | ok w =>
          rw [ht] at ha
          cases hr : Tree.walkFields visit a with
          | error e =>
              rw [hr] at ha
              exact absurd ha (by simp [bind, Except.bind])
          | ok vs =>
              rw [hr] at ha
              injection ha with ha
              subst ha
              show (Tree.walkFields visit (a ++ b) >>= _) = _
              rw [ih hr]
              rfl

theorem walkFields_cons {visit : String → List (String × Walked Target) → Except LoweringError Target}
    {name : String} {t : Tree} {w : Walked Target} {fields : List (String × Tree)}
    {walked : List (String × Walked Target)} (ht : t.walk visit = .ok w)
    (hf : Tree.walkFields visit fields = .ok walked) :
    Tree.walkFields visit ((name, t) :: fields) = .ok ((name, w) :: walked) := by
  unfold Tree.walkFields
  rw [ht]
  show (Tree.walkFields visit fields >>= _) = _
  rw [hf]
  rfl

theorem walkItems_cons {visit : String → List (String × Walked Target) → Except LoweringError Target}
    {t : Tree} {w : Walked Target} {items : List Tree} {walked : List (Walked Target)}
    (ht : t.walk visit = .ok w) (hi : Tree.walkItems visit items = .ok walked) :
    Tree.walkItems visit (t :: items) = .ok (w :: walked) := by
  unfold Tree.walkItems
  rw [ht]
  show (Tree.walkItems visit items >>= _) = _
  rw [hi]
  rfl

theorem walkItems_map {visit : String → List (String × Walked Target) → Except LoweringError Target}
    {β : Type} {f : β → Tree} {g : β → Walked Target} (h : ∀ x, (f x).walk visit = .ok (g x))
    (xs : List β) : Tree.walkItems visit (xs.map f) = .ok (xs.map g) := by
  induction xs with
  | nil => rfl
  | cons x xs ih => exact walkItems_cons (h x) ih

theorem walk_seq {visit : String → List (String × Walked Target) → Except LoweringError Target}
    {items : List Tree} {walked : List (Walked Target)}
    (hi : Tree.walkItems visit items = .ok walked) :
    (Tree.seq items).walk visit = .ok (.seq walked) := by
  unfold Tree.walk
  rw [hi]
  rfl

/-- **One node of a known form**: its fields are walked, its rule is applied to them, and what is
    written down for its note stands behind them. -/
theorem walk_mark {names : Naming} {tag : Tag} {fields : List (String × Tree)}
    {walked : List (String × Walked Target)} {place : Option Json} {target : Target}
    (hf : Tree.walkFields (lowerNode names) fields = .ok walked)
    (hl : Record.find? Tree.locationKey fields = none)
    (hr : rule names ⟨tag, walked ++ extra place⟩ = .ok target) :
    ((Tree.ofTag tag fields).mark place).walk (lowerNode names) = .ok (.node target) := by
  -- the place, if there is one, is one more field behind those of the form
  have hfields : ∀ more : List (String × Tree),
      Tree.walkFields (lowerNode names) more = .ok (extra place) →
      (Tree.node tag.name (fields ++ more)).walk (lowerNode names) = .ok (.node target) := by
    intro more hmore
    unfold Tree.walk
    rw [walkFields_append _ hf hmore]
    show (lowerNode names tag.name (walked ++ extra place) >>= _) = _
    rw [lowerNode_name, hr]
    rfl
  cases place with
  | none =>
      have h := hfields [] rfl
      rw [List.append_nil] at h
      exact h
  | some place =>
      have h := hfields [(Tree.locationKey, .leaf place)] rfl
      show (Tree.node tag.name (Record.put Tree.locationKey (.leaf place) fields)).walk _ = _
      rw [Record.put_of_find?_none hl]
      exact h

end Lowering

/-! ## §3. Expressions and statements -/

open Lowering

/-- A name becomes the variable with its renamed name. -/
theorem Identifier.walk_toTree (names : Naming) (mark : α → Option Json) (x : Identifier α) :
    (x.toTree mark).walk (lowerNode names) =
      .ok (.node (.expression (.identifier (names.rename x.name)))) := by
  refine walk_mark (walkFields_cons rfl rfl) (by rfl) ?_
  cases mark x.note <;> rfl

/-- A literal of a program is the same literal in the script, since its integers are small enough.
    -/
theorem toLiteral?_toJson (value : Literal) : value.toJson.toLiteral? = some value.toScript := by
  cases value with
  | null => rfl
  | bool b => rfl
  | string s => rfl
  | integer n =>
      have hlt : n.toInt < 0x8000000000000000 := n.toInt_lt
      show some (if n.toInt < 0x8000000000000000 then _ else _) = _
      rw [if_pos hlt]
      rfl

/-- A field that is there gives what the tree in it is read as. -/
theorem Fields.read_eq_ok {β : Type} {f : Fields} {name : String} {w : Walked Target}
    {r : Reading β} {x : β} (hfield : Record.find? name f.fields = some w) (hr : r w = .ok x) :
    f.read name r = .ok x := by
  rw [Fields.read_of_find? hfield, hr]
  rfl

theorem rule_literal (names : Naming) (value : Literal) (place : Option Json) :
    rule names ⟨.literal, [("value", .leaf value.toJson)] ++ extra place⟩ =
      .ok (.expression (.literal value.toScript)) := by
  have hread : Reading.scalar (.leaf value.toJson) = .ok value.toScript := by
    unfold Reading.scalar Reading.only Walked.scalar?
    dsimp only
    rw [toLiteral?_toJson]
  show (Fields.read _ "value" .scalar >>= _) = _
  rw [Fields.read_eq_ok rfl hread]
  rfl

/-- The walk of an expression's tree gives the expression of the script. -/
theorem Expr.walk_toTree (names : Naming) (mark : α → Option Json) (e : Expr α) :
    (e.toTree mark).walk (lowerNode names) = .ok (.node (.expression (e.toScript names))) := by
  induction e with
  | name x => exact x.walk_toTree names mark
  | literal note value =>
      exact walk_mark (walkFields_cons rfl rfl) (by rfl) (rule_literal names value (mark note))
  | read note =>
      refine walk_mark rfl (by rfl) ?_
      cases mark note <;> rfl
  | unary note op e ih =>
      refine walk_mark (walkFields_cons rfl (walkFields_cons ih rfl)) (by rfl) ?_
      cases mark note <;> rfl
  -- the fields come out walked, and the rule is run on them with the mark or without it
  | binary note op e f ihe ihf =>
      refine walk_mark (walkFields_cons rfl (walkFields_cons ihe (walkFields_cons ihf rfl)))
        (by rfl) ?_
      cases mark note <;> rfl

/-- What the walk leaves of a branch. -/
def walkedBranch (names : Naming) : Option (Stmt α) → Walked Target
  | none => .leaf .null
  | some s => .node (.statement (s.toScript names))

/-- What the walk leaves of a list of statements. -/
def walkedBody (names : Naming) (body : List (Stmt α)) : List (Walked Target) :=
  (Stmt.toScripts names body).map fun s => .node (.statement s)

/-- A reading that succeeds on each item succeeds on the sequence. -/
theorem each_map_eq_ok {β γ : Type} {item : Reading γ} {f : β → Walked Target} {g : β → γ}
    (hitem : ∀ x, item (f x) = .ok (g x)) (shape : Shape) (xs : List β) :
    Reading.each shape item (.seq (xs.map f)) = .ok (xs.map g) := by
  show (xs.map f).mapM (fun w => item w) = .ok (xs.map g)
  induction xs with
  | nil => rfl
  | cons x xs ih =>
      rw [List.map_cons, List.mapM_cons, hitem, ih]
      rfl

/-- No statement of a program waits, so a block becomes the block of its statements. -/
theorem rule_block (names : Naming) (body : List Script.Stmt) (place : Option Json) :
    rule names ⟨.block, [("body", .seq (body.map fun s => .node (.statement s)))] ++ extra place⟩ =
      .ok (.statement (.block body)) := by
  have hsteps : Reading.steps (.seq (body.map fun s => .node (.statement s))) =
      .ok (body.map Step.now) := each_map_eq_ok (by intro _; rfl) _ body
  show (Fields.read _ "body" .steps >>= _) = _
  rw [Fields.read_eq_ok rfl hsteps]
  show Except.ok (Target.statement (.block (expand (body.map Step.now)))) = _
  rw [expand_map_now]

/-- A branch is read as it is, and as the empty statement where there is none. -/
theorem readOr_walkedBranch (names : Naming) (f : Fields) (name : String) (s : Option (Stmt α))
    (h : Record.find? name f.fields = some (walkedBranch names s)) :
    f.readOr name .statement .empty = .ok (Stmt.branchScript names s) := by
  unfold Fields.readOr
  rw [h]
  cases s with
  | none => rfl
  | some s => exact Fields.read_eq_ok h rfl

/-- A choice has two branches in the script, however many it had in the program. -/
theorem rule_conditional (names : Naming) (e : Script.Expr) (s t : Option (Stmt α))
    (place : Option Json) :
    rule names ⟨.conditional, [("test", .node (.expression e)),
        ("consequent", walkedBranch names s), ("alternate", walkedBranch names t)] ++
          extra place⟩ =
      .ok (.statement (.choice e (Stmt.branchScript names s)
        (some (Stmt.branchScript names t)))) := by
  show (Fields.readOr _ "consequent" .statement .empty >>= _) = _
  rw [readOr_walkedBranch names _ "consequent" s rfl]
  show (Fields.readOr _ "alternate" .statement .empty >>= _) = _
  rw [readOr_walkedBranch names _ "alternate" t rfl]
  rfl

mutual

/-- The walk of a statement's tree gives the statement of the script. -/
theorem Stmt.walk_toTree (names : Naming) (mark : α → Option Json) : ∀ s : Stmt α,
    (s.toTree mark).walk (lowerNode names) = .ok (.node (.statement (s.toScript names)))
  | .block note body => by
      refine walk_mark (walkFields_cons (walk_seq (Stmt.walk_toTrees names mark body)) rfl)
        (by rfl) ?_
      exact rule_block names (Stmt.toScripts names body) (mark note)
  | .assign note x e => by
      refine walk_mark (walkFields_cons (x.walk_toTree names mark)
        (walkFields_cons (e.walk_toTree names mark) rfl)) (by rfl) ?_
      cases mark note <;> rfl
  | .output note e => by
      refine walk_mark (walkFields_cons (e.walk_toTree names mark) rfl) (by rfl) ?_
      cases mark note <;> rfl
  | .loop note e s => by
      refine walk_mark (walkFields_cons (e.walk_toTree names mark)
        (walkFields_cons (Stmt.walk_toTree names mark s) rfl)) (by rfl) ?_
      cases mark note <;> rfl
  | .choice note e s t => by
      refine walk_mark (walkFields_cons (e.walk_toTree names mark)
        (walkFields_cons (Stmt.walk_toTree? names mark s)
          (walkFields_cons (Stmt.walk_toTree? names mark t) rfl))) (by rfl) ?_
      exact rule_conditional names _ s t (mark note)

/-- The walk of the trees of statements gives the statements of the script. -/
theorem Stmt.walk_toTrees (names : Naming) (mark : α → Option Json) : ∀ body : List (Stmt α),
    Tree.walkItems (lowerNode names) (Stmt.toTrees mark body) = .ok (walkedBody names body)
  | [] => rfl
  | s :: body =>
      walkItems_cons (Stmt.walk_toTree names mark s) (Stmt.walk_toTrees names mark body)

/-- The walk of a branch leaves its statement, or the leaf that stands for none. -/
theorem Stmt.walk_toTree? (names : Naming) (mark : α → Option Json) : ∀ s : Option (Stmt α),
    ((Stmt.toTree? mark s).getD Tree.null).walk (lowerNode names) = .ok (walkedBranch names s)
  | none => rfl
  | some s => Stmt.walk_toTree names mark s

end

theorem Stmt.lower_toTree (names : Naming) (mark : α → Option Json) (s : Stmt α) :
    (s.toTree mark).lower names = .ok (.statement (s.toScript names)) := by
  unfold Tree.lower
  rw [s.walk_toTree names mark]
  rfl

/-! ## §4. Programs -/

theorem walkItems_names (names : Naming) (mark : α → Option Json) (xs : List (Identifier α)) :
    Tree.walkItems (lowerNode names) (xs.map (·.toTree mark)) =
      .ok (xs.map fun x => .node (.expression (.identifier (names.rename x.name)))) :=
  walkItems_map (fun x => x.walk_toTree names mark) xs

/-- A declaration becomes one of the same names, in the same order. -/
theorem rule_declaration (names : Naming) (type : ValueType) (first : String)
    (others : List String) (place : Option Json) :
    rule names ⟨.declaration, [("ids", .seq ((first :: others).map fun x =>
        .node (.expression (.identifier x)))), ("valueType", .leaf (.string type.name))] ++
          extra place⟩ =
      .ok (.statement (declareAll type (first :: others))) := by
  have hnames : Reading.names (.seq ((first :: others).map fun x =>
      .node (.expression (.identifier x)))) = .ok ((first :: others).map id) :=
    each_map_eq_ok (by intro _; rfl) _ (first :: others)
  rw [List.map_id] at hnames
  show (Fields.read _ "ids" .names >>= _) = _
  rw [Fields.read_eq_ok rfl hnames]
  show (valueType type.name >>= _) = _
  unfold valueType
  rw [ValueType.ofName?_name]
  rfl

/-- The walk of a declaration's tree gives the declaration of the script. -/
theorem Declaration.walk_toTree (names : Naming) (mark : α → Option Json) (d : Declaration α) :
    (d.toTree mark).walk (lowerNode names) = .ok (.node (.statement (d.toScript names))) := by
  refine walk_mark (walkFields_cons (walk_seq (walkItems_names names mark d.names))
    (walkFields_cons rfl rfl)) (by rfl) ?_
  have h := rule_declaration names d.type (names.rename d.first.name)
    (d.others.map fun x => names.rename x.name) (mark d.note)
  rw [List.map_cons, List.map_map] at h
  exact h

theorem walkItems_declarations (names : Naming) (mark : α → Option Json)
    (ds : List (Declaration α)) :
    Tree.walkItems (lowerNode names) (ds.map (·.toTree mark)) =
      .ok ((ds.map (·.toScript names)).map fun s => .node (.statement s)) := by
  rw [List.map_map]
  exact walkItems_map (fun d => d.walk_toTree names mark) ds

/-- A program becomes the import, its declarations and its body, in this order. -/
theorem rule_program (names : Naming) (ds : List Script.Stmt) (s : Script.Stmt)
    (place : Option Json) :
    rule names ⟨.program, [("declarations", .seq (ds.map fun s => .node (.statement s))),
        ("body", .node (.statement s))] ++ extra place⟩ =
      .ok (.program (importRuntime names :: ds ++ [s])) := by
  have hstatements : Reading.statements (.seq (ds.map fun s => .node (.statement s))) =
      .ok (ds.map id) := each_map_eq_ok (by intro _; rfl) _ ds
  rw [List.map_id] at hstatements
  show (Fields.read _ "declarations" .statements >>= _) = _
  rw [Fields.read_eq_ok rfl hstatements]
  rfl

/-- **LOWERING IS ONE RECURSION ON THE PROGRAM**: its tree is never refused, and becomes the script
    of the program, whatever is written down for its notes. -/
theorem Program.lowerProgram_toTree (names : Naming) (mark : α → Option Json) (p : Program α) :
    (p.toTree mark).lowerProgram names = .ok (p.toScript names) := by
  have hwalk : (p.toTree mark).walk (lowerNode names) = .ok (.node (.program (p.toScript names))) := by
    refine walk_mark (walkFields_cons (walk_seq (walkItems_declarations names mark p.declarations))
      (walkFields_cons (p.body.walk_toTree names mark) rfl)) (by rfl) ?_
    exact rule_program names _ _ (mark p.note)
  unfold Tree.lowerProgram Tree.lower
  rw [hwalk]
  rfl

/-! ## §5. Compiling -/

/-- Compiling the tree of a program prints its script. -/
theorem Program.compile_toTree (names : Naming) (mark : α → Option Json) (p : Program α) :
    (p.toTree mark).compile names =
      .ok (Script.print Script.defaultWidth (p.toScript names)) := by
  unfold Tree.compile
  rw [p.lowerProgram_toTree names mark]

/-- A source text with a program compiles to the printed script of the program. -/
theorem compileSource_eq (names : Naming) {source : String} {p : Program Location}
    (hp : Program.parse source = .ok p) :
    compileSource names source =
      .ok (Script.print Script.defaultWidth (p.toScript names)) := by
  unfold compileSource Tree.parse
  rw [hp]
  exact p.compile_toTree names _

/-- A source text without a program fails to compile with its syntax error. -/
theorem compileSource_eq_error (names : Naming) {source : String} {e : SyntaxError}
    (he : Program.parse source = .error e) :
    compileSource names source = .error (.syntaxError e) := by
  unfold compileSource Tree.parse
  rw [he]
  rfl

/-- **THE WALK IS A DIRECT COMPILER**: under every choice of names, the tree of every program,
    whatever is written down for the notes of its nodes, becomes a script that loads the runtime,
    declares the variables of each declaration in order with `0` or `false`, and runs the body.
    So a source text either compiles or fails with its syntax error. -/
theorem lowerProgram_built (names : Naming) :
    (∀ (α : Type) (mark : α → Option Json) (p : Program α),
      (p.toTree mark).lowerProgram names =
        .ok (.declare .varWord [(names.binding,
            some (.call (.identifier "require") [.literal (.string names.path)]))] ::
          p.declarations.map (fun d => .declare .varWord (d.names.map fun x =>
            (names.rename x.name,
              some (.literal (if d.type = .integer then .integer 0 else .bool false))))) ++
          [p.body.toScript names])) ∧
    ∀ source : String,
      (∃ e, Tree.parse source false = .error e ∧
        compileSource names source = .error (.syntaxError e)) ∨
      ∃ p, Program.parse source = .ok p ∧
        compileSource names source =
          .ok (Script.print Script.defaultWidth (p.toScript names)) := by
  -- all names of a declaration get the value their type starts with
  have hdeclaration : ∀ (α : Type) (d : Declaration α),
      d.toScript names = .declare .varWord (d.names.map fun x => (names.rename x.name,
        some (.literal (if d.type = .integer then .integer 0 else .bool false)))) := by
    intro α d
    unfold Declaration.toScript declareAll
    rw [List.map_map]
    cases d.type <;> rfl
  constructor
  · intro α mark p
    rw [p.lowerProgram_toTree names mark]
    unfold Program.toScript
    rw [List.map_congr_left fun d _ => hdeclaration α d]
    rfl
  · intro source
    cases hp : Program.parse source with
    | error e =>
        refine .inl ⟨e, ?_, compileSource_eq_error names hp⟩
        unfold Tree.parse
        rw [hp]
        rfl
    | ok p => exact .inr ⟨p, rfl, compileSource_eq names hp⟩

end TinyLang
