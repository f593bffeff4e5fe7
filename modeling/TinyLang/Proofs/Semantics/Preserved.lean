/-
  TinyLang.Proofs.Semantics.Preserved — scripts do what their programs do.

  A machine that runs a program and one that runs its script are RELATED when they have the
  same steps and inputs left and the same events behind them, when every variable holds the
  same data under its new name, and when the variable of the runtime holds the runtime.
  Every statement keeps machines related, so for every program, input and bound

      events, outcome and variables of   p.run   and   Script.run (p.toScript names)

  are the same.  Two facts about names carry this: renaming never takes the variable of the
  runtime, and it never takes the variable of the loader.
-/

import TinyLang.Proofs.Lowering.Direct
import TinyLang.Proofs.Names
import TinyLang.Proofs.Semantics.Run

namespace TinyLang

open Semantics

variable {α V : Type} {names : Naming}

/-! ## §1. Related machines -/

/-- A machine of a program and a machine of its script. -/
structure Related (names : Naming) (m : Machine V V) (n : Machine (Script.Value V) V) : Prop where
  steps : m.steps = n.steps
  inputs : m.inputs = n.inputs
  events : m.events = n.events
  store : ∀ x, n.store (names.rename x) = (m.store x).map .data
  binding : n.store names.binding = some .runtime

/-- A value of a script that is the data a program has. -/
def Stands (v : V) (w : Script.Value V) : Prop := w = .data v

/-- A variable is loaded under its renamed name, with the value that stands for its own. -/
theorem simulates_load (x : String) :
    Simulates (Related names) (Stands (V := V)) (load x) (load (names.rename x)) := by
  intro m n hmn
  unfold load
  rw [hmn.store x]
  cases m.store x with
  | none => exact ⟨.error, hmn⟩
  | some v => exact ⟨.ok rfl, hmn⟩

/-- A variable of the program is given a value under its new name: no other variable is touched,
    and not that of the runtime. -/
theorem simulates_save (hn : names.Accepted) (x : String) (v : V) :
    Simulates (Related names) Whatever (save x v) (save (names.rename x) (.data v)) := by
  intro m n hmn
  refine ⟨.ok trivial, hmn.steps, hmn.inputs, hmn.events, fun y => ?_, ?_⟩
  · show (if names.rename y = names.rename x then _ else n.store (names.rename y)) =
      (if y = x then some v else m.store y).map .data
    by_cases hyx : y = x
    · subst hyx
      rw [if_pos rfl, if_pos rfl]
      rfl
    · rw [if_neg (fun h => hyx (Naming.rename_inj.1 h)), if_neg hyx]
      exact hmn.store y
  · -- the binding of the runtime is not overwritten, since no renamed name is its own
    show (if names.binding = names.rename x then _ else n.store names.binding) = _
    rw [if_neg (Ne.symm (Naming.rename_ne hn.apart x))]
    exact hmn.binding

theorem simulates_takeInput :
    Simulates (Related names) Eq (takeInput : Act V V V) (takeInput : Act (Script.Value V) V V) := by
  intro m n hmn
  unfold takeInput
  rw [← hmn.inputs, ← hmn.events]
  cases m.inputs with
  | nil => exact ⟨.error, hmn⟩
  | cons v inputs => exact ⟨.ok rfl, hmn.steps, rfl, rfl, hmn.store, hmn.binding⟩

/-- Both machines output the same values, in the same order. -/
theorem simulates_emit (v : V) :
    Simulates (Related names) Whatever (emit v : Act V V Unit)
      (emit v : Act (Script.Value V) V Unit) := by
  intro m n hmn
  unfold emit
  rw [← hmn.events]
  exact ⟨.ok trivial, hmn.steps, hmn.inputs, rfl, hmn.store, hmn.binding⟩

/-- Both machines use up their steps at the same rate. -/
theorem simulates_step : Simulates (Related names) Whatever (tick : Act V V Unit)
    (tick : Act (Script.Value V) V Unit) :=
  simulates_tick (fun _ _ hmn => hmn.steps)
    (fun _ _ _ hmn => ⟨rfl, hmn.inputs, hmn.events, hmn.store, hmn.binding⟩)

/-- Behind the loading of the runtime the machines are related: no variable of the program has a
    value, because none is renamed to the loader or to the variable of the runtime. -/
theorem related_start (hn : names.Accepted)
    (hloader : ¬ names.stem.toList <+: Naming.loader.toList) (bound : Nat) (inputs : List V) :
    Related names ⟨bound, inputs, [], fun _ => none⟩
      ⟨bound, inputs, [], fun other => if other = names.binding then some .runtime
        else if other = Naming.loader then some .loader else none⟩ := by
  refine ⟨rfl, rfl, rfl, fun x => ?_, if_pos rfl⟩
  show (if names.rename x = names.binding then _ else if names.rename x = Naming.loader then _
    else none) = _
  rw [if_neg (Naming.rename_ne hn.apart x), if_neg (Naming.rename_ne hloader x)]
  rfl

/-! ## §2. Expressions -/

theorem Literal.eval_toScript (I : Interpretation V) (value : Literal) :
    value.toScript.eval I = value.eval I := by
  cases value <;> rfl

theorem demand_data_bind {σ β : Type} (v : V) (f : V → Act σ V β) :
    (demand (Script.Value.data v).data? >>= f) = f v := rfl

variable [DecidableEq V] {I : Interpretation V} {path : String}

/-- A call of a member of the runtime evaluates its arguments and calls the member. -/
theorem eval_callRuntime {n : Machine (Script.Value V) V}
    (hn : n.store names.binding = some .runtime) {member : String} {f : Script.Value V}
    (hf : Script.Value.runtime.member? member = some f) (arguments : List Script.Expr) :
    (Lowering.callRuntime names member arguments).eval I path n =
      (do
        let values ← Script.Expr.evalAll I path arguments
        f.call I path values) n := by
  have hload : (load names.binding : Act (Script.Value V) V (Script.Value V)) n =
      (.ok .runtime, n) := by
    unfold load
    rw [hn]
  have hcallee : (Script.Expr.member (.identifier names.binding) member).eval I path n =
      (.ok f, n) := by
    rw [Script.Expr.eval, Script.Expr.eval, Act.bind_ok hload, hf]
    rfl
  rw [Lowering.callRuntime, Script.Expr.eval, Act.bind_ok hcallee]

/-- **EXPRESSIONS KEEP THEIR MEANING.** -/
theorem Expr.simulates (e : Expr α) :
    Simulates (Related names) Stands (e.eval I) ((e.toScript names).eval I path) := by
  induction e with
  | name x => exact simulates_load x.name
  | literal note value =>
      rw [Expr.toScript, Expr.eval, Script.Expr.eval, Literal.eval_toScript]
      exact simulates_pure rfl
  | read note =>
      intro m n hmn
      -- the call finds the runtime where no renamed variable can have overwritten it
      rw [Expr.toScript, eval_callRuntime hmn.binding rfl]
      exact simulates_takeInput.bind_pure (fun v w hvw => by rw [hvw]; rfl) m n hmn
  | unary note op e ih =>
      rw [Expr.toScript, Expr.eval, Script.Expr.eval]
      refine ih.bind fun v w hvw => ?_
      rw [hvw]
      exact (simulates_demand (I.unary op v)).bind_pure fun a b hab => by rw [hab]; rfl
  | binary note op e f ihe ihf =>
      rw [Expr.toScript, Expr.eval, Script.Expr.eval]
      refine ihe.bind fun v w hvw => ?_
      rw [hvw, demand_data_bind]
      -- both sides ask whether the left operand decides before they look at the right one
      cases I.decided op v with
      | some result => exact simulates_pure rfl
      | none =>
          refine ihf.bind fun v' w' hvw' => ?_
          rw [hvw']
          exact (simulates_demand (I.binary op v v')).bind_pure fun a b hab => by rw [hab]; rfl

/-- A test holds in the script if it holds in the program. -/
theorem Expr.simulates_holds (e : Expr α) :
    Simulates (Related names) Eq (e.holds I) ((e.toScript names).holds I path) := by
  refine e.simulates.bind fun v w hvw => ?_
  rw [hvw]
  exact simulates_pure rfl

/-! ## §3. Statements -/

/-- An output is a call of the runtime with the value, whose result nothing uses. -/
theorem simulates_output {e : Expr α} :
    Simulates (Related names) Whatever
      (do
        let v ← e.eval I
        emit v)
      (do
        let _ ← (Lowering.callRuntime names Naming.outputMember [e.toScript names]).eval I path
        pure ()) := by
  intro m n hmn
  rw [Act.bind_congr (eval_callRuntime hmn.binding rfl [e.toScript names])]
  -- one argument on both sides, as a value here and in a list there
  have harguments : Simulates (Related names) (fun (v : V) ws => ws = [.data v]) (e.eval I)
      (Script.Expr.evalAll I path [e.toScript names]) :=
    e.simulates.bind_pure fun v w hvw => by rw [hvw]
  have hcall : Simulates (Related names) Whatever
      (do
        let v ← e.eval I
        emit v)
      (do
        let values ← Script.Expr.evalAll I path [e.toScript names]
        Script.Value.writer.call I path values) := by
    refine harguments.bind fun v ws hws => ?_
    subst hws
    exact (simulates_emit v).bind_pure fun _ _ _ => trivial
  exact hcall.bind_pure (fun _ _ _ => trivial) m n hmn

mutual

/-- **STATEMENTS KEEP THEIR MEANING.** -/
theorem Stmt.simulates (hn : names.Accepted) : ∀ s : Stmt α,
    Simulates (Related names) Whatever (s.exec I) ((s.toScript names).exec I path)
  | .block _ body => by
      rw [Stmt.exec, Stmt.toScript, Script.Stmt.exec]
      exact Stmt.simulates_body hn body
  -- the value of an assignment is used by none, so it is dropped
  | .assign _ x e => by
      rw [Stmt.exec, Stmt.toScript, Script.Stmt.exec]
      refine simulates_step.bind fun _ _ _ => ?_
      rw [Script.Expr.eval, Act.bind_assoc]
      refine e.simulates.bind fun v w hvw => ?_
      rw [hvw, Act.bind_assoc]
      exact (simulates_save hn x.name v).bind_pure fun _ _ _ => trivial
  | .output _ e => by
      rw [Stmt.exec, Stmt.toScript, Script.Stmt.exec]
      exact simulates_step.bind fun _ _ _ => simulates_output
  | .loop _ e s => by
      rw [Stmt.exec, Stmt.toScript, Script.Stmt.exec]
      exact simulates_repeatWhile (fun _ _ hmn => hmn.steps) simulates_step e.simulates_holds
        (Stmt.simulates hn s)
  | .choice _ e s t => by
      rw [Stmt.exec, Stmt.toScript, Script.Stmt.exec]
      refine simulates_step.bind fun _ _ _ => e.simulates_holds.bind fun a b hab => ?_
      subst hab
      cases a with
      | true => exact Stmt.simulates_branch hn s
      | false => exact Stmt.simulates_branch hn t

/-- Statements in a row, one after the other. -/
theorem Stmt.simulates_body (hn : names.Accepted) : ∀ body : List (Stmt α),
    Simulates (Related names) Whatever (Stmt.execAll I body)
      (Script.Stmt.execAll I path (Stmt.toScripts names body))
  | [] => simulates_pure trivial
  | s :: body => by
      rw [Stmt.execAll, Stmt.toScripts, Script.Stmt.execAll]
      exact (Stmt.simulates hn s).bind fun _ _ _ => Stmt.simulates_body hn body

/-- A branch that is not there does nothing, as does the empty statement. -/
theorem Stmt.simulates_branch (hn : names.Accepted) : ∀ s : Option (Stmt α),
    Simulates (Related names) Whatever (Stmt.execBranch I s)
      ((Stmt.branchScript names s).exec I path)
  | none => by
      rw [Stmt.execBranch, Stmt.branchScript, Script.Stmt.exec]
      exact simulates_pure trivial
  | some s => by
      rw [Stmt.execBranch, Stmt.branchScript]
      exact Stmt.simulates hn s

end

/-! ## §4. Programs -/

/-- The variables of a declaration start with the same data. -/
theorem simulates_initialise (hn : names.Accepted) (type : ValueType) (xs : List (Identifier α)) :
    Simulates (Related names) Whatever (initialise (type.initial I) xs)
      (Script.declareAll I path ((xs.map fun x => names.rename x.name).map fun x =>
        (x, some (.literal (Lowering.initial type))))) := by
  have hvalue : (Lowering.initial type).eval I = type.initial I := by
    cases type <;> rfl
  induction xs with
  | nil => exact simulates_pure trivial
  | cons x xs ih =>
      rw [initialise, List.map_cons, List.map_cons, Script.declareAll, Script.Expr.eval, hvalue]
      exact (simulates_save hn x.name (type.initial I)).bind fun _ _ _ => ih

/-- Declarations leave every variable with its first value, under both names. -/
theorem simulates_declarations (hn : names.Accepted) (ds : List (Declaration α)) :
    Simulates (Related names) Whatever (Declaration.execAll I ds)
      (Script.Stmt.execAll I path (ds.map (·.toScript names))) := by
  induction ds with
  | nil => exact simulates_pure trivial
  | cons d ds ih =>
      rw [Declaration.execAll, List.map_cons, Script.Stmt.execAll]
      exact (simulates_initialise hn d.type d.names).bind fun _ _ _ => ih

theorem Script.Stmt.execAll_append (a b : List Script.Stmt) :
    Script.Stmt.execAll I path (a ++ b) =
      (do
        Script.Stmt.execAll I path a
        Script.Stmt.execAll I path b) := by
  induction a with
  | nil => rfl
  | cons s a ih =>
      rw [List.cons_append, Script.Stmt.execAll, Script.Stmt.execAll, Act.bind_assoc, ih]

/-- Loading the runtime puts it into its variable and does nothing else. -/
theorem exec_importRuntime (n : Machine (Script.Value V) V)
    (hn : n.store Naming.loader = some .loader) :
    (Lowering.importRuntime names).exec I names.path n =
      (.ok (), { n with store := fun other =>
        if other = names.binding then some .runtime else n.store other }) := by
  have hload : (load Naming.loader : Act (Script.Value V) V (Script.Value V)) n =
      (.ok .loader, n) := by
    unfold load
    rw [hn]
  -- the loader gives the runtime for its own path only
  have hcall : (Script.Expr.call (.identifier Naming.loader)
      [.literal (.string names.path)]).eval I names.path n = (.ok .runtime, n) := by
    rw [Script.Expr.eval, Script.Expr.eval, Act.bind_ok hload]
    show (if I.string names.path = I.string names.path then
      (pure .runtime : Act (Script.Value V) V (Script.Value V)) else stop .fault) n = _
    rw [if_pos rfl]
    rfl
  rw [Lowering.importRuntime, Script.Stmt.exec, Script.declareAll, Act.bind_ok hcall]
  rfl

/-- **A program and its script run alike**, from start to end. -/
theorem Program.run_toScript (hn : names.Accepted)
    (hloader : ¬ names.stem.toList <+: Naming.loader.toList) (I : Interpretation V)
    (p : Program α) (bound : Nat) (inputs : List V) :
    SameOutcome Whatever (p.run I bound inputs).1
        (Script.run I names.path (p.toScript names) bound inputs).1 ∧
      Related names (p.run I bound inputs).2
        (Script.run I names.path (p.toScript names) bound inputs).2 := by
  have hbody : Simulates (Related names) Whatever (p.body.exec I)
      (Script.Stmt.execAll I names.path [p.body.toScript names]) :=
    (Stmt.simulates hn p.body).bind_pure fun _ _ _ => trivial
  have hrest : Simulates (Related names) Whatever (p.exec I)
      (Script.Stmt.execAll I names.path
        (p.declarations.map (·.toScript names) ++ [p.body.toScript names])) := by
    rw [Script.Stmt.execAll_append]
    exact (simulates_declarations hn p.declarations).bind fun _ _ _ => hbody
  -- the script loads the runtime first; from there on the machines are related
  unfold Script.run Program.toScript
  rw [List.cons_append, Script.Stmt.execAll, Act.bind_ok (exec_importRuntime _ rfl)]
  exact hrest _ _ (related_start hn hloader bound inputs)

/-- **LOWERING KEEPS THE MEANING OF PROGRAMS**: whatever parses is lowered to a script, and for
    every interpretation, bound and input the two produce the same events, end or stop alike, and
    leave the same values in the program's variables, under their new names. -/
theorem lowerProgram_run_eq {stem binding path : String} {names : Naming}
    (hnames : Naming.make stem binding path = .ok names)
    (hloader : ¬ stem.toList <+: Naming.loader.toList) {source : String} {places : Bool} {t : Tree}
    (ht : Tree.parse source places = .ok t) :
    ∃ p script, Program.parse source = .ok p ∧
      p.toTree (fun l => if places then some l.toJson else none) = t ∧
      t.lowerProgram names = .ok script ∧
      ∀ (V : Type) [DecidableEq V] (I : Interpretation V) (bound : Nat) (inputs : List V),
        (Script.run I names.path script bound inputs).2.events = (p.run I bound inputs).2.events ∧
        (Script.run I names.path script bound inputs).1 = (p.run I bound inputs).1 ∧
        ∀ x, (Script.run I names.path script bound inputs).2.store (names.rename x) =
          ((p.run I bound inputs).2.store x).map .data := by
  obtain ⟨p, hp, rfl⟩ := Tree.parse_eq_ok ht
  obtain ⟨hmk, haccepted⟩ := Naming.make_eq_ok hnames
  have hstem : ¬ names.stem.toList <+: Naming.loader.toList := by
    rw [hmk]
    exact hloader
  refine ⟨p, p.toScript names, hp, rfl, p.lowerProgram_toTree names _, ?_⟩
  intro V _ I bound inputs
  obtain ⟨houtcome, hrelated⟩ := p.run_toScript haccepted hstem I bound inputs
  exact ⟨hrelated.events.symm, houtcome.eq.symm, hrelated.store⟩

/-- Whole numbers as values, of which zero is false. -/
def wholeNumbers : Interpretation Int where
  null := 0
  bool b := if b then 1 else 0
  integer n := n
  number _ := 0
  string s := s.length
  truth v := v != 0
  unary op v :=
    match op with
    | "-" => some (-v)
    | "!" => some (if v = 0 then 1 else 0)
    | _ => none
  decided op v :=
    match op with
    | "&&" => if v = 0 then some v else none
    | "||" => if v = 0 then none else some v
    | _ => none
  binary op v w :=
    match op with
    | "+" => some (v + w)
    | "-" => some (v - w)
    | ">" => some (if v > w then 1 else 0)
    | "&&" | "||" => some w
    | _ => none

/-- The script of a countdown reads a number, puts out the numbers down to one and leaves zero, as
    its program does. -/
theorem lowerProgram_run_eq_countdown : ∃ t script,
    Tree.parse "integer n; \x7b n = read; while (n > 0) \x7b output n; n = n - 1; \x7d \x7d" true = .ok t ∧
      t.lowerProgram Naming.standard = .ok script ∧
      (Script.run wholeNumbers Naming.standard.path script 20 [2]).2.events =
        [.read 2, .output 2, .output 1] ∧
      (Script.run wholeNumbers Naming.standard.path script 20 [2]).1 = .ok () ∧
      (Script.run wholeNumbers Naming.standard.path script 20 [2]).2.store
        (Naming.standard.rename "n") = some (.data 0) := by
  have hsource : ((Program.parse
      "integer n; \x7b n = read; while (n > 0) \x7b output n; n = n - 1; \x7d \x7d").toOption.map fun p =>
        ((p.run wholeNumbers 20 [2]).2.events, (p.run wholeNumbers 20 [2]).1.toOption,
          (p.run wholeNumbers 20 [2]).2.store "n")) =
      some ([.read 2, .output 2, .output 1], some (), some 0) := by
    decide +kernel
  cases hp : Program.parse
      "integer n; \x7b n = read; while (n > 0) \x7b output n; n = n - 1; \x7d \x7d" with
  | error e =>
      rw [hp] at hsource
      exact absurd hsource (by simp [Except.toOption])
  | ok p =>
      rw [hp] at hsource
      obtain ⟨hevents, hrest⟩ := Prod.mk.inj (Option.some.inj hsource)
      obtain ⟨houtcome, hvalue⟩ := Prod.mk.inj hrest
      have ht : Tree.parse "integer n; \x7b n = read; while (n > 0) \x7b output n; n = n - 1; \x7d \x7d" true =
          .ok (p.toTree fun l => some l.toJson) := by
        unfold Tree.parse
        rw [hp]
        rfl
      obtain ⟨q, script, hq, -, hscript, hrun⟩ :=
        lowerProgram_run_eq Naming.make_standard (by decide +kernel) ht
      -- the program of the theorem is the one that was run
      obtain rfl : p = q := by
        rw [hp] at hq
        exact Except.ok.inj hq
      obtain ⟨hsame, hend, hstore⟩ := hrun Int wholeNumbers 20 [2]
      refine ⟨_, script, ht, hscript, hsame.trans hevents, hend.trans ?_, ?_⟩
      · cases hrun : (p.run wholeNumbers 20 [2]).1 with
        | error reason =>
            rw [hrun] at houtcome
            exact absurd houtcome (by simp [Except.toOption])
        | ok _ => rfl
      · rw [hstore "n", hvalue]
        rfl

end TinyLang
