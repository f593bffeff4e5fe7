/-
  TinyLang.Proofs.Lowering.Congruence — trees that are the same become the same.

  Lowering goes through the fields of a node in the order in which they stand, and equality
  does not look at that order.  What a walk finds in one order it finds in the other: it
  fails if the walk of SOME field fails, whichever comes first, and the walked fields are
  looked up by name like the fields:

      a.same b  →  a.lower names, b.lower names both fail, or are the same

  The errors may differ, as the first of two is another in another order.
-/

import TinyLang.Lowering.Rules
import TinyLang.Proofs.Tree.Equality

namespace TinyLang

/-! ## §1. Both or neither -/

/-- Two computations both fail, or both succeed with related results. -/
inductive Together {ε β γ : Type} (R : β → γ → Prop) : Except ε β → Except ε γ → Prop
  | ok {x : β} {y : γ} : R x y → Together R (.ok x) (.ok y)
  | error {e e' : ε} : Together R (.error e) (.error e')

namespace Together

variable {ε α β γ : Type} {R : β → γ → Prop} {x : Except ε β} {y : Except ε γ}

theorem flip (h : Together R x y) : Together (fun b a => R a b) y x := by
  cases h with
  | ok hR => exact .ok hR
  | error => exact .error

/-- What goes on with related results goes on together. -/
theorem bind {β' γ' : Type} {S : β' → γ' → Prop} {f : β → Except ε β'} {g : γ → Except ε γ'}
    (h : Together R x y) (hnext : ∀ a b, R a b → Together S (f a) (g b)) :
    Together S (x >>= f) (y >>= g) := by
  cases h with
  | ok hR => exact hnext _ _ hR
  | error => exact .error

theorem mapError {ε' : Type} (h : Together R x y) (f g : ε → ε') :
    Together R (x.mapError f) (y.mapError g) := by
  cases h with
  | ok hR => exact .ok hR
  | error => exact .error

/-- Lists of related items are read together. -/
theorem mapM {α' : Type} {P : α → α' → Prop} {as : List α} {bs : List α'} {f : α → Except ε β}
    {g : α' → Except ε γ} (h : List.Forall₂ P as bs)
    (hstep : ∀ a b, P a b → Together R (f a) (g b)) :
    Together (List.Forall₂ R) (as.mapM f) (bs.mapM g) := by
  induction h with
  | nil => exact .ok .nil
  | cons hab _ ih =>
      rw [List.mapM_cons, List.mapM_cons]
      apply (hstep _ _ hab).bind
      intro x y hxy
      apply ih.bind
      intro xs ys hrest
      exact .ok (.cons hxy hrest)

end Together

/-! ## §2. Scripts -/

namespace Script

/-- Equality of literals, as a relation. -/
def Literal.Same (a b : Literal) : Prop := a.same b = true

/-- Equality of expressions, as a relation. -/
def Expr.Same (a b : Expr) : Prop := a.same b = true

/-- Equality of statements, as a relation. -/
def Stmt.Same (a b : Stmt) : Prop := a.same b = true

/-- Lists of expressions are the same if they are so item by item. -/
theorem Expr.sameAll_iff {as bs : List Expr} :
    Expr.sameAll as bs = true ↔ List.Forall₂ Expr.Same as bs := by
  refine compare_eq_true_iff ?_ ?_ ?_ ?_
  · rw [Expr.sameAll]
  · simp [Expr.sameAll]
  · simp [Expr.sameAll]
  · intro a as b bs
    rw [Expr.sameAll]

/-- Lists of statements are the same if they are so item by item. -/
theorem Stmt.sameAll_iff {as bs : List Stmt} :
    Stmt.sameAll as bs = true ↔ List.Forall₂ Stmt.Same as bs := by
  refine compare_eq_true_iff ?_ ?_ ?_ ?_
  · rw [Stmt.sameAll]
  · simp [Stmt.sameAll]
  · simp [Stmt.sameAll]
  · intro a as b bs
    rw [Stmt.sameAll]

/-! Each constructor keeps equality. -/

namespace Expr.Same

variable {a b c d : Expr} {as bs : List Expr}

theorem identifier (name : String) : (Expr.identifier name).Same (.identifier name) := by
  simp only [Expr.Same, Expr.same, beq_self_eq_true]

theorem literal {l l' : Literal} (h : l.Same l') : (Expr.literal l).Same (.literal l') := by
  rw [Expr.Same, Expr.same]
  exact h

theorem call (h : a.Same b) (hall : List.Forall₂ Expr.Same as bs) :
    (Expr.call a as).Same (.call b bs) := by
  rw [Expr.Same, Expr.same, Bool.and_eq_true, Expr.sameAll_iff]
  exact ⟨h, hall⟩

theorem member (h : a.Same b) (property : String) :
    (Expr.member a property).Same (.member b property) := by
  rw [Expr.Same, Expr.same, beq_self_eq_true, Bool.and_true]
  exact h

theorem assign (operator : String) (h : a.Same b) (h' : c.Same d) :
    (Expr.assign operator a c).Same (.assign operator b d) := by
  rw [Expr.Same, Expr.same, beq_self_eq_true, Bool.true_and, Bool.and_eq_true]
  exact ⟨h, h'⟩

theorem unary (side : Side) (operator : String) (h : a.Same b) :
    (Expr.unary side operator a).Same (.unary side operator b) := by
  rw [Expr.Same, Expr.same, beq_self_eq_true, beq_self_eq_true, Bool.true_and, Bool.true_and]
  exact h

theorem binary (operator : String) (h : a.Same b) (h' : c.Same d) :
    (Expr.binary operator a c).Same (.binary operator b d) := by
  rw [Expr.Same, Expr.same, beq_self_eq_true, Bool.true_and, Bool.and_eq_true]
  exact ⟨h, h'⟩

/-- Functions are the same if they have the same parameters and their statements are the same. -/
theorem function (parameters : List String) {body body' : List Stmt}
    (h : List.Forall₂ Stmt.Same body body') :
    (Expr.function parameters body).Same (.function parameters body') := by
  rw [Expr.Same, Expr.same, beq_self_eq_true, Bool.true_and, Stmt.sameAll_iff]
  exact h

end Expr.Same

namespace Stmt.Same

variable {a b : Expr} {s t u v : Stmt}

theorem expression (h : a.Same b) : (Stmt.expression a).Same (.expression b) := by
  rw [Stmt.Same, Stmt.same]
  exact h

theorem block {body body' : List Stmt} (h : List.Forall₂ Stmt.Same body body') :
    (Stmt.block body).Same (.block body') := by
  rw [Stmt.Same, Stmt.same, Stmt.sameAll_iff]
  exact h

theorem loop (h : a.Same b) (hbody : s.Same t) : (Stmt.loop a s).Same (.loop b t) := by
  rw [Stmt.Same, Stmt.same, Bool.and_eq_true]
  exact ⟨h, hbody⟩

theorem choice (h : a.Same b) (hconsequent : s.Same t) (halternate : u.Same v) :
    (Stmt.choice a s (some u)).Same (.choice b t (some v)) := by
  rw [Stmt.Same, Stmt.same, Bool.and_eq_true, Bool.and_eq_true]
  exact ⟨⟨h, hconsequent⟩, halternate⟩

theorem empty : Stmt.empty.Same .empty := by
  rw [Stmt.Same, Stmt.same]

/-- A declaration in which every variable has a value. -/
theorem declare (word : Binding) (names : List String) {value : String → Expr}
    (h : ∀ x ∈ names, (value x).Same (value x)) :
    (Stmt.declare word (names.map fun x => (x, some (value x)))).Same
      (.declare word (names.map fun x => (x, some (value x)))) := by
  rw [Stmt.Same, Stmt.same, beq_self_eq_true, Bool.true_and]
  induction names with
  | nil => rw [List.map_nil, Expr.sameDeclarators]
  | cons x names ih =>
      obtain ⟨hx, hrest⟩ := List.forall_mem_cons.1 h
      rw [List.map_cons, Expr.sameDeclarators, ih hrest, beq_self_eq_true, Bool.true_and,
        Bool.and_true]
      exact hx

end Stmt.Same

end Script

/-- Equality of suspensions. -/
def Suspension.same (s t : Suspension) : Bool :=
  s.callee.same t.callee && Script.Expr.sameAll s.arguments t.arguments && s.binding == t.binding &&
    Script.Stmt.sameAll s.continuation t.continuation

/-- Equality of targets. -/
def Target.same : Target → Target → Bool
  | .program a, .program b => Script.Stmt.sameAll a b
  | .statement a, .statement b => a.same b
  | .expression a, .expression b => a.same b
  | .suspension a, .suspension b => a.same b
  | _, _ => false

/-- Equality of targets, as a relation. -/
def Target.Same (a b : Target) : Prop := a.same b = true

namespace Target.Same

theorem program {body body' : List Script.Stmt} (h : List.Forall₂ Script.Stmt.Same body body') :
    (Target.program body).Same (.program body') :=
  Script.Stmt.sameAll_iff.2 h

theorem statement {s t : Script.Stmt} (h : s.Same t) : (Target.statement s).Same (.statement t) := h

theorem expression {a b : Script.Expr} (h : a.Same b) :
    (Target.expression a).Same (.expression b) := h

end Target.Same

/-- Steps are the same when they are of one kind and hold the same. -/
inductive Step.Same : Step → Step → Prop
  | now {s t : Script.Stmt} : s.Same t → Same (.now s) (.now t)
  | later {s t : Suspension} : s.same t = true → Same (.later s) (.later t)

/-- The same suspensions with the same statements behind them are the same call. -/
theorem Suspension.resume_same {s t : Suspension} (h : s.same t = true)
    {as bs : List Script.Stmt} (hrest : List.Forall₂ Script.Stmt.Same as bs) :
    (s.resume as).Same (t.resume bs) := by
  simp only [Suspension.same, Bool.and_eq_true, beq_iff_eq, Script.Expr.sameAll_iff,
    Script.Stmt.sameAll_iff] at h
  obtain ⟨⟨⟨hcallee, harguments⟩, hbinding⟩, hcontinuation⟩ := h
  have hfunction := Script.Expr.Same.function s.binding.toList
    (List.rel_append hcontinuation hrest)
  rw [Suspension.resume, Suspension.resume, toStatement, toStatement, attach, attach, ← hbinding]
  exact .expression (.call hcallee (List.rel_append harguments (.cons hfunction .nil)))

/-- **Expansion respects equality**: what goes into the function of a suspension is the same on both
    sides. -/
theorem expand_same {as bs : List Step} (h : List.Forall₂ Step.Same as bs) :
    List.Forall₂ Script.Stmt.Same (expand as) (expand bs) := by
  induction h with
  | nil => exact .nil
  | cons hstep _ ih =>
      cases hstep with
      | now hs => exact .cons hs ih
      | later hs => exact .cons (Suspension.resume_same hs ih) .nil

/-! ## §3. Walks -/

/-- Walked trees of one shape, with related results and the same leaves. -/
inductive Walked.Rel {α : Type} (R : α → α → Prop) : Walked α → Walked α → Prop
  | seq {as bs : List (Walked α)} : List.Forall₂ (Walked.Rel R) as bs →
      Walked.Rel R (.seq as) (.seq bs)
  | node {a b : α} : R a b → Walked.Rel R (.node a) (.node b)
  | leaf {v w : Json} : v.Same w → Walked.Rel R (.leaf v) (.leaf w)

/-- Visits that give related results for related fields, in whichever order these stand. -/
def Respects {ε α : Type} (R : α → α → Prop)
    (visit : String → List (String × Walked α) → Except ε α) : Prop :=
  ∀ tag ws ws', Record.Rel (Walked.Rel R) ws ws' → Together R (visit tag ws) (visit tag ws')

namespace Tree

variable {ε α : Type} {R : α → α → Prop}
  {visit : String → List (String × Walked α) → Except ε α}

/-- A sequence is walked if each of its items is. -/
theorem walkItems_together {as bs : List Tree} (h : List.Forall₂ (fun a b =>
      Together (Walked.Rel R) (a.walk visit) (b.walk visit)) as bs) :
    Together (List.Forall₂ (Walked.Rel R)) (walkItems visit as) (walkItems visit bs) := by
  induction h with
  | nil => exact .ok .nil
  | cons hab _ ih =>
      rw [walkItems, walkItems]
      apply hab.bind
      intro w w' hw
      apply ih.bind
      intro ws ws' hws
      exact .ok (.cons hw hws)

/-- What a walk of fields can do: walk them all, and then each is found under its name, or fail as
    one of them does. -/
theorem walkFields_cases (visit : String → List (String × Walked α) → Except ε α)
    (fields : List (String × Tree)) :
    (∃ ws, walkFields visit fields = .ok ws ∧
        Record.Rel (fun t w => t.walk visit = .ok w) fields ws) ∨
      ∃ e, walkFields visit fields = .error e ∧ ∃ field ∈ fields, field.2.walk visit = .error e := by
  induction fields with
  | nil => exact .inl ⟨[], rfl, fun _ => .none⟩
  | cons field fields ih =>
      obtain ⟨n, t⟩ := field
      rw [walkFields]
      cases ht : t.walk visit with
      | error e => exact .inr ⟨e, rfl, (n, t), List.mem_cons_self, ht⟩
      | ok w =>
          rcases ih with ⟨ws, hws, hrel⟩ | ⟨e, he, field, hmem, hfield⟩
          · -- both lists have the same names in the same order, so a name is found in both at one
            -- place
            refine .inl ⟨(n, w) :: ws, by rw [hws]; rfl, ?_⟩
            intro name
            rw [Record.find?, Record.find?]
            by_cases hn : n = name
            · rw [if_pos hn, if_pos hn]
              exact .some ht
            · rw [if_neg hn, if_neg hn]
              exact hrel name
          · exact .inr ⟨e, by rw [he]; rfl, field, List.mem_cons_of_mem _ hmem, hfield⟩

/-- Where the fields of one node were walked, none of the other fails. -/
theorem walk_ne_error {Q : Walked α → Walked α → Prop} {as bs : List (String × Tree)}
    (h : Record.Rel (fun a b => Together Q (a.walk visit) (b.walk visit)) as bs)
    (hbs : (Record.names bs).Nodup) {ws : List (String × Walked α)}
    (hws : Record.Rel (fun t w => t.walk visit = .ok w) as ws) {field : String × Tree}
    (hmem : field ∈ bs) {e : ε} : field.2.walk visit ≠ .error e := by
  intro hb
  obtain ⟨a, ha, htogether⟩ := h.flip.find?_some (Record.find?_of_mem hbs hmem)
  obtain ⟨w, -, hw⟩ := hws.find?_some ha
  rw [hw, hb] at htogether
  exact nomatch htogether

/-- **The order of fields does not matter to a walk**: either all fields of both nodes can be walked,
    and what is found under a name in one is found in the other, or some field of each can not. -/
theorem walkFields_together {Q : Walked α → Walked α → Prop} {as bs : List (String × Tree)}
    (h : Record.Rel (fun a b => Together Q (a.walk visit) (b.walk visit)) as bs)
    (has : (Record.names as).Nodup) (hbs : (Record.names bs).Nodup) :
    Together (Record.Rel Q) (walkFields visit as) (walkFields visit bs) := by
  rcases walkFields_cases visit as with ⟨ws, hwalk, hws⟩ | ⟨e, hwalk, field, hmem, hfield⟩ <;>
    rcases walkFields_cases visit bs with ⟨ws', hwalk', hws'⟩ | ⟨e', hwalk', field', hmem', hfield'⟩ <;>
    rw [hwalk, hwalk']
  · refine .ok ?_
    -- from what was walked to its field, to the counterpart, to what was walked there
    have hright : Record.Rel (fun a w' => Together Q (a.walk visit) (.ok w')) as ws' := by
      refine h.join_mem hws'.flip ?_
      intro a _ b _ w' _ hab hb
      rw [hb] at hab
      exact hab
    refine hws.flip.join_mem hright.flip ?_
    intro w _ a _ w' _ ha hw'
    rw [ha] at hw'
    cases hw' with
    | ok hQ => exact hQ
  · exact absurd hfield' (walk_ne_error h hbs hws hmem')
  · have hflip : Record.Rel (fun b a => Together (fun w' w => Q w w') (b.walk visit)
        (a.walk visit)) bs as := h.flip.imp_mem fun _ _ _ _ => Together.flip
    exact absurd hfield (walk_ne_error hflip has hws' hmem)
  · exact .error

/-- **A WALK RESPECTS EQUALITY** if its visits do. -/
theorem walk_together (hvisit : Respects R visit) {a b : Tree} (ha : a.Distinct) (hb : b.Distinct)
    (h : a.Same b) : Together (Walked.Rel R) (a.walk visit) (b.walk visit) := by
  induction a using induct generalizing b with
  | step a ih =>
      cases a <;> cases b
      case seq.seq as bs =>
        have has := distinctItems_iff.1 ha
        have hbs := distinctItems_iff.1 hb
        have hitems : List.Forall₂ (fun a b =>
            Together (Walked.Rel R) (a.walk visit) (b.walk visit)) as bs := by
          refine forall₂_imp_mem (sameItems_iff.1 h) ?_
          intro u hu v hv huv
          exact ih u hu (has u hu) (hbs v hv) huv
        rw [walk, walk]
        apply (walkItems_together hitems).bind
        intro ws ws' hws
        exact .ok (.seq hws)
      case node.node t as u bs =>
        have has := distinctFields_iff.1 ha.2
        have hbs := distinctFields_iff.1 hb.2
        -- with distinct names, nodes are the same exactly where each name leads to the same
        obtain ⟨rfl, hsame⟩ := (same_node_iff ha.1 hb.1).1 h
        have hfields : Record.Rel (fun a b =>
            Together (Walked.Rel R) (a.walk visit) (b.walk visit)) as bs := by
          refine hsame.imp_mem ?_
          intro u hu v hv huv
          exact ih u hu (has u hu) (hbs v hv) huv
        rw [walk, walk]
        apply (walkFields_together hfields ha.1 hb.1).bind
        intro ws ws' hws
        apply (hvisit t ws ws' hws).bind
        intro r r' hr
        exact .ok (.node hr)
      case leaf.leaf v w => exact .ok (.leaf h)
      all_goals exact absurd h Bool.false_ne_true

end Tree

/-! ## §4. Scalars -/

/-- Rounding gives a number, or infinity if it is too large. -/
theorem Binary64.isNaN_pack (negative : Bool) (m : Nat) (e : Int) :
    (pack negative m e).isNaN = false := by
  -- a word up to that of infinity is no NaN, with either sign
  have hword : ∀ word, word ≤ 2047 * leadingBit →
      (⟨(if negative then signBit + word else word).toUInt64⟩ : Binary64).isNaN = false := by
    intro word hword
    unfold isNaN exponentField fractionField
    rw [Bool.and_eq_false_iff, beq_eq_false_iff_ne, bne_eq_false_iff_eq]
    cases negative <;> simp [leadingBit, signBit] at hword ⊢ <;> omega
  have hcapped : ∀ field, (if field < 2047 * leadingBit then field else 2047 * leadingBit) ≤
      2047 * leadingBit := by
    intro field
    split <;> omega
  exact hword _ (hcapped _)

/-- A ratio is never rounded to what is not a number, the one value that differs from itself. -/
theorem Binary64.isNaN_ofRatio (negative : Bool) (num den : Nat) :
    (ofRatio negative num den).isNaN = false := by
  unfold ofRatio
  split
  · exact isNaN_pack _ _ _
  · exact isNaN_pack _ _ _

theorem Script.Literal.same_number {x : Binary64} (h : x.isNaN = false) :
    Literal.Same (.number x) (.number x) :=
  Binary64.same_iff.2 ⟨h, h, .inl rfl⟩

/-- The same leaves stand for the same literals, or both for none. An integer that is rounded stays
    the same, as rounding gives a number. -/
theorem Json.toLiteral?_same {v w : Json} (h : v.Same w) :
    Option.Rel Script.Literal.Same (toLiteral? v) (toLiteral? w) := by
  cases v <;> cases w
  case null.null => exact .some rfl
  case bool.bool b c =>
    obtain rfl : b = c := beq_iff_eq.1 h
    exact .some (beq_self_eq_true (Script.Literal.bool b))
  case string.string s t =>
    obtain rfl : s = t := beq_iff_eq.1 h
    exact .some (beq_self_eq_true (Script.Literal.string s))
  case number.number m n =>
    cases m <;> cases n
    case integer.integer m n =>
      -- what is too large for an integer becomes a float, the same one for both
      have hvalue : m.value = n.value := beq_iff_eq.1 h
      rw [toLiteral?, toLiteral?, hvalue]
      refine .some ?_
      split
      · exact beq_self_eq_true (Script.Literal.integer n.value)
      · exact Script.Literal.same_number (Binary64.isNaN_ofRatio _ _ _)
    case float.float => exact .some h
    all_goals exact absurd h Bool.false_ne_true
  case array.array => exact .none
  case object.object => exact .none
  all_goals exact absurd h Bool.false_ne_true

/-! ## §5. Readings -/

namespace Reading

variable {α : Type} {S : α → α → Prop} {r : Reading α}

/-- A reading takes the same from walked trees that are the same, or refuses both. -/
def Respects (S : α → α → Prop) (r : Reading α) : Prop :=
  ∀ w w', Walked.Rel Target.Same w w' → Together S (r w) (r w')

/-- What can be seen in walked trees that are the same decides. -/
theorem respects_only {view : Walked Target → Option α}
    (h : ∀ w w', Walked.Rel Target.Same w w' → Option.Rel S (view w) (view w')) (shape : Shape) :
    Respects S (only shape view) := by
  intro w w' hw
  have hview := h w w' hw
  unfold only
  generalize view w = a at hview ⊢
  generalize view w' = b at hview ⊢
  cases hview with
  | some hx => exact .ok hx
  | none => exact .error

/-- A text is found in both of two leaves that are the same, or in neither. -/
theorem respects_text : Respects Eq text := by
  refine respects_only (fun w w' hw => ?_) _
  cases hw with
  | seq _ => exact .none
  | node _ => exact .none
  | @leaf v v' hv =>
      cases v <;> cases v'
      case string.string => exact .some (beq_iff_eq.1 hv)
      all_goals first
        | exact .none
        | exact absurd hv Bool.false_ne_true

theorem respects_scalar : Respects Script.Literal.Same scalar := by
  refine respects_only (fun w w' hw => ?_) _
  cases hw with
  | seq _ => exact .none
  | node _ => exact .none
  | leaf hv => exact Json.toLiteral?_same hv

theorem respects_expression : Respects Script.Expr.Same expression := by
  refine respects_only (fun w w' hw => ?_) _
  cases hw with
  | seq _ => exact .none
  | leaf _ => exact .none
  | @node a b hab =>
      cases a <;> cases b
      case expression.expression => exact .some hab
      all_goals first
        | exact .none
        | exact absurd hab Bool.false_ne_true

/-- Statements and suspensions are told apart by equality, so both trees give the same kind of step.
    -/
theorem respects_step : Respects Step.Same step := by
  refine respects_only (fun w w' hw => ?_) _
  cases hw with
  | seq _ => exact .none
  | leaf _ => exact .none
  | @node a b hab =>
      cases a <;> cases b
      case statement.statement => exact .some (.now hab)
      case suspension.suspension => exact .some (.later hab)
      all_goals first
        | exact .none
        | exact absurd hab Bool.false_ne_true

theorem respects_statement : Respects Script.Stmt.Same statement := by
  intro w w' hw
  apply (respects_step w w' hw).bind
  intro s s' hs
  cases hs with
  | now hs => exact .ok hs
  | later hs => exact .ok (Suspension.resume_same hs .nil)

/-- Only a variable is the same as a variable. -/
theorem respects_name : Respects Eq name := by
  refine respects_only (fun w w' hw => ?_) _
  cases hw with
  | seq _ => exact .none
  | leaf _ => exact .none
  | @node a b hab =>
      cases a <;> cases b
      case expression.expression a b =>
        rw [Target.Same, Target.same] at hab
        cases a <;> cases b
        case identifier.identifier =>
          rw [Script.Expr.same, beq_iff_eq] at hab
          exact .some hab
        all_goals first
          | exact .none
          | exact absurd hab (by simp [Script.Expr.same])
      all_goals first
        | exact .none
        | exact absurd hab Bool.false_ne_true

theorem Respects.each (h : Respects S r) (shape : Shape) :
    Respects (List.Forall₂ S) (each shape r) := by
  intro w w' hw
  cases hw with
  | seq hitems => exact .mapM hitems h
  | node _ => exact .error
  | leaf _ => exact .error

theorem respects_names : Respects Eq names := by
  rw [← List.forall₂_eq_eq_eq]
  exact respects_name.each _

/-- A field is found in both of two nodes that are the same, or in neither. -/
theorem Respects.read (h : Respects S r) {f g : Fields}
    (hf : Record.Rel (Walked.Rel Target.Same) f.fields g.fields) (name : String) :
    Together S (f.read name r) (g.read name r) := by
  have hname := hf name
  unfold Fields.read
  generalize Record.find? name f.fields = a at hname ⊢
  generalize Record.find? name g.fields = b at hname ⊢
  cases hname with
  | some hw => exact (h _ _ hw).mapError _ _
  | none => exact .error

/-- A field that is absent or null in one of two nodes that are the same is so in the other. -/
theorem Respects.readOr (h : Respects S r) {f g : Fields}
    (hf : Record.Rel (Walked.Rel Target.Same) f.fields g.fields) (name : String) {default : α}
    (hdefault : S default default) :
    Together S (f.readOr name r default) (g.readOr name r default) := by
  have hread := h.read hf name
  have hname := hf name
  unfold Fields.readOr
  generalize Record.find? name f.fields = a at hname ⊢
  generalize Record.find? name g.fields = b at hname ⊢
  cases hname with
  | none => exact .ok hdefault
  | some hw =>
      cases hw with
      | seq _ => exact hread
      | node _ => exact hread
      -- only a null counts as absent, and only a null is the same as a null
      | @leaf v v' hv =>
          cases v <;> cases v'
          case null.null => exact .ok hdefault
          all_goals first
            | exact hread
            | exact absurd hv Bool.false_ne_true

end Reading

/-! ## §6. Rules -/

namespace Lowering

open Reading

/-- The statement that loads the runtime is the same as itself, since no float stands in it. -/
theorem importRuntime_same (names : Naming) :
    (importRuntime names).Same (importRuntime names) := by
  have hpath : Script.Literal.Same (.string names.path) (.string names.path) :=
    beq_self_eq_true (Script.Literal.string names.path)
  have hcall : Script.Expr.Same (.call (.identifier Naming.loader) [.literal (.string names.path)])
      (.call (.identifier Naming.loader) [.literal (.string names.path)]) :=
    .call (.identifier _) (.cons (.literal hpath) .nil)
  exact .declare .varWord [names.binding] fun _ _ => hcall

theorem callRuntime_same (names : Naming) (member : String) {as bs : List Script.Expr}
    (h : List.Forall₂ Script.Expr.Same as bs) :
    (callRuntime names member as).Same (callRuntime names member bs) :=
  .call (.member (.identifier _) member) h

theorem declareAll_same (type : ValueType) (declared : List String) :
    (declareAll type declared).Same (declareAll type declared) := by
  have hinitial : (initial type).Same (initial type) := by
    cases type <;> rfl
  exact .declare .varWord declared fun _ _ => .literal hinitial

/-- **Rules respect equality.** -/
theorem rule_same (names : Naming) (tag : Tag) {as bs : List (String × Walked Target)}
    (h : Record.Rel (Walked.Rel Target.Same) as bs) :
    Together Target.Same (rule names ⟨tag, as⟩) (rule names ⟨tag, bs⟩) := by
  have hf : Record.Rel (Walked.Rel Target.Same) (Fields.mk tag as).fields (Fields.mk tag bs).fields :=
    h
  cases tag with
  | program =>
      apply ((respects_statement.each _).read hf _).bind
      intro ds ds' hds
      apply (respects_step.read hf _).bind
      intro body body' hbody
      have hall := List.rel_append (.cons (importRuntime_same names) hds)
        (expand_same (.cons hbody .nil))
      exact .ok (.program hall)
  | declaration =>
      apply (respects_names.read hf _).bind
      rintro declared _ rfl
      apply (respects_text.read hf _).bind
      rintro name _ rfl
      unfold valueType
      cases ValueType.ofName? name with
      | none => exact .error
      | some type =>
          show Together Target.Same (if declared.isEmpty then _ else _) (if declared.isEmpty then _ else _)
          split
          · exact .error
          · exact .ok (.statement (declareAll_same type declared))
  | block =>
      apply ((respects_step.each _).read hf _).bind
      intro body body' hbody
      exact .ok (.statement (.block (expand_same hbody)))
  | identifier =>
      apply (respects_text.read hf _).bind
      rintro name _ rfl
      exact .ok (.expression (.identifier _))
  | literal =>
      apply (respects_scalar.read hf _).bind
      intro l l' hl
      exact .ok (.expression (.literal hl))
  | assignment =>
      apply (respects_expression.read hf _).bind
      intro left left' hleft
      apply (respects_expression.read hf _).bind
      intro right right' hright
      exact .ok (.statement (.expression (.assign _ hleft hright)))
  | read => exact .ok (.expression (callRuntime_same names _ .nil))
  | output =>
      apply (respects_expression.read hf _).bind
      intro value value' hvalue
      exact .ok (.statement (.expression (callRuntime_same names _ (.cons hvalue .nil))))
  | unary =>
      apply (respects_text.read hf _).bind
      rintro operator _ rfl
      apply (respects_expression.read hf _).bind
      intro argument argument' hargument
      exact .ok (.expression (.unary _ _ hargument))
  | binary =>
      apply (respects_text.read hf _).bind
      rintro operator _ rfl
      apply (respects_expression.read hf _).bind
      intro left left' hleft
      apply (respects_expression.read hf _).bind
      intro right right' hright
      exact .ok (.expression (.binary _ hleft hright))
  | loop =>
      apply (respects_expression.read hf _).bind
      intro test test' htest
      apply (respects_statement.read hf _).bind
      intro body body' hbody
      exact .ok (.statement (.loop htest hbody))
  -- the default of a branch is the empty statement, the same on both sides
  | conditional =>
      apply (respects_expression.read hf _).bind
      intro test test' htest
      apply (respects_statement.readOr hf _ .empty).bind
      intro consequent consequent' hconsequent
      apply (respects_statement.readOr hf _ .empty).bind
      intro alternate alternate' halternate
      exact .ok (.statement (.choice htest hconsequent halternate))

/-- Visits respect equality, as the tags are equal and the rules respect it. -/
theorem lowerNode_respects (names : Naming) : Respects Target.Same (lowerNode names) := by
  intro tag as bs h
  unfold lowerNode
  cases Tag.ofName? tag with
  | none => exact .error
  | some tag => exact rule_same names tag h

end Lowering

namespace Tree

/-- What the same trees become. -/
theorem lower_together (names : Naming) {a b : Tree} (ha : a.Distinct) (hb : b.Distinct)
    (h : a.Same b) : Together Target.Same (a.lower names) (b.lower names) := by
  apply (walk_together (Lowering.lowerNode_respects names) ha hb h).bind
  intro w w' hw
  cases hw with
  | seq _ => exact .error
  | node htarget => exact .ok htarget
  | leaf _ => exact .error

/-- **EQUALITY OF TREES IS SOUND FOR THE COMPILER.**  All trees that are read have distinct names.  On
    such trees equality is an equivalence, which does not depend on the order of fields or members
    and tells integers from floats; and under every naming, trees that are the same both fail, or
    become the same. -/
theorem same_sound :
    (∀ text v, Json.parse? text = some v → (ofJson v).Distinct) ∧
      (Equivalence fun a b : { t : Tree // t.Distinct } => a.1.same b.1 = true) ∧
      (∀ (tag : String) (as bs : List (String × Tree)), (node tag as).Distinct → as.Perm bs →
        (node tag as).same (node tag bs) = true) ∧
      (∀ as bs : List (String × Json), (Json.object as).Distinct → as.Perm bs →
        (leaf (.object as)).same (leaf (.object bs)) = true) ∧
      (∀ n x, (leaf (.number (.integer n))).same (leaf (.number (.float x))) = false ∧
        (leaf (.number (.float x))).same (leaf (.number (.integer n))) = false) ∧
      ∀ (a b : { t : Tree // t.Distinct }) (names : Naming), a.1.same b.1 = true →
        Together (fun x y => x.same y = true) (a.1.lower names) (b.1.lower names) := by
  refine ⟨?_, same_equivalence, ?_, ?_, ?_, ?_⟩
  · intro text v hread
    exact distinct_ofJson v (Json.distinct_parse? hread)
  · intro tag as bs has hperm
    exact same_node_perm has hperm
  · intro as bs has hperm
    exact Json.same_object_perm has hperm
  · intro n x
    exact ⟨rfl, rfl⟩
  · intro a b names h
    exact lower_together names a.2 b.2 h

/-- The two zeros, in a sum whose fields stand in another order, as do the members of a leaf that no
    rule asks for. -/
theorem same_sound_zeros :
    let zero (bits : UInt64) (h : (Binary64.mk bits).isFinite = true) (note : List (String × Json)) :=
      [("value", leaf (.number (.float ⟨⟨bits⟩, h⟩))), ("note", leaf (.object note))]
    let note : List (String × Json) := [("from", .ofNat 1), ("to", .ofNat 4)]
    let read : Tree := node "ReadExpression" []
    let a : Tree := node "BinaryExpression" [("operator", leaf (.string "+")),
      ("left", node "Literal" (zero 0 rfl note)), ("right", read)]
    let b : Tree := node "BinaryExpression" [("right", read), ("operator", leaf (.string "+")),
      ("left", node "Literal" (zero 0x8000000000000000 rfl note.reverse).reverse)]
    (a.Distinct ∧ b.Distinct ∧ a.same b = true) ∧ b.same a = true ∧
      (leaf (.object note)).same (leaf (.object note.reverse)) = true ∧
      (node "Literal" (zero 0 rfl note)).same (node "Literal" (zero 0 rfl note).reverse) = true ∧
      ∃ x y, a.lower .standard = .ok x ∧ b.lower .standard = .ok y ∧ x.same y = true := by
  intro zero note read a b
  obtain ⟨-, hequivalence, hfields, hmembers, -, hlower⟩ := same_sound
  have hnote : (Json.object note).Distinct := ⟨by decide, trivial, trivial, trivial⟩
  have hzero : (node "Literal" (zero 0 rfl note)).Distinct :=
    ⟨by decide, trivial, hnote, trivial⟩
  have ha : a.Distinct :=
    ⟨by decide, trivial, hzero, ⟨by decide, trivial⟩, trivial⟩
  have hb : b.Distinct :=
    ⟨by decide, ⟨by decide, trivial⟩, trivial, ⟨by decide, ⟨by decide, trivial, trivial, trivial⟩,
      trivial, trivial⟩, trivial⟩
  have hsame : a.same b = true := by decide
  have htogether := hlower ⟨a, ha⟩ ⟨b, hb⟩ .standard hsame
  refine ⟨⟨ha, hb, hsame⟩, @hequivalence.symm ⟨a, ha⟩ ⟨b, hb⟩ hsame,
    hmembers _ _ hnote (List.reverse_perm note).symm,
    hfields _ _ _ hzero (List.reverse_perm _).symm, ?_⟩
  generalize hx : Tree.lower .standard a = x at htogether
  generalize hy : Tree.lower .standard b = y at htogether
  cases htogether with
  | ok hxy => exact ⟨_, _, rfl, rfl, hxy⟩
  | error => exact nomatch hx

end Tree

end TinyLang
