/-
  TinyLang.Proofs.Lowering.Expansion — steps in two parts.

  Expanding a list of steps puts all that stands behind a suspension into the function that
  the suspension is given.  So what stands behind `k` suspensions ends up `k` functions
  deep, and a list of steps is expanded part by part: the second part is GRAFTED into the
  first, at the depth of the suspensions there,

      graft? (number of suspensions in a) (expand a) (expand b) = some (expand (a ++ b))

  Read from the outside in, the functions give back the steps in their order (`unwind?`).
-/

import TinyLang.Lowering.Suspension

namespace TinyLang

open Script (Stmt Expr)

/-! ## §1. Statements that end in a call -/

/-- Statements of which the last is a call with a function as its last argument. -/
structure Deferral where
  before : List Stmt
  callee : Expr
  arguments : List Expr
  parameters : List String
  body : List Stmt

namespace Deferral

/-- The statements of a deferral. -/
def statements (d : Deferral) : List Stmt :=
  d.before ++ [.expression (.call d.callee (d.arguments ++ [.function d.parameters d.body]))]

/-- The deferral that statements are, if their last one is such a call. -/
def ofStatements? (a : List Stmt) : Option Deferral :=
  match a.getLast? with
  | some (.expression (.call callee arguments)) =>
    match arguments.getLast? with
    | some (.function parameters body) =>
      some ⟨a.dropLast, callee, arguments.dropLast, parameters, body⟩
    | _ => none
  | _ => none

/-- The statements of a deferral are taken apart into the deferral. -/
theorem ofStatements?_statements (d : Deferral) : ofStatements? d.statements = some d := by
  unfold ofStatements? statements
  rw [List.getLast?_concat, List.dropLast_concat]
  dsimp only
  rw [List.getLast?_concat, List.dropLast_concat]

/-- Taking statements apart loses none of them. -/
theorem statements_of_ofStatements? {a : List Stmt} {d : Deferral}
    (h : ofStatements? a = some d) : d.statements = a := by
  unfold ofStatements? at h
  split at h
  next callee arguments hlast =>
    split at h
    next parameters body hfunction =>
      -- the last statement is the call and its last argument the function, as they were taken apart
      obtain ⟨before, rfl⟩ := List.getLast?_eq_some_iff.1 hlast
      obtain ⟨own, rfl⟩ := List.getLast?_eq_some_iff.1 hfunction
      obtain rfl := Option.some.inj h
      unfold statements
      rw [List.dropLast_concat, List.dropLast_concat]
    next => exact absurd h (by simp)
  next => exact absurd h (by simp)

/-- A deferral with more statements in front. -/
def behind (front : List Stmt) (d : Deferral) : Deferral :=
  { d with before := front ++ d.before }

theorem statements_behind (front : List Stmt) (d : Deferral) :
    (d.behind front).statements = front ++ d.statements :=
  List.append_assoc front d.before _

end Deferral

/-! ## §2. Grafting -/

/-- Puts statements behind those that stand `k` functions deep, each function being the last
    argument of the last call. -/
def graft? : Nat → List Stmt → List Stmt → Option (List Stmt)
  | 0, a, b => some (a ++ b)
  | k + 1, a, b => do
    let d ← Deferral.ofStatements? a
    let body ← graft? k d.body b
    some { d with body := body }.statements

/-- One function deeper, the body is replaced by the graft of the body. -/
theorem graft?_statements {k : Nat} (d : Deferral) {b c : List Stmt}
    (h : graft? k d.body b = some c) :
    graft? (k + 1) d.statements b = some { d with body := c }.statements := by
  show (Deferral.ofStatements? d.statements >>= fun d => graft? k d.body b >>= _) = _
  rw [Deferral.ofStatements?_statements]
  show (graft? k d.body b >>= _) = _
  rw [h]
  rfl

/-- What is grafted goes behind all that stands in front. -/
theorem graft?_append_left (front : List Stmt) {k : Nat} {a b c : List Stmt}
    (h : graft? k a b = some c) : graft? k (front ++ a) b = some (front ++ c) := by
  cases k with
  | zero =>
      obtain rfl := Option.some.inj h
      show some (front ++ a ++ b) = _
      rw [List.append_assoc]
  | succ k =>
      obtain ⟨d, hd, h⟩ := Option.bind_eq_some_iff.1 h
      obtain ⟨body, hbody, h⟩ := Option.bind_eq_some_iff.1 h
      obtain rfl := Option.some.inj h
      obtain rfl := Deferral.statements_of_ofStatements? hd
      -- the last statement stays the last one, so the same function is entered
      rw [← Deferral.statements_behind, graft?_statements (d.behind front) hbody,
        ← Deferral.statements_behind]
      rfl

/-! ## §3. Unwinding -/

/-- What the steps of a list do, one after the other: a statement runs, or a call is made that goes
    on under the given names. -/
inductive Action where
  | run (s : Stmt)
  | await (callee : Expr) (arguments : List Expr) (parameters : List String)

/-- What a step does. Behind a call come the statements that already follow it. -/
def Step.actions : Step → List Action
  | .now s => [.run s]
  | .later s => .await s.callee s.arguments s.binding.toList :: s.continuation.map .run

/-- Whether a step is a call that goes on later. -/
def Step.waits : Step → Bool
  | .now _ => false
  | .later _ => true

/-- Reads statements from the outside in, through `k` functions, each of which is the last argument
    of the last call. -/
def unwind? : Nat → List Stmt → Option (List Action)
  | 0, a => some (a.map .run)
  | k + 1, a => do
    let d ← Deferral.ofStatements? a
    let actions ← unwind? k d.body
    some (d.before.map .run ++ .await d.callee d.arguments d.parameters :: actions)

/-- A deferral unwinds to what runs first, the call, and what its body unwinds to. -/
theorem unwind?_statements {k : Nat} (d : Deferral) {actions : List Action}
    (h : unwind? k d.body = some actions) :
    unwind? (k + 1) d.statements =
      some (d.before.map .run ++ .await d.callee d.arguments d.parameters :: actions) := by
  show (Deferral.ofStatements? d.statements >>= fun d => unwind? k d.body >>= _) = _
  rw [Deferral.ofStatements?_statements]
  show (unwind? k d.body >>= _) = _
  rw [h]
  rfl

/-- Statements in front are unwound first, at any depth. -/
theorem unwind?_append_left (front : List Stmt) {k : Nat} {a : List Stmt} {actions : List Action}
    (h : unwind? k a = some actions) :
    unwind? k (front ++ a) = some (front.map .run ++ actions) := by
  cases k with
  | zero =>
      obtain rfl := Option.some.inj h
      show some ((front ++ a).map Action.run) = _
      rw [List.map_append]
  | succ k =>
      obtain ⟨d, hd, h⟩ := Option.bind_eq_some_iff.1 h
      obtain ⟨inner, hinner, h⟩ := Option.bind_eq_some_iff.1 h
      obtain rfl := Option.some.inj h
      obtain rfl := Deferral.statements_of_ofStatements? hd
      -- statements in front of a deferral become part of what it runs before the call
      rw [← Deferral.statements_behind, unwind?_statements (d.behind front) hinner]
      show some ((front ++ d.before).map Action.run ++ _) = _
      rw [List.map_append, List.append_assoc]
      rfl

/-! ## §4. Expanded steps -/

/-- The call that a suspension becomes in front of the given statements. -/
def Suspension.deferral (s : Suspension) (rest : List Stmt) : Deferral :=
  ⟨[], s.callee, s.arguments, s.binding.toList, s.continuation ++ rest⟩

theorem expand_later (s : Suspension) (steps : List Step) :
    expand (.later s :: steps) = (s.deferral (expand steps)).statements := rfl

/-- **STEPS ARE EXPANDED PART BY PART.** -/
theorem graft?_expand (a b : List Step) :
    graft? (a.countP Step.waits) (expand a) (expand b) = some (expand (a ++ b)) := by
  induction a with
  | nil => rfl
  | cons step a ih =>
      cases step with
      | now s =>
          rw [List.countP_cons_of_neg Bool.false_ne_true]
          exact graft?_append_left [s] ih
      | later s =>
          -- the function of `s` holds what already follows `s`, and then the rest of `a`
          have hbody : graft? (a.countP Step.waits) (s.deferral (expand a)).body (expand b) =
              some (s.continuation ++ expand (a ++ b)) := graft?_append_left s.continuation ih
          rw [List.countP_cons_of_pos rfl, expand_later, graft?_statements _ hbody]
          rfl

/-- **NOTHING IS LOST, DOUBLED OR MOVED.** -/
theorem unwind?_expand (a : List Step) :
    unwind? (a.countP Step.waits) (expand a) = some (a.flatMap Step.actions) := by
  induction a with
  | nil => rfl
  | cons step a ih =>
      rw [List.flatMap_cons]
      cases step with
      | now s =>
          rw [List.countP_cons_of_neg Bool.false_ne_true]
          exact unwind?_append_left [s] ih
      -- one step of unwinding for each suspension, whose function holds all that follows
      | later s =>
          have hbody : unwind? (a.countP Step.waits) (s.deferral (expand a)).body =
              some (s.continuation.map .run ++ a.flatMap Step.actions) :=
            unwind?_append_left s.continuation ih
          rw [List.countP_cons_of_pos rfl, expand_later, unwind?_statements _ hbody]
          rfl

/-- **EXPANSION IS A HOMOMORPHISM**: the steps of a list are expanded part by part, the second part
    being grafted into the first at the depth of its suspensions; a suspension becomes its call
    with its own arguments and one function of its binding, in which what already follows it comes
    before all that is grafted; read from the outside in, the expanded statements do what the steps
    do, each once and in their order; and expanding them again changes nothing. -/
theorem expand_append_eq_graft (a b : List Step) :
    graft? (a.countP Step.waits) (expand a) (expand b) = some (expand (a ++ b)) ∧
      (∀ s : Suspension,
        graft? (a.countP Step.waits) (expand a)
            [.expression (.call s.callee
              (s.arguments ++ [.function s.binding.toList (s.continuation ++ expand b)]))] =
          some (expand (a ++ .later s :: b))) ∧
      unwind? (a.countP Step.waits) (expand a) = some (a.flatMap Step.actions) ∧
      expand ((expand a).map Step.now) = expand a := by
  refine ⟨graft?_expand a b, ?_, unwind?_expand a, expand_map_now (expand a)⟩
  intro s
  exact graft?_expand a (.later s :: b)

end TinyLang
