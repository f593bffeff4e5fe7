/-
  TinyLang.Proofs.Script.Operators.Scales — strengths of the printer against levels of the
  grammar.

  The printer decides on parentheses by one number for each expression and one for each
  place.  The grammar of the host language is no such scale, and there are three gaps:

    • `??` next to `||` or `&&` without parentheses is no expression at all,
    • neither is a negative number in front of `**`,
    • a negative number that is called, `-1()`, is the negative of a call.

  An expression without these, at any depth, is SEPARABLE.
-/

import TinyLang.Proofs.Script.Operators.Unambiguous
import TinyLang.Proofs.Script.Printed

namespace TinyLang.Script

open Grammar (isTarget)
open Naming (isIdentifier isIdentifierStart isIdentifierChar)
open Operators

/-! ## §1. Expressions that the printer knows -/

/-- A literal that is written with digits and letters only, or in quotes. -/
def Literal.Known : Literal → Prop
  | .number _ => False
  | _ => True

mutual

/-- An expression of names, literals, calls, members, assignments, functions without statements,
    and the operators that the printer has a strength for. -/
def Expr.Known : Expr → Prop
  | .identifier name => IsName name
  | .literal value => value.Known
  | .call callee arguments => callee.Known ∧ Expr.KnownAll arguments
  | .member object property => object.Known ∧ isIdentifier property = true
  | .assign operator left right =>
    operator = "=" ∧ isTarget left = true ∧ left.Known ∧ right.Known
  | .unary side operator argument =>
    side = .before ∧ operator ∈ frontOperators ∧ argument.Known
  | .binary operator left right =>
    (binaryStrength? operator).isSome = true ∧ left.Known ∧ right.Known
  | .function parameters body => (∀ x ∈ parameters, IsName x) ∧ body = []

/-- Expressions that are all known. -/
def Expr.KnownAll : List Expr → Prop
  | [] => True
  | e :: es => e.Known ∧ Expr.KnownAll es

end

/-- What a literal is read as: a negative number is the negative of a number. -/
def Literal.signed : Literal → Expr
  | .integer n =>
    if n < 0 then .unary .before "-" (.literal (.integer (-n))) else .literal (.integer n)
  | value => .literal value

mutual

/-- An expression with all its negative numbers read as negatives of numbers. -/
def Expr.signed : Expr → Expr
  | .identifier name => .identifier name
  | .literal value => value.signed
  | .call callee arguments => .call callee.signed (Expr.signedAll arguments)
  | .member object property => .member object.signed property
  | .assign operator left right => .assign operator left.signed right.signed
  | .unary side operator argument => .unary side operator argument.signed
  | .binary operator left right => .binary operator left.signed right.signed
  | .function parameters body => .function parameters body

/-- Expressions with all their negative numbers read as negatives of numbers. -/
def Expr.signedAll : List Expr → List Expr
  | [] => []
  | e :: es => e.signed :: Expr.signedAll es

end

/-! ## §2. Separable expressions -/

/-- Whether an expression is a negative number. -/
def Expr.isNegative : Expr → Bool
  | .literal (.integer n) => n < 0
  | _ => false

/-- Whether an expression is an operation with one of the given operators. -/
def Expr.isOperation (operators : List String) : Expr → Bool
  | .binary operator _ _ => operator ∈ operators
  | _ => false

/-- An operator and its operands do not run into one another. -/
def Separate (operator : String) (left right : Expr) : Prop :=
  (operator = "??" →
    left.isOperation ["||", "&&"] = false ∧ right.isOperation ["&&"] = false) ∧
  (operator = "||" → left.isOperation ["??"] = false) ∧
  (operator = "**" → left.isNegative = false)

mutual

/-- No two operators run into one another, and no negative number is called. -/
def Expr.Separable : Expr → Prop
  | .call callee arguments =>
    callee.isNegative = false ∧ callee.Separable ∧ Expr.SeparableAll arguments
  | .member object _ => object.Separable
  | .assign _ left right => left.Separable ∧ right.Separable
  | .unary _ _ argument => argument.Separable
  | .binary operator left right => Separate operator left right ∧ left.Separable ∧ right.Separable
  | _ => True

/-- Expressions that are all separable. -/
def Expr.SeparableAll : List Expr → Prop
  | [] => True
  | e :: es => e.Separable ∧ Expr.SeparableAll es

end

/-! ## §3. Strengths and levels -/

/-- The level of what an expression is read as. -/
def Expr.level (e : Expr) : Nat :=
  match e with
  | .assign _ _ _ => 0
  | .binary operator _ _ => Operators.Reader.levelOf operator
  | .unary _ _ _ => 13
  | .call _ _ | .member _ _ => 14
  | _ => if e.isNegative then 13 else 15

/-- The level of an expression at a place that asks for a least strength. -/
def Expr.levelAt (least : Nat) (e : Expr) : Nat := if e.strength < least then 15 else e.level

/-- The strength of the operators of a level. -/
def strengthOf (level : Nat) : Nat := if level ≤ 2 then 4 else level + 2

/-- The operators that the printer knows are those of the grammar. -/
theorem exists_operation {op : String} (h : (binaryStrength? op).isSome = true) :
    ∃ o, (op, o) ∈ operations := by
  have hop : op ∈ operations.map Prod.fst := by
    unfold binaryStrength? at h
    split at h
    -- the last case is that of all other texts
    rotate_right
    · exact absurd h (by simp)
    all_goals decide +kernel
  obtain ⟨⟨_, o⟩, ho, rfl⟩ := List.mem_map.1 hop
  exact ⟨o, ho⟩

/-- **The strengths of the printer follow the levels of the grammar**, and those of the operands
    too, except for the power. -/
theorem operation_strength {op : String} {o : Operation} (h : (op, o) ∈ operations) :
    binaryStrength? op = some (strengthOf o.level) ∧
      operandStrengths op =
        if op = "**" then (16, 14) else (strengthOf o.level, strengthOf o.level + 1) := by
  have hall : ∀ entry ∈ operations,
      binaryStrength? entry.1 = some (strengthOf entry.2.level) ∧
        operandStrengths entry.1 = if entry.1 = "**" then (16, 14)
          else (strengthOf entry.2.level, strengthOf entry.2.level + 1) := by
    decide +kernel
  exact hall (op, o) h

/-- Four operators are known by their levels. -/
theorem operation_names {op : String} {o : Operation} (h : (op, o) ∈ operations) :
    (op = "??" ↔ o.level = 1) ∧ (op = "||" ↔ o.level = 2) ∧ (op = "&&" ↔ o.level = 3) ∧
      (op = "**" ↔ o.level = 12) := by
  have hall : ∀ entry ∈ operations,
      (entry.1 = "??" ↔ entry.2.level = 1) ∧ (entry.1 = "||" ↔ entry.2.level = 2) ∧
        (entry.1 = "&&" ↔ entry.2.level = 3) ∧ (entry.1 = "**" ↔ entry.2.level = 12) := by
    decide +kernel
  exact hall (op, o) h

/-- How the strength of an expression goes with its level. Strengths follow the levels, but for the
    one that two operators share, and for negative numbers. -/
structure Expr.Weighed (e : Expr) : Prop where
  coalesce : e.isOperation ["??"] = true ↔ e.level = 1
  logical : e.isOperation ["||", "&&"] = true ↔ e.level = 2 ∨ e.level = 3
  conjunction : e.isOperation ["&&"] = true ↔ e.level = 3
  strength :
    (e.isNegative = true ∧ e.level = 13 ∧ e.strength = 20) ∨
      (e.isNegative = false ∧
        ((e.level = 0 ∧ e.strength = 3) ∨
          (1 ≤ e.level ∧ e.level ≤ 12 ∧ e.strength = strengthOf e.level) ∨
          (e.level = 13 ∧ e.strength = 15) ∨ (14 ≤ e.level ∧ 18 ≤ e.strength)))

/-- A binary expression has the strength of its level. -/
theorem weighed_binary {op : String} {o : Operation} (hop : (op, o) ∈ operations)
    (left right : Expr) : (Expr.binary op left right).Weighed := by
  -- an operator has one level in the grammar and one strength in the printer
  have hlevel : (Expr.binary op left right).level = o.level :=
    Operators.Reader.levelOf_eq hop
  have hstrength : (Expr.binary op left right).strength = strengthOf o.level := by
    show (binaryStrength? op).getD assignStrength = _
    rw [(operation_strength hop).1]
    rfl
  have hbounds := (Operators.Reader.climbs_of_mem hop).level
  obtain ⟨hcoalesce, hor, hand, -⟩ := operation_names hop
  refine ⟨?_, ?_, ?_, .inr ⟨rfl, .inr (.inl ?_)⟩⟩
  · rw [hlevel, ← hcoalesce]
    simp [Expr.isOperation]
  · rw [hlevel, ← hor, ← hand]
    simp [Expr.isOperation]
  · rw [hlevel, ← hand]
    simp [Expr.isOperation]
  · rw [hlevel, hstrength]
    exact ⟨hbounds.1, hbounds.2, rfl⟩

/-- What is no operation needs no more than its level and strength. -/
theorem weighed_of_strength {e : Expr} (hop : ∀ operators, e.isOperation operators = false)
    (hstrength : (e.isNegative = true ∧ e.level = 13 ∧ e.strength = 20) ∨
      (e.isNegative = false ∧ ((e.level = 0 ∧ e.strength = 3) ∨
        (e.level = 13 ∧ e.strength = 15) ∨ (14 ≤ e.level ∧ 18 ≤ e.strength)))) : e.Weighed := by
  have hlevel : e.level = 0 ∨ 13 ≤ e.level := by omega
  refine ⟨?_, ?_, ?_, ?_⟩
  · rw [hop]
    exact ⟨fun h => absurd h (by simp), fun h => absurd h (by omega)⟩
  · rw [hop]
    exact ⟨fun h => absurd h (by simp), fun h => absurd h (by omega)⟩
  · rw [hop]
    exact ⟨fun h => absurd h (by simp), fun h => absurd h (by omega)⟩
  · exact hstrength.imp_right fun h => ⟨h.1, h.2.imp_right .inr⟩

/-- Every expression that the printer knows has the strength of its level. -/
theorem Expr.Known.weighed {e : Expr} (h : e.Known) : e.Weighed := by
  cases e with
  | binary op left right =>
      obtain ⟨o, hop⟩ := exists_operation h.1
      exact weighed_binary hop left right
  | identifier name =>
      refine weighed_of_strength (fun _ => rfl) (.inr ⟨rfl, .inr (.inr ⟨?_, ?_⟩)⟩)
      · show 14 ≤ 15
        omega
      · show 18 ≤ 20
        omega
  | function parameters body =>
      refine weighed_of_strength (fun _ => rfl) (.inr ⟨rfl, .inr (.inr ⟨?_, ?_⟩)⟩)
      · show 14 ≤ 15
        omega
      · show 18 ≤ 20
        omega
  | call callee arguments =>
      exact weighed_of_strength (fun _ => rfl)
        (.inr ⟨rfl, .inr (.inr ⟨Nat.le_refl 14, Nat.le_refl 18⟩)⟩)
  | member object property =>
      exact weighed_of_strength (fun _ => rfl)
        (.inr ⟨rfl, .inr (.inr ⟨Nat.le_refl 14, Nat.le_refl 18⟩)⟩)
  | assign op left right =>
      exact weighed_of_strength (fun _ => rfl) (.inr ⟨rfl, .inl ⟨rfl, rfl⟩⟩)
  | unary side op argument =>
      obtain ⟨rfl, -, -⟩ := h
      exact weighed_of_strength (fun _ => rfl) (.inr ⟨rfl, .inr (.inl ⟨rfl, rfl⟩)⟩)
  | literal value =>
      -- a literal is as strong as can be, whether it is a negative number or not
      refine weighed_of_strength (fun _ => rfl) ?_
      cases hn : (Expr.literal value).isNegative with
      | true => exact .inl ⟨rfl, if_pos hn, rfl⟩
      | false =>
          refine .inr ⟨rfl, .inr (.inr ⟨?_, ?_⟩)⟩
          · show 14 ≤ if (Expr.literal value).isNegative = true then 13 else 15
            rw [hn]
            decide
          · show 18 ≤ 20
            omega

/-! ### Places

Each place of the printer asks for a strength and each place of the grammar for a level.  Here they
are compared, one kind of place after the other. -/

section Places

variable {e left right : Expr}

/-- From `&&` on a place of the printer asks for what the place of the grammar does. -/
theorem Expr.Weighed.le_levelAt (h : e.Weighed) {k : Nat} (hk : 3 ≤ k) (hk' : k ≤ 13) :
    k ≤ e.levelAt (k + 2) := by
  have hstrength := h.strength
  unfold levelAt
  unfold strengthOf at hstrength
  split <;> split at hstrength <;> omega

/-- In front of `||` an operation `??` would have to stand in parentheses, and does not. -/
theorem Expr.Weighed.two_le_levelAt_iff (h : e.Weighed) :
    2 ≤ e.levelAt 4 ↔ e.isOperation ["??"] = false := by
  have hstrength := h.strength
  have hcoalesce := h.coalesce
  rw [← Bool.not_eq_true, hcoalesce]
  unfold levelAt
  unfold strengthOf at hstrength
  split <;> split at hstrength <;> omega

/-- In front of `??` operations `||` and `&&` would have to stand in parentheses, and do not. -/
theorem Expr.Weighed.beforeCoalesce_iff (h : e.Weighed) :
    Place.beforeCoalesce.Admits (e.levelAt 4) ↔ e.isOperation ["||", "&&"] = false := by
  have hstrength := h.strength
  have hlogical := h.logical
  rw [← Bool.not_eq_true, hlogical]
  show e.levelAt 4 = 1 ∨ 4 ≤ e.levelAt 4 ↔ _
  unfold levelAt
  unfold strengthOf at hstrength
  split <;> split at hstrength <;> omega

/-- Behind `??` an operation `&&` would have to stand in parentheses, and does not. -/
theorem Expr.Weighed.four_le_levelAt_iff (h : e.Weighed) :
    4 ≤ e.levelAt 5 ↔ e.isOperation ["&&"] = false := by
  have hstrength := h.strength
  have hconjunction := h.conjunction
  rw [← Bool.not_eq_true, hconjunction]
  unfold levelAt
  unfold strengthOf at hstrength
  split <;> split at hstrength <;> omega

/-- Where a call may stand, a negative number would have to stand in parentheses, and does not. -/
theorem Expr.Weighed.call_le_levelAt_iff (h : e.Weighed) {least : Nat} (hl : 16 ≤ least)
    (hl' : least ≤ 18) : 14 ≤ e.levelAt least ↔ e.isNegative = false := by
  have hstrength := h.strength
  unfold levelAt
  unfold strengthOf at hstrength
  rcases hstrength with hnegative | ⟨hnegative, hstrength⟩
  · rw [hnegative.1]
    split <;> simp <;> omega
  · rw [hnegative]
    split <;> split at hstrength <;> simp <;> omega

/-- **WHERE THE TWO SCALES AGREE**: the operands of an operator stand at their places as the grammar
    demands if and only if they are separate from the operator. -/
theorem admits_iff_separate {op : String} {o : Operation} (hop : (op, o) ∈ operations)
    (hl : left.Weighed) (hr : right.Weighed) :
    (o.left.Admits (left.levelAt (operandStrengths op).1) ∧
      o.right.Admits (right.levelAt (operandStrengths op).2)) ↔ Separate op left right := by
  obtain ⟨hcoalesce, hor, -, hpower⟩ := operation_names hop
  have hstrengths := (operation_strength hop).2
  unfold Separate
  rcases Operators.Reader.operations_cases hop with rfl | rfl | ⟨k, h₂, h₁₁, rfl⟩
  · -- next to `??` no other logical operation may stand without parentheses
    obtain rfl : op = "??" := hcoalesce.2 rfl
    rw [hstrengths]
    show Place.beforeCoalesce.Admits (left.levelAt 4) ∧ 4 ≤ right.levelAt 5 ↔ _
    rw [hl.beforeCoalesce_iff, hr.four_le_levelAt_iff]
    simp
  · -- no sign may stand on the left of a power
    obtain rfl : op = "**" := hpower.2 rfl
    rw [hstrengths]
    show 14 ≤ left.levelAt 16 ∧ 12 ≤ right.levelAt 14 ↔ _
    rw [hl.call_le_levelAt_iff (by omega) (by omega)]
    have hright := hr.le_levelAt (k := 12) (by omega) (by omega)
    simp [hright]
  · have hne : op ≠ "??" ∧ op ≠ "**" := by
      rw [Ne, Ne, hcoalesce, hpower]
      show ¬ k = 1 ∧ ¬ k = 12
      omega
    rw [hstrengths, if_neg hne.2]
    show k ≤ left.levelAt (strengthOf k) ∧ k + 1 ≤ right.levelAt (strengthOf k + 1) ↔ _
    by_cases hk : k = 2
    · -- `??` is not weaker than `||` for the printer, but it is in the grammar
      subst hk
      obtain rfl : op = "||" := hor.2 rfl
      show 2 ≤ left.levelAt 4 ∧ 3 ≤ right.levelAt 5 ↔ _
      rw [hl.two_le_levelAt_iff]
      have hright := hr.le_levelAt (k := 3) (by omega) (by omega)
      simp [hright]
    · -- all other operators are on both scales in the same order
      have hnor : op ≠ "||" := fun h => hk (hor.1 h)
      have hstrength : strengthOf k = k + 2 := if_neg (by omega)
      have hleft := hl.le_levelAt (k := k) (by omega) (by omega)
      have hright := hr.le_levelAt (k := k + 1) (by omega) (by omega)
      rw [hstrength]
      simp [hne, hnor, hleft, hright]

end Places

end TinyLang.Script
