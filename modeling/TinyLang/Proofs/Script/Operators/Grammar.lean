/-
  TinyLang.Proofs.Script.Operators.Grammar — expressions of the host language with all its
  operators that are written in front of an operand or between two, as derivations.

  Every form of expression has a LEVEL, and every place for an expression says which levels
  it admits; parentheses stand on the tightest level and leave no trace.

       0   target "=" value              8   < > <= >= in instanceof
       1   ??                            9   << >> >>>
       2   ||                           10   + -
       3   &&                           11   * / %
       4   |                            12   **
       5   ^                            13   operators in front
       6   &                            14   calls and members
       7   == != === !==                15   names, literals, functions, parentheses

  Most places admit a level and all tighter ones.  In two ways operators do not fit in:
  an operator in front is too loose for the left side of `**`, and `??` keeps away from `||`
  and `&&`, so that what stands in front of it is a chain of `??` or tighter than `&&`.

  The expressions of scripts are among these (§4), so what holds of every expression here,
  that its tokens stand for no other one above all, holds of them too.
-/

import TinyLang.Proofs.Script.Grammar

namespace TinyLang.Script.Operators

open Grammar (isTarget)

/-! ## §1. Places and operators -/

/-- A place for an expression. -/
inductive Place where
  | atLeast (level : Nat)
  | beforeCoalesce
deriving DecidableEq, Repr

/-- Whether an expression of a level may stand at a place as it is. -/
def Place.Admits : Place → Nat → Prop
  | .atLeast least, level => least ≤ level
  | .beforeCoalesce, level => level = 1 ∨ 4 ≤ level

/-- A binary operator: its level, and the places of its operands. -/
structure Operation where
  level : Nat
  left : Place
  right : Place
deriving DecidableEq, Repr

/-- An operator that groups to the left. -/
def Operation.leftward (level : Nat) : Operation := ⟨level, .atLeast level, .atLeast (level + 1)⟩

/-- The binary operators. -/
def operations : List (String × Operation) :=
  [("??", ⟨1, .beforeCoalesce, .atLeast 4⟩), ("||", .leftward 2), ("&&", .leftward 3),
    ("|", .leftward 4), ("^", .leftward 5), ("&", .leftward 6),
    ("==", .leftward 7), ("!=", .leftward 7), ("===", .leftward 7), ("!==", .leftward 7),
    ("<", .leftward 8), (">", .leftward 8), ("<=", .leftward 8), (">=", .leftward 8),
    ("in", .leftward 8), ("instanceof", .leftward 8),
    ("<<", .leftward 9), (">>", .leftward 9), (">>>", .leftward 9),
    ("+", .leftward 10), ("-", .leftward 10),
    ("*", .leftward 11), ("/", .leftward 11), ("%", .leftward 11),
    ("**", ⟨12, .atLeast 14, .atLeast 12⟩)]

/-- The operators in front of an operand. -/
def frontOperators : List String := ["!", "-", "+", "~", "typeof", "void", "delete"]

/-- The operators that are words. -/
def wordOperators : List String := ["in", "instanceof", "typeof", "void", "delete"]

/-- The token of an operator. -/
def operatorToken (op : String) : Token := if op ∈ wordOperators then .word op else .mark op

/-- Parentheses around tokens. -/
def inParens (ts : List Token) : List Token := .mark "(" :: ts ++ [.mark ")"]

/-- The tokens of the parameters of a function. -/
def parameterTokens : List String → List Token
  | [] => []
  | [x] => [.word x]
  | x :: y :: more => .word x :: .mark "," :: parameterTokens (y :: more)

/-! ## §2. Expressions -/

mutual

/-- Tokens stand for an expression at a place. -/
inductive Phrase : Place → List Token → Expr → Prop
  | assign {p : Place} {us vs : List Token} {target value : Expr} : p.Admits 0 →
      isTarget target = true → Phrase (.atLeast 14) us target → Phrase (.atLeast 0) vs value →
      Phrase p (us ++ .mark "=" :: vs) (.assign "=" target value)
  | binary {p : Place} {us vs : List Token} {op : String} {o : Operation} {left right : Expr} :
      (op, o) ∈ operations → p.Admits o.level → Phrase o.left us left →
      Phrase o.right vs right → Phrase p (us ++ operatorToken op :: vs) (.binary op left right)
  | unary {p : Place} {ts : List Token} {op : String} {e : Expr} : op ∈ frontOperators →
      p.Admits 13 → Phrase (.atLeast 13) ts e →
      Phrase p (operatorToken op :: ts) (.unary .before op e)
  | member {p : Place} {ts : List Token} {object : Expr} {property : String} : p.Admits 14 →
      Phrase (.atLeast 14) ts object →
      Phrase p (ts ++ [.mark ".", .word property]) (.member object property)
  | call {p : Place} {us vs : List Token} {callee : Expr} {arguments : List Expr} :
      p.Admits 14 → Phrase (.atLeast 14) us callee → Arguments vs arguments →
      Phrase p (us ++ inParens vs) (.call callee arguments)
  | identifier {p : Place} {name : String} : p.Admits 15 → name ∉ reservedWords →
      Phrase p [.word name] (.identifier name)
  | number {p : Place} {n : Nat} : p.Admits 15 → Phrase p [.number n] (.literal (.integer n))
  | string {p : Place} {s : String} : p.Admits 15 → Phrase p [.string s] (.literal (.string s))
  | null {p : Place} : p.Admits 15 → Phrase p [.word "null"] (.literal .null)
  | true {p : Place} : p.Admits 15 → Phrase p [.word "true"] (.literal (.bool Bool.true))
  | false {p : Place} : p.Admits 15 → Phrase p [.word "false"] (.literal (.bool Bool.false))
  | function {p : Place} {parameters : List String} : p.Admits 15 →
      (∀ x ∈ parameters, x ∉ reservedWords) →
      Phrase p
        (.word "function" :: inParens (parameterTokens parameters) ++
          [.mark "\x7b", .mark "\x7d"])
        (.function parameters [])
  | parens {p : Place} {ts : List Token} {e : Expr} : p.Admits 15 → Phrase (.atLeast 0) ts e →
      Phrase p (inParens ts) e

/-- The arguments of a call. -/
inductive Arguments : List Token → List Expr → Prop
  | none : Arguments [] []
  | some {ts : List Token} {es : List Expr} : Items ts es → Arguments ts es

/-- One or more expressions with commas between them. -/
inductive Items : List Token → List Expr → Prop
  | last {ts : List Token} {e : Expr} : Phrase (.atLeast 0) ts e → Items ts [e]
  | more {us vs : List Token} {e : Expr} {es : List Expr} : Phrase (.atLeast 0) us e →
      Items vs es → Items (us ++ .mark "," :: vs) (e :: es)

end

/-- A text is read as a statement that is an expression. What starts with `function` or an opening
    brace would be another statement. -/
def Reads (text : String) (e : Expr) : Prop :=
  ∃ ts, Tokenized text.toList (ts ++ [.mark ";"]) ∧ ts.head? ≠ some (.word "function") ∧
    ts.head? ≠ some (.mark "\x7b") ∧ Phrase (.atLeast 0) ts e

/-! ## §3. Brackets -/

/-- How much deeper in parentheses one is behind a token. -/
def weight (t : Token) : Int := if t = .mark "(" then 1 else if t = .mark ")" then -1 else 0

/-- How much deeper in parentheses one is behind tokens. -/
def depth : List Token → Int
  | [] => 0
  | t :: ts => weight t + depth ts

/-- Parentheses come in pairs: one is never further out than at the start, and not further in at
    the end. -/
structure Balanced (ts : List Token) : Prop where
  total : depth ts = 0
  within : ∀ a b, ts = a ++ b → 0 ≤ depth a

theorem depth_nil : depth [] = 0 := rfl

theorem depth_cons (t : Token) (ts : List Token) : depth (t :: ts) = weight t + depth ts := rfl

/-- One is as deep behind two parts as both take together. -/
theorem depth_append (us vs : List Token) : depth (us ++ vs) = depth us + depth vs := by
  induction us with
  | nil => rw [List.nil_append, depth_nil, Int.zero_add]
  | cons u us ih => rw [List.cons_append, depth_cons, depth_cons, ih, Int.add_assoc]

theorem balanced_nil : Balanced [] := by
  refine ⟨rfl, ?_⟩
  intro a b h
  obtain ⟨rfl, -⟩ := List.append_eq_nil_iff.1 h.symm
  exact Int.le_refl _

/-- Parentheses that come in pairs in two parts do so in the whole. -/
theorem Balanced.append {us vs : List Token} (hu : Balanced us) (hv : Balanced vs) :
    Balanced (us ++ vs) := by
  refine ⟨?_, ?_⟩
  · rw [depth_append, hu.total, hv.total]
    rfl
  · intro a b h
    rcases List.append_eq_append_iff.1 h with ⟨c, rfl, hc⟩ | ⟨c, rfl, -⟩
    · have hinside := hv.within c b hc
      rw [depth_append, hu.total]
      omega
    · exact hu.within a c rfl

/-- A token that is no parenthesis. -/
theorem balanced_token {t : Token} (h : weight t = 0) : Balanced [t] := by
  refine ⟨by rw [depth_cons, h]; rfl, ?_⟩
  intro a b hab
  rcases List.cons_eq_append_iff.1 hab with ⟨rfl, -⟩ | ⟨a, rfl, hnil⟩
  · exact Int.le_refl _
  · obtain ⟨rfl, -⟩ := List.append_eq_nil_iff.1 hnil.symm
    rw [depth_cons, h]
    exact Int.le_refl _

theorem Balanced.cons {t : Token} {ts : List Token} (ht : weight t = 0) (h : Balanced ts) :
    Balanced (t :: ts) := by
  rw [← List.singleton_append]
  exact (balanced_token ht).append h

/-- Parentheses around what is balanced are a pair. -/
theorem Balanced.inParens {ts : List Token} (h : Balanced ts) : Balanced (inParens ts) := by
  unfold Operators.inParens
  refine ⟨?_, ?_⟩
  · rw [List.cons_append, depth_cons, depth_append, h.total, depth_cons, depth_nil]
    rfl
  · intro a b hab
    rw [List.cons_append] at hab
    rcases List.cons_eq_append_iff.1 hab with ⟨rfl, -⟩ | ⟨a, rfl, hrest⟩
    · exact Int.le_refl _
    · -- behind the opening parenthesis there is one to spare for the closing one
      have hopen : weight (.mark "(") = 1 := rfl
      have hclose : weight (.mark ")") = -1 := rfl
      rw [depth_cons, hopen]
      rcases List.append_eq_append_iff.1 hrest with ⟨c, rfl, hc⟩ | ⟨c, rfl, -⟩
      · rw [depth_append, h.total]
        rcases List.cons_eq_append_iff.1 hc with ⟨rfl, -⟩ | ⟨d, rfl, hd⟩
        · rw [depth_nil]
          omega
        · obtain ⟨rfl, -⟩ := List.append_eq_nil_iff.1 hd.symm
          rw [depth_cons, depth_nil, hclose]
          omega
      · have hinside := h.within a c rfl
        omega

/-- No operator is a parenthesis. -/
theorem weight_operatorToken {op : String} (h : op ≠ "(" ∧ op ≠ ")") :
    weight (operatorToken op) = 0 := by
  unfold operatorToken weight
  split
  · rfl
  · rw [if_neg (by simp [h.1]), if_neg (by simp [h.2])]

/-- No binary operator is a parenthesis. -/
theorem operations_ne {op : String} {o : Operation} (h : (op, o) ∈ operations) :
    op ≠ "(" ∧ op ≠ ")" := by
  have hall : ∀ entry ∈ operations, entry.1 ≠ "(" ∧ entry.1 ≠ ")" := by decide +kernel
  exact hall (op, o) h

theorem frontOperators_ne {op : String} (h : op ∈ frontOperators) : op ≠ "(" ∧ op ≠ ")" := by
  have hall : ∀ op ∈ frontOperators, op ≠ "(" ∧ op ≠ ")" := by decide +kernel
  exact hall op h

theorem balanced_parameterTokens (xs : List String) : Balanced (parameterTokens xs) := by
  induction xs with
  | nil => exact balanced_nil
  | cons x xs ih =>
      cases xs with
      | nil => exact balanced_token rfl
      | cons y xs => exact .cons rfl (.cons rfl ih)

mutual

/-- **WHAT IS DERIVED IS BALANCED.** -/
theorem Phrase.balanced : ∀ {p : Place} {ts : List Token} {e : Expr}, Phrase p ts e → Balanced ts
  | _, _, _, .assign _ _ ht hv => ht.balanced.append (.cons rfl hv.balanced)
  | _, _, _, .binary hop _ hl hr =>
      hl.balanced.append (.cons (weight_operatorToken (operations_ne hop)) hr.balanced)
  | _, _, _, .unary hop _ h => .cons (weight_operatorToken (frontOperators_ne hop)) h.balanced
  | _, _, _, .member _ h => h.balanced.append (.cons rfl (balanced_token rfl))
  | _, _, _, .call _ hf ha => hf.balanced.append ha.balanced.inParens
  | _, _, _, .identifier _ _ => balanced_token rfl
  | _, _, _, .number _ => balanced_token rfl
  | _, _, _, .string _ => balanced_token rfl
  | _, _, _, .null _ => balanced_token rfl
  | _, _, _, .true _ => balanced_token rfl
  | _, _, _, .false _ => balanced_token rfl
  -- the braces of a function weigh nothing, and its parameters are in parentheses
  | _, _, _, .function _ _ =>
      (Balanced.cons rfl (balanced_parameterTokens _).inParens).append
        (.cons rfl (balanced_token rfl))
  | _, _, _, .parens _ h => h.balanced.inParens

theorem Arguments.balanced : ∀ {ts : List Token} {es : List Expr}, Arguments ts es → Balanced ts
  | _, _, .none => balanced_nil
  | _, _, .some h => h.balanced

theorem Items.balanced : ∀ {ts : List Token} {es : List Expr}, Items ts es → Balanced ts
  | _, _, .last h => h.balanced
  | _, _, .more h hs => h.balanced.append (.cons rfl hs.balanced)

end

/-- No expression is written with nothing. -/
theorem Phrase.ne_nil {p : Place} {ts : List Token} {e : Expr} (h : Phrase p ts e) : ts ≠ [] := by
  cases h <;> simp [inParens]

theorem Items.ne_nil {ts : List Token} {es : List Expr} (h : Items ts es) : ts ≠ [] := by
  cases h with
  | last h => exact h.ne_nil
  | more _ _ => simp

/-- Balanced tokens do not start with a closing parenthesis. -/
theorem Balanced.head_ne {ts : List Token} (h : Balanced ts) : ts.head? ≠ some (.mark ")") := by
  intro hhead
  cases ts with
  | nil => exact absurd hhead (by simp)
  | cons t ts =>
      obtain rfl := Option.some.inj hhead
      have hfirst := h.within [.mark ")"] ts rfl
      exact absurd hfirst (by decide)

/-! ## §4. Expressions of scripts -/

/-- What stands at a place stands wherever no more is asked of it. -/
theorem Phrase.mono {p q : Place} (hpq : ∀ k, p.Admits k → q.Admits k) {ts : List Token} {e : Expr}
    (h : Phrase p ts e) : Phrase q ts e := by
  cases h with
  | assign hp htarget ht hv => exact .assign (hpq _ hp) htarget ht hv
  | binary hop hp hl hr => exact .binary hop (hpq _ hp) hl hr
  | unary hop hp h => exact .unary hop (hpq _ hp) h
  | member hp h => exact .member (hpq _ hp) h
  | call hp hf ha => exact .call (hpq _ hp) hf ha
  | identifier hp hx => exact .identifier (hpq _ hp) hx
  | number hp => exact .number (hpq _ hp)
  | string hp => exact .string (hpq _ hp)
  | null hp => exact .null (hpq _ hp)
  | true hp => exact .true (hpq _ hp)
  | false hp => exact .false (hpq _ hp)
  | function hp hx => exact .function (hpq _ hp) hx
  | parens hp h => exact .parens (hpq _ hp) h

/-- A tighter expression may stand wherever a looser one may. -/
theorem Phrase.looser {j k : Nat} (hjk : j ≤ k) {ts : List Token} {e : Expr}
    (h : Phrase (.atLeast k) ts e) : Phrase (.atLeast j) ts e :=
  h.mono fun _ hk => Nat.le_trans hjk hk

/-- The level among all operators of an expression on a level of scripts. -/
def hostLevel : Nat → Nat
  | 0 => 0
  | 1 => 2
  | 2 => 3
  | 3 => 7
  | 4 => 8
  | 5 => 10
  | 6 => 11
  | 7 => 13
  | 8 => 14
  | _ => 15

/-- The levels of scripts keep their order among all levels. -/
theorem hostLevel_lt {k : Nat} (hk : k < 9) : hostLevel k < hostLevel (k + 1) := by
  have hall : ∀ k < 9, hostLevel k < hostLevel (k + 1) := by decide
  exact hall k hk

/-- A binary operator of scripts is one among all, with the level that belongs to its own. -/
theorem operatorsOf_operations {k : Nat} {op : String} (h : op ∈ Grammar.operatorsOf k) :
    (op, Operation.leftward (hostLevel k)) ∈ operations ∧ operatorToken op = .mark op := by
  have hall : ∀ k < 7, ∀ op ∈ Grammar.operatorsOf k,
      (op, Operation.leftward (hostLevel k)) ∈ operations ∧ operatorToken op = .mark op := by
    decide +kernel
  have hk := Grammar.operatorsOf_level h
  exact hall k (by omega) op h

/-- The signs of scripts are among the operators in front. -/
theorem signs_frontOperators {op : String} (h : op ∈ Grammar.signs) :
    op ∈ frontOperators ∧ operatorToken op = .mark op := by
  have hall : ∀ op ∈ Grammar.signs, op ∈ frontOperators ∧ operatorToken op = .mark op := by
    decide +kernel
  exact hall op h

mutual

/-- **EXPRESSIONS OF SCRIPTS ARE EXPRESSIONS OF THE HOST LANGUAGE**, each on the level that belongs
    to its own. -/
theorem phrase_of_script : ∀ {k : Nat} {ts : List Token} {e : Expr}, Grammar.Phrase k ts e →
    Phrase (.atLeast (hostLevel k)) ts e
  | _, _, _, .tighter hk h => (phrase_of_script h).looser (Nat.le_of_lt (hostLevel_lt hk))
  | _, _, _, .assign htarget ht hv =>
      .assign (Nat.le_refl _) htarget (phrase_of_script ht) (phrase_of_script hv)
  | _, _, _, @Grammar.Phrase.binary k us vs op left right hop hl hr => by
      obtain ⟨hmem, htoken⟩ := operatorsOf_operations hop
      have hlevel := Grammar.operatorsOf_level hop
      -- the right operand of a script stands on the next level of scripts, which is no looser
      have hright := (phrase_of_script hr).looser (hostLevel_lt (by omega))
      rw [← htoken]
      exact .binary hmem (Nat.le_refl _) (phrase_of_script hl) hright
  | _, _, _, .unary hop h => by
      obtain ⟨hmem, htoken⟩ := signs_frontOperators hop
      rw [← htoken]
      exact .unary hmem (Nat.le_refl _) (phrase_of_script h)
  | _, _, _, .member h => .member (Nat.le_refl _) (phrase_of_script h)
  | _, _, _, .call hf ha => by
      rw [List.append_assoc]
      exact .call (Nat.le_refl _) (phrase_of_script hf) (arguments_of_script ha)
  | _, _, _, .identifier hx => .identifier (Nat.le_refl _) hx
  | _, _, _, .number => .number (Nat.le_refl _)
  | _, _, _, .string => .string (Nat.le_refl _)
  | _, _, _, .true => .true (Nat.le_refl _)
  | _, _, _, .false => .false (Nat.le_refl _)
  | _, _, _, .parens h => .parens (Nat.le_refl _) (phrase_of_script h)

/-- The arguments of a call in a script are arguments of the host language. -/
theorem arguments_of_script : ∀ {ts : List Token} {es : List Expr}, Grammar.Arguments ts es →
    Arguments ts es
  | _, _, .none => .none
  | _, _, .some h => .some (items_of_script h)

theorem items_of_script : ∀ {ts : List Token} {es : List Expr}, Grammar.Items ts es → Items ts es
  | _, _, .last h => .last (phrase_of_script h)
  | _, _, .more h hs => .more (phrase_of_script h) (items_of_script hs)

end

end TinyLang.Script.Operators
