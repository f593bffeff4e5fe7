/-
  TinyLang.Proofs.Script.Operators.Unambiguous — tokens stand for at most one expression.

  A reader takes tokens from the left, with a bound on its steps.  It need not be shown
  right: it is enough that it finds WHATEVER is derived, once the bound is large enough,

      Phrase p ts e  →  phrase m (ts ++ rest) = some (e, rest)       for all large m

  because then two derivations of one list of tokens must give the same expression.
  Operators of a level group to the left in the grammar, so an expression is followed along
  its left edge: reading it brings the reader into the loop over operators with the
  expression in hand, whatever stands behind it.

  The reader knows an operator by its level and by the least level of its right operand.
  It is more generous than the grammar, since it never looks whether `??` stands next to
  `||`; it only has to find the one expression that the tokens can stand for.
-/

import TinyLang.Proofs.Script.Operators.Grammar

namespace TinyLang.Script.Operators

namespace Reader

/-! ## §1. The reader -/

/-- What a token says, if it is a word or a mark. -/
def textOf : Token → String
  | .word text | .mark text => text
  | _ => ""

/-- The least level that a place asks for. -/
def leastOf : Place → Nat
  | .atLeast least => least
  | .beforeCoalesce => 1

/-- The level of a binary operator, and 0 for everything else. -/
def levelOf (op : String) : Nat := ((operations.lookup op).map Operation.level).getD 0

/-- The least level of the right operand of a binary operator. -/
def rightOf (op : String) : Nat := ((operations.lookup op).map fun o => leastOf o.right).getD 0

/-- The tokens of the operators in front of an operand. -/
def frontTokens : List Token := frontOperators.map operatorToken

/-- The level of the binary operator that tokens start with, if they do. -/
def headLevel : List Token → Nat
  | [] => 0
  | t :: _ => levelOf (textOf t)

/-- Reads the parameters of a function. -/
def parameters : List Token → List String × List Token
  | .word x :: ts => (x :: (parameters ts).1, (parameters ts).2)
  | .mark m :: ts => if m = "," then parameters ts else ([], .mark m :: ts)
  | ts => ([], ts)

mutual

/-- Reads an expression. -/
def phrase : Nat → List Token → Option (Expr × List Token)
  | 0, _ => none
  | n + 1, ts => do
    let (e, ts) ← climb n 1 ts
    if ts.head? = some (.mark "=") then do
      let (value, ts) ← phrase n ts.tail
      some (.assign "=" e value, ts)
    else some (e, ts)

/-- Reads an expression of a least level from 1 on. -/
def climb : Nat → Nat → List Token → Option (Expr × List Token)
  | 0, _, _ => none
  | n + 1, least, ts => do
    let (e, ts) ← operand n ts
    operators n least e ts

/-- Reads the operators of a level or above behind their left operand. -/
def operators : Nat → Nat → Expr → List Token → Option (Expr × List Token)
  | 0, _, _, _ => none
  | n + 1, least, left, ts =>
    if headLevel ts < least then some (left, ts)
    else
      match ts with
      | t :: ts => do
        let (right, ts) ← climb n (rightOf (textOf t)) ts
        operators n least (.binary (textOf t) left right) ts
      | [] => none

/-- Reads operators in front and what is behind them. -/
def operand : Nat → List Token → Option (Expr × List Token)
  | 0, _ => none
  | n + 1, ts =>
    match ts with
    | t :: rest =>
      if t ∈ frontTokens then do
        let (e, ts) ← operand n rest
        some (.unary .before (textOf t) e, ts)
      else chain n ts
    | [] => none

/-- Reads a chain of members and calls. -/
def chain : Nat → List Token → Option (Expr × List Token)
  | 0, _ => none
  | n + 1, ts => do
    let (e, ts) ← primary n ts
    suffixes n e ts

/-- Reads the members and calls behind an expression. -/
def suffixes : Nat → Expr → List Token → Option (Expr × List Token)
  | 0, _, _ => none
  | n + 1, e, ts =>
    if ts.head? = some (.mark ".") then
      match ts.tail with
      | .word property :: ts => suffixes n (.member e property) ts
      | _ => none
    else if ts.head? = some (.mark "(") then do
      let (es, ts) ← arguments n ts.tail
      suffixes n (.call e es) ts
    else some (e, ts)

/-- Reads arguments up to the parenthesis that closes them. -/
def arguments : Nat → List Token → Option (List Expr × List Token)
  | 0, _ => none
  | n + 1, ts => if ts.head? = some (.mark ")") then some ([], ts.tail) else items n ts

/-- Reads one or more arguments. -/
def items : Nat → List Token → Option (List Expr × List Token)
  | 0, _ => none
  | n + 1, ts => do
    let (e, ts) ← phrase n ts
    if ts.head? = some (.mark ",") then do
      let (es, ts) ← items n ts.tail
      some (e :: es, ts)
    else some ([e], ts.tail)

/-- Reads a primary expression. -/
def primary : Nat → List Token → Option (Expr × List Token)
  | 0, _ => none
  | n + 1, ts =>
    match ts with
    | .number k :: ts => some (.literal (.integer k), ts)
    | .string s :: ts => some (.literal (.string s), ts)
    | .word x :: ts =>
      if x = "null" then some (.literal .null, ts)
      else if x = "true" then some (.literal (.bool true), ts)
      else if x = "false" then some (.literal (.bool false), ts)
      else if x = "function" then
        some (.function (parameters ts.tail).1 [], (parameters ts.tail).2.tail.tail.tail)
      else some (.identifier x, ts)
    | .mark _ :: ts => do
      let (e, ts) ← phrase n ts
      some (e, ts.tail)
    | [] => none

end

/-! ## §2. Operators as the reader sees them -/

/-- The greatest level of an operator that leaves an expression of a level in front of it whole.
    The power groups to the right, so no other power may follow it. -/
def reach (level : Nat) : Nat := if level = 12 then 11 else level

/-- The reader knows an operator by its text, whether it is a word or a mark. -/
theorem textOf_operatorToken (op : String) : textOf (operatorToken op) = op := by
  unfold operatorToken
  split <;> rfl

/-- The binary operators, listed by their kind. -/
theorem operations_cases {op : String} {o : Operation} (h : (op, o) ∈ operations) :
    o = ⟨1, .beforeCoalesce, .atLeast 4⟩ ∨ o = ⟨12, .atLeast 14, .atLeast 12⟩ ∨
      ∃ k, 2 ≤ k ∧ k ≤ 11 ∧ o = .leftward k := by
  have hall : ∀ entry ∈ operations, entry.2 = ⟨1, .beforeCoalesce, .atLeast 4⟩ ∨
      entry.2 = ⟨12, .atLeast 14, .atLeast 12⟩ ∨
        (2 ≤ entry.2.level ∧ entry.2.level ≤ 11 ∧ entry.2 = .leftward entry.2.level) := by
    decide +kernel
  rcases hall (op, o) h with hcase | hcase | ⟨h₁, h₂, hcase⟩
  · exact .inl hcase
  · exact .inr (.inl hcase)
  · exact .inr (.inr ⟨o.level, h₁, h₂, hcase⟩)

/-- The table of operators lists each of them once. -/
theorem lookup_operations {op : String} {o : Operation} (h : (op, o) ∈ operations) :
    operations.lookup op = some o := by
  have hall : ∀ entry ∈ operations, operations.lookup entry.1 = some entry.2 := by decide +kernel
  exact hall (op, o) h

theorem levelOf_eq {op : String} {o : Operation} (h : (op, o) ∈ operations) :
    levelOf op = o.level := by
  unfold levelOf
  rw [lookup_operations h]
  rfl

theorem rightOf_eq {op : String} {o : Operation} (h : (op, o) ∈ operations) :
    rightOf op = leastOf o.right := by
  unfold rightOf
  rw [lookup_operations h]
  rfl

/-- Everything that the loop over operators has to know of an operator. -/
structure Climbs (o : Operation) : Prop where
  level : 1 ≤ o.level ∧ o.level ≤ 12
  left : ∀ k, o.left.Admits k → o.level ≤ k ∧ o.level ≤ reach k
  right : ∀ k, o.right.Admits k → leastOf o.right ≤ k
  stops : 1 ≤ leastOf o.right ∧ reach o.level < leastOf o.right

/-- Every operator of the table is fit for the loop, those that group in their own way included. -/
theorem climbs_of_mem {op : String} {o : Operation} (h : (op, o) ∈ operations) : Climbs o := by
  rcases operations_cases h with rfl | rfl | ⟨k, h₁, h₂, rfl⟩
  · refine ⟨by decide, ?_, fun _ hk => hk, by decide⟩
    intro k hk
    -- in front of `??` stands another `??` or something tighter than all logical operators
    have hcases : k = 1 ∨ 4 ≤ k := hk
    unfold reach
    dsimp only
    split <;> omega
  · refine ⟨by decide, ?_, fun _ hk => hk, by decide⟩
    intro k hk
    -- in front of a power stands a chain, tighter than every operator
    have hle : 14 ≤ k := hk
    unfold reach
    dsimp only
    split <;> omega
  · have hreach : reach k = k := if_neg (by omega)
    refine ⟨⟨?_, ?_⟩, ?_, fun _ hk => hk, ?_, ?_⟩
    · show 1 ≤ k
      omega
    · show k ≤ 12
      omega
    · intro j hj
      have hle : k ≤ j := hj
      show k ≤ j ∧ k ≤ reach j
      unfold reach
      split <;> omega
    · show 1 ≤ k + 1
      omega
    · show reach k < k + 1
      omega

/-! ## §3. What stands behind an expression -/

/-- Tokens that continue no member and no call. -/
def NoSuffix (rest : List Token) : Prop :=
  rest.head? ≠ some (.mark ".") ∧ rest.head? ≠ some (.mark "(")

/-- Tokens that continue no expression: what closes, separates or ends one comes first. -/
def Ends (rest : List Token) : Prop := ∃ m tail, rest = .mark m :: tail ∧ m ∈ [")", ",", ";"]

theorem Ends.noSuffix {rest : List Token} (h : Ends rest) : NoSuffix rest := by
  obtain ⟨m, tail, rfl, hm⟩ := h
  simp only [List.mem_cons, List.not_mem_nil, or_false] at hm
  rcases hm with rfl | rfl | rfl <;> simp [NoSuffix]

theorem Ends.head_ne {rest : List Token} (h : Ends rest) : rest.head? ≠ some (.mark "=") := by
  obtain ⟨m, tail, rfl, hm⟩ := h
  simp only [List.mem_cons, List.not_mem_nil, or_false] at hm
  rcases hm with rfl | rfl | rfl <;> simp

theorem Ends.headLevel_eq {rest : List Token} (h : Ends rest) : headLevel rest = 0 := by
  obtain ⟨m, tail, rfl, hm⟩ := h
  have hall : ∀ m ∈ [")", ",", ";"], levelOf m = 0 := by decide +kernel
  exact hall m hm

theorem ends_mark {m : String} (hm : m ∈ [")", ",", ";"]) (tail : List Token) :
    Ends (.mark m :: tail) :=
  ⟨m, tail, rfl, hm⟩

/-- No operator continues a member or a call. -/
theorem noSuffix_operator {op : String} {o : Operation} (h : (op, o) ∈ operations)
    (tail : List Token) : NoSuffix (operatorToken op :: tail) := by
  have hall : ∀ entry ∈ operations,
      operatorToken entry.1 ≠ .mark "." ∧ operatorToken entry.1 ≠ .mark "(" := by decide +kernel
  have hop := hall (op, o) h
  exact ⟨fun heq => hop.1 (Option.some.inj heq), fun heq => hop.2 (Option.some.inj heq)⟩

/-- The loop ends in front of what binds more loosely. -/
theorem operators_stop {n least : Nat} {e : Expr} {rest : List Token}
    (h : headLevel rest < least) : operators (n + 1) least e rest = some (e, rest) := by
  unfold operators
  rw [if_pos h]

/-- The loop takes an operator that binds tightly enough, reads its right operand and goes on. -/
theorem operators_step {n least : Nat} {op : String} {o : Operation} {left : Expr}
    {ts : List Token} (hop : (op, o) ∈ operations) (h : least ≤ o.level) :
    operators (n + 1) least left (operatorToken op :: ts) =
      (do
        let (right, ts) ← climb n (leastOf o.right) ts
        operators n least (.binary op left right) ts) := by
  have hlevel : ¬ levelOf (textOf (operatorToken op)) < least := by
    rw [textOf_operatorToken, levelOf_eq hop]
    omega
  rw [operators, headLevel, if_neg hlevel, textOf_operatorToken, rightOf_eq hop]

/-- The chain ends in front of what is no member and no call. -/
theorem suffixes_stop {n : Nat} {e : Expr} {rest : List Token} (h : NoSuffix rest) :
    suffixes (n + 1) e rest = some (e, rest) := by
  unfold suffixes
  rw [if_neg h.1, if_neg h.2]

/-! ## §4. What the reader finds -/

/-- A reader that takes one step of its own needs a bound that is greater by one. -/
theorem bound_succ {P : Nat → Prop} (n : Nat) (h : ∀ j, n ≤ j → P (j + 1)) :
    ∃ n, ∀ m, n ≤ m → P m := by
  refine ⟨n + 1, fun m hm => ?_⟩
  obtain ⟨j, rfl⟩ : ∃ j, m = j + 1 := ⟨m - 1, by omega⟩
  exact h j (by omega)

/-- The reader finds a whole expression in front of what ends it. -/
def AsPhrase (ts : List Token) (e : Expr) : Prop :=
  ∃ n, ∀ m, n ≤ m → ∀ rest, Ends rest → phrase m (ts ++ rest) = some (e, rest)

/-- The reader comes into its loop over operators with an expression in hand. -/
def AsLeft (level : Nat) (ts : List Token) (e : Expr) : Prop :=
  ∃ n d, ∀ m, n ≤ m → ∀ rest, NoSuffix rest → headLevel rest ≤ reach level → ∀ least,
    least ≤ level → climb (m + d) least (ts ++ rest) = operators m least e rest

/-- The reader finds an operand. -/
def AsOperand (ts : List Token) (e : Expr) : Prop :=
  ∃ n, ∀ m, n ≤ m → ∀ rest, NoSuffix rest → operand m (ts ++ rest) = some (e, rest)

/-- Tokens that start with no operator. -/
def Plain (ts : List Token) : Prop := ∃ t tail, ts = t :: tail ∧ t ∉ frontTokens

/-- The reader comes into its loop over members and calls with an expression in hand. -/
def AsChain (ts : List Token) (e : Expr) : Prop :=
  Plain ts ∧ ∃ n d, ∀ m, n ≤ m → ∀ rest, chain (m + d) (ts ++ rest) = suffixes m e rest

/-- The reader finds a primary expression. -/
def AsPrimary (ts : List Token) (e : Expr) : Prop :=
  Plain ts ∧ ∃ n, ∀ m, n ≤ m → ∀ rest, primary m (ts ++ rest) = some (e, rest)

/-- The reader finds an expression of a level. -/
inductive Found : Nat → List Token → Expr → Prop
  | phrase {ts : List Token} {e : Expr} : AsPhrase ts e → Found 0 ts e
  | left {k : Nat} {ts : List Token} {e : Expr} : 1 ≤ k → k ≤ 12 → AsLeft k ts e → Found k ts e
  | operand {ts : List Token} {e : Expr} : AsOperand ts e → Found 13 ts e
  | chain {ts : List Token} {e : Expr} : AsChain ts e → Found 14 ts e
  | primary {ts : List Token} {e : Expr} : AsPrimary ts e → Found 15 ts e

/-- A primary expression starts a chain. -/
theorem AsPrimary.chain {ts : List Token} {e : Expr} (h : AsPrimary ts e) : AsChain ts e := by
  obtain ⟨hplain, n, hn⟩ := h
  refine ⟨hplain, n, 1, fun m hm rest => ?_⟩
  unfold Reader.chain
  rw [hn m hm rest]
  rfl

/-- A chain that goes on no further is an operand, as it starts with no operator. -/
theorem AsChain.operand {ts : List Token} {e : Expr} (h : AsChain ts e) : AsOperand ts e := by
  obtain ⟨⟨t, tail, rfl, ht⟩, n, d, hn⟩ := h
  -- one step for the operand, `d` steps to the end of the chain, one more to see that it ends
  refine ⟨n + d + 2, fun m hm rest hrest => ?_⟩
  obtain ⟨j, rfl⟩ : ∃ j, m = j + 1 + d + 1 := ⟨m - d - 2, by omega⟩
  have hchain := hn (j + 1) (by omega) rest
  rw [suffixes_stop hrest] at hchain
  rw [List.cons_append] at hchain ⊢
  unfold Reader.operand
  dsimp only
  rw [if_neg ht]
  exact hchain

/-- An operand is what the loop over operators starts with, on any level. -/
theorem AsOperand.left {ts : List Token} {e : Expr} (h : AsOperand ts e) (k : Nat) :
    AsLeft k ts e := by
  obtain ⟨n, hn⟩ := h
  refine ⟨n, 1, fun m hm rest hrest _ least _ => ?_⟩
  unfold climb
  rw [hn m hm rest hrest]
  rfl

theorem Found.asChain {k : Nat} {ts : List Token} {e : Expr} (h : Found k ts e) (hk : 14 ≤ k) :
    AsChain ts e := by
  cases h with
  | phrase _ => omega
  | left _ _ _ => omega
  | operand _ => omega
  | chain h => exact h
  | primary h => exact h.chain

theorem Found.asOperand {k : Nat} {ts : List Token} {e : Expr} (h : Found k ts e) (hk : 13 ≤ k) :
    AsOperand ts e := by
  by_cases hchain : 14 ≤ k
  · exact (h.asChain hchain).operand
  · cases h with
    | phrase _ => omega
    | left _ _ _ => omega
    | operand h => exact h
    | chain h => exact h.operand
    | primary h => exact h.chain.operand

theorem Found.asLeft {k : Nat} {ts : List Token} {e : Expr} (h : Found k ts e) (hk : 1 ≤ k) :
    AsLeft k ts e := by
  by_cases hoperand : 13 ≤ k
  · exact (h.asOperand hoperand).left k
  · cases h with
    | phrase _ => omega
    | left _ _ h => exact h
    | operand h => exact h.left 13
    | chain h => exact h.operand.left 14
    | primary h => exact h.chain.operand.left 15

/-- Reading at a least level stops behind an expression of that level when no operator follows. -/
theorem Found.climb_eq {k least : Nat} {ts : List Token} {e : Expr} (h : Found k ts e)
    (h₁ : 1 ≤ least) (hk : least ≤ k) :
    ∃ n, ∀ m, n ≤ m → ∀ rest, NoSuffix rest → headLevel rest < least →
      climb m least (ts ++ rest) = some (e, rest) := by
  obtain ⟨n, d, hn⟩ := h.asLeft (by omega)
  refine ⟨n + d + 1, fun m hm rest hrest hlevel => ?_⟩
  obtain ⟨j, rfl⟩ : ∃ j, m = j + 1 + d := ⟨m - d - 1, by omega⟩
  have hreach : headLevel rest ≤ reach k := by
    unfold reach
    split <;> omega
  rw [hn (j + 1) (by omega) rest hrest hreach least hk, operators_stop hlevel]

/-- An expression of any level is a whole one in front of what ends it. -/
theorem Found.asPhrase {k : Nat} {ts : List Token} {e : Expr} (h : Found k ts e) :
    AsPhrase ts e := by
  by_cases hk : k = 0
  · subst hk
    cases h with
    | phrase h => exact h
    | left h₁ _ _ => omega
  · obtain ⟨n, hn⟩ := h.climb_eq (Nat.le_refl 1) (by omega)
    refine bound_succ n fun j hj rest hrest => ?_
    unfold Reader.phrase
    rw [hn j (by omega) rest hrest.noSuffix (by rw [hrest.headLevel_eq]; omega)]
    show (if rest.head? = some (.mark "=") then _ else some (e, rest)) = _
    rw [if_neg hrest.head_ne]

/-! ## §5. One lemma for each form -/

/-- An operator with both its operands is found on its level. -/
theorem found_binary {us vs : List Token} {op : String} {o : Operation} {left right : Expr}
    {j k : Nat} (hop : (op, o) ∈ operations) (hj : o.left.Admits j) (hl : Found j us left)
    (hk : o.right.Admits k) (hr : Found k vs right) :
    Found o.level (us ++ operatorToken op :: vs) (.binary op left right) := by
  have ho := climbs_of_mem hop
  have hlevel := ho.level
  have hleft := ho.left j hj
  obtain ⟨n, d, hn⟩ := hl.asLeft (by omega)
  obtain ⟨n', hn'⟩ := hr.climb_eq ho.stops.1 (ho.right k hk)
  refine .left hlevel.1 hlevel.2 ?_
  -- the left operand brings the reader into its loop, and the operator takes one more step
  refine ⟨n + n', d + 1, fun m hm rest hrest hhead least hleast => ?_⟩
  have hreach : headLevel (operatorToken op :: (vs ++ rest)) ≤ reach j := by
    show levelOf (textOf (operatorToken op)) ≤ reach j
    rw [textOf_operatorToken, levelOf_eq hop]
    exact hleft.2
  have hloop := hn (m + 1) (by omega) (operatorToken op :: (vs ++ rest)) (noSuffix_operator hop _)
    hreach least (by omega)
  have hstops := ho.stops.2
  have hoperand := hn' m (by omega) rest hrest (by omega)
  rw [List.append_assoc, List.cons_append, show m + (d + 1) = m + 1 + d by omega, hloop]
  rw [operators_step hop hleast, hoperand]
  rfl

/-- A target and the value behind it are found on level 0. -/
theorem found_assign {us vs : List Token} {target value : Expr} {k : Nat} (hk : 14 ≤ k)
    (ht : Found k us target) (hv : AsPhrase vs value) :
    AsPhrase (us ++ .mark "=" :: vs) (.assign "=" target value) := by
  obtain ⟨n, hn⟩ := ht.climb_eq (Nat.le_refl 1) (by omega)
  obtain ⟨n', hn'⟩ := hv
  refine bound_succ (n + n') fun j hj rest hrest => ?_
  -- the sign `=` is no operator, so the climb stops in front of it
  have htarget := hn j (by omega) (.mark "=" :: (vs ++ rest)) (by simp [NoSuffix])
    (by show levelOf "=" < 1; decide +kernel)
  have hvalue := hn' j (by omega) rest hrest
  rw [List.append_assoc, List.cons_append]
  unfold phrase
  rw [htarget]
  show (phrase j (vs ++ rest) >>= _) = _
  rw [hvalue]
  rfl

/-- An operator in front of an operand. -/
theorem found_unary {ts : List Token} {op : String} {e : Expr} (hop : op ∈ frontOperators)
    (h : AsOperand ts e) : AsOperand (operatorToken op :: ts) (.unary .before op e) := by
  have hfront : operatorToken op ∈ frontTokens := List.mem_map_of_mem hop
  obtain ⟨n, hn⟩ := h
  refine bound_succ n fun j hj rest hrest => ?_
  rw [List.cons_append]
  unfold operand
  dsimp only
  rw [if_pos hfront, textOf_operatorToken, hn j (by omega) rest hrest]
  rfl

theorem Plain.append {us : List Token} (h : Plain us) (vs : List Token) : Plain (us ++ vs) := by
  obtain ⟨t, tail, rfl, ht⟩ := h
  exact ⟨t, tail ++ vs, rfl, ht⟩

/-- A member is found behind its object, in the loop over members and calls. -/
theorem found_member {ts : List Token} {object : Expr} {property : String}
    (h : AsChain ts object) :
    AsChain (ts ++ [.mark ".", .word property]) (.member object property) := by
  obtain ⟨hplain, n, d, hn⟩ := h
  refine ⟨hplain.append _, n, d + 1, fun m hm rest => ?_⟩
  rw [List.append_assoc, show m + (d + 1) = m + 1 + d by omega, hn (m + 1) (by omega)]
  rfl

/-- The reader finds arguments up to the parenthesis that closes them. -/
def FoundArguments (read : Nat → List Token → Option (List Expr × List Token)) (ts : List Token)
    (es : List Expr) : Prop :=
  ∃ n, ∀ m, n ≤ m → ∀ rest, read m (ts ++ .mark ")" :: rest) = some (es, rest)

/-- A call is found behind what is called. -/
theorem found_call {us vs : List Token} {callee : Expr} {es : List Expr} (hf : AsChain us callee)
    (ha : FoundArguments arguments vs es) : AsChain (us ++ inParens vs) (.call callee es) := by
  obtain ⟨hplain, n, d, hn⟩ := hf
  obtain ⟨n', hn'⟩ := ha
  refine ⟨hplain.append _, n + n', d + 1, fun m hm rest => ?_⟩
  have htokens : us ++ inParens vs ++ rest = us ++ .mark "(" :: (vs ++ .mark ")" :: rest) := by
    simp [inParens]
  rw [htokens, show m + (d + 1) = m + 1 + d by omega, hn (m + 1) (by omega)]
  show (arguments m (vs ++ .mark ")" :: rest) >>= _) = _
  rw [hn' m (by omega)]
  rfl

/-- What stands in parentheses is found up to the closing one. -/
theorem found_parens {ts : List Token} {e : Expr} (h : AsPhrase ts e) :
    AsPrimary (inParens ts) e := by
  obtain ⟨n, hn⟩ := h
  refine ⟨⟨_, _, rfl, by decide⟩, bound_succ n fun j hj rest => ?_⟩
  have hinside := hn j (by omega) (.mark ")" :: rest) (ends_mark (by simp) rest)
  unfold inParens
  rw [List.cons_append, List.cons_append, List.append_assoc, List.singleton_append]
  unfold primary
  dsimp only
  rw [hinside]
  rfl

/-- A single token is found where the reader takes it for a primary expression. -/
theorem found_token {t : Token} {e : Expr} (ht : t ∉ frontTokens)
    (h : ∀ n rest, primary (n + 1) (t :: rest) = some (e, rest)) : AsPrimary [t] e :=
  ⟨⟨t, [], rfl, ht⟩, bound_succ 0 fun j _ rest => h j rest⟩

theorem number_notFront (n : Nat) : Token.number n ∉ frontTokens := by
  simp [frontTokens, frontOperators, operatorToken, wordOperators]

theorem string_notFront (s : String) : Token.string s ∉ frontTokens := by
  simp [frontTokens, frontOperators, operatorToken, wordOperators]

/-- A name is none of the words that stand for something else. -/
theorem found_identifier {name : String} (h : name ∉ reservedWords) :
    AsPrimary [.word name] (.identifier name) := by
  have hne : ∀ word ∈ reservedWords, name ≠ word := by
    intro word hword heq
    exact h (heq ▸ hword)
  have hfront : Token.word name ∉ frontTokens := by
    intro hmem
    obtain ⟨op, -, heq⟩ := List.mem_map.1 hmem
    unfold operatorToken at heq
    split at heq
    next hword =>
      injection heq with heq
      -- the operators that are words are reserved
      have hreserved : ∀ op ∈ wordOperators, op ∈ reservedWords := by decide +kernel
      exact hne op (hreserved op hword) heq.symm
    next => exact absurd heq (by simp)
  refine found_token hfront fun n rest => ?_
  unfold primary
  dsimp only
  rw [if_neg (hne _ (by decide)), if_neg (hne _ (by decide)), if_neg (hne _ (by decide)),
    if_neg (hne _ (by decide))]

/-- The parameters of a function are read back. -/
theorem parameters_parameterTokens (xs : List String) (rest : List Token) :
    parameters (parameterTokens xs ++ .mark ")" :: rest) = (xs, .mark ")" :: rest) := by
  induction xs with
  | nil => rfl
  | cons x xs ih =>
      cases xs with
      | nil => rfl
      | cons y xs =>
          show parameters (.word x :: .mark "," :: (parameterTokens (y :: xs) ++ _)) = _
          rw [parameters, parameters, if_pos rfl, ih]

theorem found_function (xs : List String) :
    AsPrimary (.word "function" :: inParens (parameterTokens xs) ++ [.mark "\x7b", .mark "\x7d"])
      (.function xs []) := by
  refine ⟨⟨_, _, rfl, by decide⟩, bound_succ 0 fun j _ rest => ?_⟩
  have htokens : .word "function" :: inParens (parameterTokens xs) ++
      [.mark "\x7b", .mark "\x7d"] ++ rest =
        .word "function" :: .mark "(" ::
          (parameterTokens xs ++ .mark ")" :: .mark "\x7b" :: .mark "\x7d" :: rest) := by
    simp [inParens]
  rw [htokens]
  show some (Expr.function (parameters (parameterTokens xs ++ _)).1 [],
    (parameters (parameterTokens xs ++ _)).2.tail.tail.tail) = _
  rw [parameters_parameterTokens]
  rfl

/-- Arguments that are there do not start with what closes them. -/
theorem found_arguments {ts : List Token} {es : List Expr} (hi : Items ts es)
    (h : FoundArguments items ts es) : FoundArguments arguments ts es := by
  obtain ⟨n, hn⟩ := h
  refine bound_succ n fun j hj rest => ?_
  have hclose : (ts ++ .mark ")" :: rest).head? ≠ some (.mark ")") := by
    cases ts with
    | nil => exact absurd rfl hi.ne_nil
    | cons t ts => exact hi.balanced.head_ne
  unfold arguments
  rw [if_neg hclose]
  exact hn j (by omega) rest

mutual

/-- **THE READER FINDS EVERY DERIVED EXPRESSION**, on a level that its place admits. -/
theorem found_of_phrase : ∀ {p : Place} {ts : List Token} {e : Expr}, Phrase p ts e →
    ∃ k, p.Admits k ∧ Found k ts e
  | _, _, _, .assign hp _ ht hv => by
      obtain ⟨k, hk, htarget⟩ := found_of_phrase ht
      obtain ⟨_, -, hvalue⟩ := found_of_phrase hv
      exact ⟨0, hp, .phrase (found_assign hk htarget hvalue.asPhrase)⟩
  | _, _, _, @Phrase.binary _ _ _ _ o _ _ hop hp hl hr => by
      obtain ⟨j, hj, hleft⟩ := found_of_phrase hl
      obtain ⟨k, hk, hright⟩ := found_of_phrase hr
      exact ⟨o.level, hp, found_binary hop hj hleft hk hright⟩
  | _, _, _, .unary hop hp h => by
      obtain ⟨k, hk, hfound⟩ := found_of_phrase h
      exact ⟨13, hp, .operand (found_unary hop (hfound.asOperand hk))⟩
  | _, _, _, .member hp h => by
      obtain ⟨k, hk, hfound⟩ := found_of_phrase h
      exact ⟨14, hp, .chain (found_member (hfound.asChain hk))⟩
  | _, _, _, .call hp hf ha => by
      obtain ⟨k, hk, hfound⟩ := found_of_phrase hf
      exact ⟨14, hp, .chain (found_call (hfound.asChain hk) (found_of_arguments ha))⟩
  | _, _, _, .identifier hp hx => ⟨15, hp, .primary (found_identifier hx)⟩
  | _, _, _, .number hp => ⟨15, hp, .primary (found_token (number_notFront _) fun _ _ => rfl)⟩
  | _, _, _, .string hp => ⟨15, hp, .primary (found_token (string_notFront _) fun _ _ => rfl)⟩
  | _, _, _, .null hp => ⟨15, hp, .primary (found_token (by decide) fun _ _ => rfl)⟩
  | _, _, _, .true hp => ⟨15, hp, .primary (found_token (by decide) fun _ _ => rfl)⟩
  | _, _, _, .false hp => ⟨15, hp, .primary (found_token (by decide) fun _ _ => rfl)⟩
  | _, _, _, .function hp _ => ⟨15, hp, .primary (found_function _)⟩
  | _, _, _, .parens hp h => by
      obtain ⟨_, -, hfound⟩ := found_of_phrase h
      exact ⟨15, hp, .primary (found_parens hfound.asPhrase)⟩

/-- The reader finds all derived arguments. -/
theorem found_of_arguments : ∀ {ts : List Token} {es : List Expr}, Arguments ts es →
    FoundArguments arguments ts es
  | _, _, .none => bound_succ 0 fun _ _ _ => rfl
  | _, _, .some h => found_arguments h (found_of_items h)

/-- The reader finds one derived argument after the other. -/
theorem found_of_items : ∀ {ts : List Token} {es : List Expr}, Items ts es →
    FoundArguments items ts es
  | _, _, .last h => by
      obtain ⟨_, -, hfound⟩ := found_of_phrase h
      obtain ⟨n, hn⟩ := hfound.asPhrase
      refine bound_succ n fun j hj rest => ?_
      have hlast := hn j (by omega) (.mark ")" :: rest) (ends_mark (by simp) rest)
      unfold items
      rw [hlast]
      rfl
  | _, _, @Items.more us vs e es h hs => by
      obtain ⟨_, -, hfound⟩ := found_of_phrase h
      obtain ⟨n, hn⟩ := hfound.asPhrase
      obtain ⟨n', hn'⟩ := found_of_items hs
      refine bound_succ (n + n') fun j hj rest => ?_
      -- a comma ends the argument
      have hfirst := hn j (by omega) (.mark "," :: (vs ++ .mark ")" :: rest))
        (ends_mark (by simp) _)
      have hmore := hn' j (by omega) rest
      rw [List.append_assoc, List.cons_append]
      unfold items
      rw [hfirst]
      show (items j (vs ++ .mark ")" :: rest) >>= _) = _
      rw [hmore]
      rfl

end

/-- Whatever its place, a derived expression is found whole in front of what ends it. -/
theorem asPhrase_of_phrase {p : Place} {ts : List Token} {e : Expr} (h : Phrase p ts e) :
    AsPhrase ts e := by
  obtain ⟨_, -, hfound⟩ := found_of_phrase h
  exact hfound.asPhrase

end Reader

/-- **TOKENS STAND FOR AT MOST ONE EXPRESSION**, wherever they stand. -/
theorem Phrase.unique {p q : Place} {ts : List Token} {e f : Expr} (he : Phrase p ts e)
    (hf : Phrase q ts f) : e = f := by
  obtain ⟨n, hn⟩ := Reader.asPhrase_of_phrase he
  obtain ⟨n', hn'⟩ := Reader.asPhrase_of_phrase hf
  have hends : Reader.Ends [.mark ";"] := Reader.ends_mark (by simp) []
  have hread := hn (n + n') (by omega) [.mark ";"] hends
  rw [hn' (n + n') (by omega) [.mark ";"] hends] at hread
  exact (Prod.mk.inj (Option.some.inj hread)).1.symm

/-- A text is read as at most one expression. -/
theorem Reads.unique {text : String} {e f : Expr} (he : Reads text e) (hf : Reads text f) :
    e = f := by
  obtain ⟨ts, hts, -, -, hphrase⟩ := he
  obtain ⟨us, hus, -, -, hphrase'⟩ := hf
  obtain rfl := List.append_cancel_right (hts.unique hus)
  exact hphrase.unique hphrase'

end TinyLang.Script.Operators
