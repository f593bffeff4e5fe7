/-
  TinyLang.Proofs.Parsing.Complete — what the grammar derives, the parser reads.

  A derivation of a list of tokens makes the parser read exactly these tokens, whatever
  follows them, as long as what follows cannot be taken for a part of the same form:

      Level k ws e  →  a.lexemes = ws ++ rest  →  no operator tighter than k starts rest
        →  climb operand least a = operators operand _ least _ e b ,  b.lexemes = rest

  The equation leaves the loop over operators running behind the derived expression.  That
  is what an induction over derivations that lean to the left needs: the left operand of a
  binary operator is followed by the operator itself.  Together with soundness the parser
  accepts exactly the grammar (`Tree.parse_eq_ok_iff`).
-/

import TinyLang.Proofs.Lexing.Spelling
import TinyLang.Proofs.Parsing.Sound

namespace TinyLang

/-! ## §1. Taking tokens -/

/-- The kind of the first of some tokens, which is the end if there are none. -/
def headKind : List Lexeme → Token.Kind
  | [] => .endOfInput
  | w :: _ => w.kind

namespace Ahead

/-- The kind of the next token, from the lexemes ahead: behind the last one it is the end. -/
theorem next_kind (a : Ahead) : a.next.kind = headKind a.lexemes := by
  cases h : a.lexemes with
  | nil => exact next_kind_of_lexemes_nil h
  | cons w ws => exact (next_of_lexemes_cons h).1

theorem length_tokens_eq {a : Ahead} {ws : List Lexeme} (h : a.lexemes = ws) :
    a.tokens.length = ws.length := by
  rw [← h, length_lexemes]

/-- Taking tokens leaves no more than there were. -/
theorem length_tokens_le {a b : Ahead} {ws rest : List Lexeme} (ha : a.lexemes = ws ++ rest)
    (hb : b.lexemes = rest) : b.tokens.length ≤ a.tokens.length := by
  rw [length_tokens_eq ha, length_tokens_eq hb, List.length_append]
  omega

end Ahead

namespace Parse

/-- A token that is there is taken. -/
theorem expect_complete {kind : Token.Kind} {a : Ahead} {text : String} {ws : List Lexeme}
    (h : a.lexemes = ⟨kind, text⟩ :: ws) :
    expect kind a = .ok (a.next, a.advance) ∧ a.advance.lexemes = ws := by
  obtain ⟨hk, -, hws⟩ := Ahead.next_of_lexemes_cons h
  refine ⟨?_, hws⟩
  unfold expect
  rw [if_pos hk]

theorem identifier_complete {a : Ahead} {text : String} {ws : List Lexeme}
    (h : a.lexemes = ⟨.identifier, text⟩ :: ws) :
    ∃ x b, identifier a = .ok (x, b) ∧ x.bare = ⟨(), text⟩ ∧ b.lexemes = ws := by
  obtain ⟨hexp, hws⟩ := expect_complete h
  refine ⟨⟨⟨a.here, a.advance.last⟩, a.next.text⟩, a.advance, ?_, ?_, hws⟩
  · unfold identifier
    rw [hexp]
    rfl
  · rw [Identifier.bare, (Ahead.next_of_lexemes_cons h).2.1]

/-! ## §2. The bound of the loop over operators -/

/-- A parser of operands gives no tokens back. -/
def Forward (operand : Parse (Expr Location)) : Prop :=
  ∀ a e b, operand a = .ok (e, b) → b.tokens.length ≤ a.tokens.length

/-- What reads operands takes at least one token. -/
theorem SoundOperand.forward {operand : Parse (Expr Location)} (ho : SoundOperand operand) :
    Forward operand := by
  intro a e b h
  obtain ⟨ts, hts, -⟩ := ho a e b h
  have hlen := hts.length
  omega

/-- An operator is a token, so the loop over operators comes nearer to its end. -/
theorem advance_length {a : Ahead} {p : Nat} (hp : precedence? a.next.kind = some p) :
    a.advance.tokens.length + 1 = a.tokens.length := by
  obtain ⟨s, -, hk⟩ := (precedence?_eq_some_iff _ _).1 hp
  have hlen := congrArg List.length (Ahead.lexemes_eq_cons hk (by simp))
  rw [List.length_cons, Ahead.length_lexemes, Ahead.length_lexemes] at hlen
  exact hlen.symm

/-- The loop stops in front of what is no operator, or one that is too loose. -/
theorem operators_stop {operand : Parse (Expr Location)} {least : Nat} {start : Position}
    {left : Expr Location} {a : Ahead} (bound : Nat)
    (h : ∀ p, precedence? a.next.kind = some p → p < least) :
    operators operand bound least start left a = .ok (left, a) := by
  cases bound with
  | zero => rfl
  | succ bound =>
      unfold operators
      split
      next p hp => rw [if_pos (h p hp)]
      next => rfl

/-- The loop over operators never gives tokens back. -/
theorem operators_forward {operand : Parse (Expr Location)} (ho : Forward operand) :
    ∀ (bound least : Nat) (start : Position) (left e : Expr Location) (a b : Ahead),
      operators operand bound least start left a = .ok (e, b) →
      b.tokens.length ≤ a.tokens.length := by
  intro bound
  induction bound with
  | zero =>
      intro least start left e a b h
      obtain ⟨-, rfl⟩ := Except.ok_pair_inj h
      exact Nat.le_refl _
  | succ bound ih =>
      intro least start left e a b h
      unfold operators at h
      split at h
      next p hp =>
        split at h
        next =>
          obtain ⟨-, rfl⟩ := Except.ok_pair_inj h
          exact Nat.le_refl _
        next =>
          obtain ⟨⟨first, c⟩, hfirst, h⟩ := Except.bind_eq_ok h
          obtain ⟨⟨right, d⟩, hright, h⟩ := Except.bind_eq_ok h
          -- the operator, its right side and the rest of the loop each move on or stay
          have h₀ := advance_length hp
          have h₁ := ho _ _ _ hfirst
          have h₂ := ih _ _ _ _ _ _ hright
          have h₃ := ih _ _ _ _ _ _ h
          omega
      next =>
        obtain ⟨-, rfl⟩ := Except.ok_pair_inj h
        exact Nat.le_refl _

/-- **The bound does not matter** once it covers the tokens ahead. -/
theorem operators_bound {operand : Parse (Expr Location)} (ho : Forward operand) :
    ∀ (n m least : Nat) (start : Position) (left : Expr Location) (a : Ahead),
      a.tokens.length ≤ n → a.tokens.length ≤ m →
      operators operand n least start left a = operators operand m least start left a := by
  intro n
  induction n with
  | zero =>
      intro m least start left a hn hm
      have hend := Ahead.next_kind_of_length_le_zero hn
      have hstop : ∀ p, precedence? a.next.kind = some p → p < least := by
        intro p hp
        rw [hend] at hp
        exact absurd hp (by simp [precedence?])
      rw [operators_stop 0 hstop, operators_stop m hstop]
  | succ n ih =>
      intro m least start left a hn hm
      -- both loops look at the same token; the operator they take makes the rest shorter
      cases hp : precedence? a.next.kind with
      | none =>
          have hstop : ∀ p, precedence? a.next.kind = some p → p < least := by
            intro p hq
            rw [hp] at hq
            exact absurd hq (by simp)
          rw [operators_stop _ hstop, operators_stop _ hstop]
      | some p =>
          have hadv := advance_length hp
          obtain ⟨m, rfl⟩ : ∃ k, m = k + 1 := ⟨m - 1, by omega⟩
          unfold operators
          rw [hp]
          dsimp only
          by_cases hlt : p < least
          · rw [if_pos hlt, if_pos hlt]
          · rw [if_neg hlt, if_neg hlt]
            cases hfirst : operand a.advance with
            | error e => rfl
            | ok fc =>
                obtain ⟨first, c⟩ := fc
                have hc := ho _ _ _ hfirst
                show (operators operand n (p + 1) a.advance.here first c >>= _)
                  = (operators operand m (p + 1) a.advance.here first c >>= _)
                rw [ih m (p + 1) _ first c (by omega) (by omega)]
                cases hright : operators operand m (p + 1) a.advance.here first c with
                | error e => rfl
                | ok rd =>
                    obtain ⟨right, d⟩ := rd
                    have hd := operators_forward ho _ _ _ _ _ _ _ hright
                    exact ih m least start _ d (by omega) (by omega)

/-! ## §3. Expressions -/

/-- What is no operator binds as loosely as one likes. -/
theorem atMost_of_not_operator {kind : Token.Kind} (h : precedence? kind = none) (n : Nat) :
    AtMost n kind := by
  intro p hp
  rw [h] at hp
  exact absurd hp (by simp)

/-- The loop stops where the tokens that remain start with no operator. -/
theorem operators_stop_of_lexemes {operand : Parse (Expr Location)} {bound least : Nat}
    {start : Position} {left : Expr Location} {a : Ahead} {rest : List Lexeme}
    (ha : a.lexemes = rest) (hrest : precedence? (headKind rest) = none) :
    operators operand bound least start left a = .ok (left, a) := by
  refine operators_stop bound fun p hp => ?_
  rw [Ahead.next_kind, ha, hrest] at hp
  exact absurd hp (by simp)

theorem AtMost.mono {n m : Nat} {kind : Token.Kind} (h : AtMost n kind) (hnm : n ≤ m) :
    AtMost m kind := fun p hp => Nat.le_trans (h p hp) hnm

/-- A loop that finds an operator tight enough reads a right part of tighter ones, then goes on. -/
theorem operators_unfold {operand : Parse (Expr Location)} (ho : Forward operand) {least p : Nat}
    {start : Position} {left : Expr Location} {a : Ahead}
    (hp : precedence? a.next.kind = some p) (hge : least ≤ p) :
    operators operand a.tokens.length least start left a =
      climb operand (p + 1) a.advance >>= fun r =>
        operators operand r.2.tokens.length least start
          (.binary ⟨start, r.2.last⟩ a.next.text left r.1) r.2 := by
  have hadv := advance_length hp
  rw [← hadv]
  conv => lhs; unfold operators
  rw [hp]
  dsimp only
  rw [if_neg (by omega)]
  unfold climb
  cases hfirst : operand a.advance with
  | error e => rfl
  | ok fc =>
      obtain ⟨first, c⟩ := fc
      have hc := ho _ _ _ hfirst
      show (operators operand a.advance.tokens.length (p + 1) a.advance.here first c >>= _)
        = (operators operand c.tokens.length (p + 1) a.advance.here first c >>= _)
      -- the inner loop runs under the bound of the outer one, which is larger than it needs
      rw [operators_bound ho _ c.tokens.length (p + 1) a.advance.here first c hc (Nat.le_refl _)]
      cases hright : operators operand c.tokens.length (p + 1) a.advance.here first c with
      | error e => rfl
      | ok rd =>
          obtain ⟨right, d⟩ := rd
          have hd := operators_forward ho _ _ _ _ _ _ _ hright
          -- and so does the rest of the outer loop
          exact operators_bound ho _ _ least start _ d (by omega) (Nat.le_refl _)

/-- The step of the loop that takes one operator with its right part. -/
theorem operators_step {operand : Parse (Expr Location)} (ho : Forward operand) {least p : Nat}
    {start : Position} {left right : Expr Location} {a b : Ahead}
    (hp : precedence? a.next.kind = some p) (hge : least ≤ p)
    (hright : climb operand (p + 1) a.advance = .ok (right, b)) :
    operators operand a.tokens.length least start left a =
      operators operand b.tokens.length least start
        (.binary ⟨start, b.last⟩ a.next.text left right) b := by
  rw [operators_unfold ho hp hge, hright]
  rfl

/-- Where a token is ahead, the bound is used up only behind it. -/
theorem exists_bound {a : Ahead} {w : Lexeme} {ws : List Lexeme} {bound : Nat}
    (ha : a.lexemes = w :: ws) (hb : a.tokens.length ≤ bound) :
    ∃ k, bound = k + 1 ∧ a.advance.tokens.length ≤ k := by
  have hlen := Ahead.length_tokens_eq ha
  have hadv := Ahead.length_tokens_eq (Ahead.next_of_lexemes_cons ha).2.2
  rw [List.length_cons] at hlen
  exact ⟨bound - 1, by omega, by omega⟩

/-- A token that is an expression by itself is read as that expression. -/
theorem token_complete {w : Lexeme} {e : Expr Unit}
    (hread : ∀ (bound : Nat) (a : Ahead), a.next.kind = w.kind → a.next.text = w.text →
      ∃ e', operand (bound + 1) a = .ok (e', a.advance) ∧ e'.bare = e) :
    ∀ (bound : Nat) (a : Ahead) (rest : List Lexeme),
      a.lexemes = [w] ++ rest → a.tokens.length ≤ bound →
      ∃ e' b, operand bound a = .ok (e', b) ∧ e'.bare = e ∧ b.lexemes = rest := by
  intro bound a rest ha hb
  obtain ⟨bound, rfl, -⟩ := exists_bound ha hb
  obtain ⟨hkind, htext, hadv⟩ := Ahead.next_of_lexemes_cons ha
  obtain ⟨e', hop, hbare⟩ := hread bound a hkind htext
  exact ⟨e', a.advance, hop, hbare, hadv⟩

mutual

/-- **The loop reads a derived expression and goes on behind it.** -/
theorem level_complete : ∀ {k : Nat} {ws : List Lexeme} {e : Expr Unit}, Grammar.Level k ws e →
    ∀ (bound least : Nat) (a : Ahead) (rest : List Lexeme),
      a.lexemes = ws ++ rest → a.tokens.length ≤ bound → least ≤ k →
      AtMost k (headKind rest) →
      ∃ left b, left.bare = e ∧ b.lexemes = rest ∧
        climb (operand bound) least a =
          operators (operand bound) b.tokens.length least a.here left b
  | _, _, _, .unary hu => by
      intro bound least a rest ha hb hk hrest
      obtain ⟨left, b, hop, hbare, hlex⟩ := unary_complete hu bound a rest ha hb
      refine ⟨left, b, hbare, hlex, ?_⟩
      unfold climb
      rw [hop]
      rfl
  | n, _, _, .tighter h1 h6 hl => by
      intro bound least a rest ha hb hk hrest
      exact level_complete hl bound least a rest ha hb (by omega) (hrest.mono (by omega))
  | n, _, _, @Grammar.Level.binary _ us vs _ _ s text hs hl hr => by
      intro bound least a rest ha hb hk hrest
      have ho := (operand_sound bound).forward
      have hp : precedence? (.symbol s) = some n := (precedence?_eq_some_iff _ _).2 ⟨s, hs, rfl⟩
      have ha' : a.lexemes = us ++ (⟨.symbol s, text⟩ :: vs ++ rest) := by
        rw [ha]
        simp
      -- the left operand, behind which the operator itself stands
      obtain ⟨left, c, hleft, hc, hclimb⟩ := level_complete hl bound least a _ ha' hb hk
        (fun q hq => Nat.le_of_eq (Option.some.inj (hq.symm.trans hp)))
      obtain ⟨hkind, htext, hadv⟩ := Ahead.next_of_lexemes_cons hc
      have hcp : precedence? c.next.kind = some n := by rw [hkind]; exact hp
      have hlen := advance_length hcp
      have hca := Ahead.length_tokens_le ha' hc
      -- the right operand, read by the loop one level tighter, which ends behind it
      obtain ⟨right, d, hright, hd, hclimb'⟩ := level_complete hr bound (n + 1) c.advance rest hadv
        (by omega) (Nat.le_refl _) (hrest.mono (by omega))
      rw [operators_stop _ (fun q hq => by
        rw [Ahead.next_kind, hd] at hq
        have := hrest q hq
        omega)] at hclimb'
      refine ⟨.binary ⟨a.here, d.last⟩ c.next.text left right, d, ?_, hd, ?_⟩
      · rw [Expr.bare, hleft, hright, htext]
      · rw [hclimb]
        exact operators_step ho hcp hk hclimb'

/-- Every derived operand is read, signs in front of it included. -/
theorem unary_complete : ∀ {ws : List Lexeme} {e : Expr Unit}, Grammar.Unary ws e →
    ∀ (bound : Nat) (a : Ahead) (rest : List Lexeme),
      a.lexemes = ws ++ rest → a.tokens.length ≤ bound →
      ∃ e' b, operand bound a = .ok (e', b) ∧ e'.bare = e ∧ b.lexemes = rest
  | _, _, @Grammar.Unary.operator ws _ s _ hs hu => by
      intro bound a rest ha hb
      obtain ⟨hkind, htext, hadv⟩ := Ahead.next_of_lexemes_cons ha
      obtain ⟨bound, rfl, hbound⟩ := exists_bound ha hb
      obtain ⟨f, b, hop, hbare, hlex⟩ := unary_complete hu bound a.advance rest hadv hbound
      refine ⟨.unary ⟨a.here, b.last⟩ a.next.text f, b, ?_, ?_, hlex⟩
      · unfold operand
        dsimp only
        rcases hs with rfl | rfl <;> rw [hkind] <;> dsimp only <;> rw [hop] <;> rfl
      · rw [Expr.bare, hbare, htext]
  | _, _, .primary hp => primary_complete hp

/-- Every derived primary expression is read. -/
theorem primary_complete : ∀ {ws : List Lexeme} {e : Expr Unit}, Grammar.Primary ws e →
    ∀ (bound : Nat) (a : Ahead) (rest : List Lexeme),
      a.lexemes = ws ++ rest → a.tokens.length ≤ bound →
      ∃ e' b, operand bound a = .ok (e', b) ∧ e'.bare = e ∧ b.lexemes = rest
  | _, _, @Grammar.Primary.number text hle => token_complete fun bound a hkind htext => by
      refine ⟨.literal a.next.place (.integer (.ofNat (Grammar.decimal text))), ?_, rfl⟩
      have hnum : number a.next = .ok
          (.literal a.next.place (.integer (.ofNat (Grammar.decimal text)))) := by
        unfold number
        rw [htext]
        exact if_pos hle
      unfold operand
      dsimp only
      rw [hkind]
      dsimp only
      rw [hnum]
      rfl
  | _, _, .true => token_complete fun bound a hkind _ => by
      refine ⟨.literal a.next.place (.bool true), ?_, rfl⟩
      unfold operand
      dsimp only
      rw [hkind]
  | _, _, .false => token_complete fun bound a hkind _ => by
      refine ⟨.literal a.next.place (.bool false), ?_, rfl⟩
      unfold operand
      dsimp only
      rw [hkind]
  | _, _, .read => token_complete fun bound a hkind _ => by
      refine ⟨.read a.next.place, ?_, rfl⟩
      unfold operand
      dsimp only
      rw [hkind]
  | _, _, .name => token_complete fun bound a hkind htext => by
      refine ⟨.name ⟨a.next.place, a.next.text⟩, ?_, ?_⟩
      · unfold operand
        dsimp only
        rw [hkind]
      · rw [Expr.bare, Identifier.bare, htext]
  | _, _, @Grammar.Primary.parens ws _ _ right hl => by
      intro bound a rest ha hb
      obtain ⟨bound, rfl, hbound⟩ := exists_bound ha hb
      obtain ⟨hkind, -, hadv⟩ := Ahead.next_of_lexemes_cons ha
      have hadv' : a.advance.lexemes = ws ++ (⟨.symbol .rightParen, right⟩ :: rest) := by
        rw [hadv]
        simp
      -- a right parenthesis is no operator, so the loop stops in front of it
      obtain ⟨e, b, hbare, hlex, hclimb⟩ := level_complete hl bound 1 a.advance _ hadv'
        hbound (Nat.le_refl _) (atMost_of_not_operator rfl 1)
      rw [operators_stop_of_lexemes hlex rfl] at hclimb
      obtain ⟨hexp, hrest⟩ := expect_complete hlex
      refine ⟨e, b.advance, ?_, hbare, hrest⟩
      unfold operand
      dsimp only
      rw [hkind]
      dsimp only
      rw [hclimb]
      show (expect (.symbol .rightParen) b >>= _) = _
      rw [hexp]
      rfl

end

/-- **Every derived expression is read to its end**, if no operator stands behind it. -/
theorem expression_complete {ws : List Lexeme} {e : Expr Unit} (h : Grammar.Expression ws e)
    {a : Ahead} {rest : List Lexeme} (ha : a.lexemes = ws ++ rest)
    (hrest : precedence? (headKind rest) = none) :
    ∃ e' b, expression a = .ok (e', b) ∧ e'.bare = e ∧ b.lexemes = rest := by
  obtain ⟨e', b, hbare, hlex, hclimb⟩ := level_complete h a.tokens.length 1 a rest ha
    (Nat.le_refl _) (Nat.le_refl _) (atMost_of_not_operator hrest 1)
  rw [operators_stop_of_lexemes hlex hrest] at hclimb
  exact ⟨e', b, hclimb, hbare, hlex⟩

/-! ## §4. Statements -/

/-- The parenthesis behind a test ends its expression. -/
theorem test_complete {ws : List Lexeme} {e : Expr Unit} (h : Grammar.Test ws e)
    {a : Ahead} {rest : List Lexeme} (ha : a.lexemes = ws ++ rest) :
    ∃ e' b, test a = .ok (e', b) ∧ e'.bare = e ∧ b.lexemes = rest := by
  obtain @⟨ws, _, left, right, hexpr⟩ := h
  have ha' : a.lexemes = ⟨.symbol .leftParen, left⟩ ::
      (ws ++ (⟨.symbol .rightParen, right⟩ :: rest)) := by
    rw [ha]
    simp
  obtain ⟨hleft, hadv⟩ := expect_complete ha'
  obtain ⟨e', b, hread, hbare, hlex⟩ := expression_complete hexpr hadv rfl
  obtain ⟨hright, hrest⟩ := expect_complete hlex
  refine ⟨e', b.advance, ?_, hbare, hrest⟩
  unfold test
  rw [hleft]
  show (expression a.advance >>= _) = _
  rw [hread]
  show (expect (.symbol .rightParen) b >>= _) = _
  rw [hright]
  rfl

/-- The kinds of tokens that a statement starts with. -/
def StartsStatement (kind : Token.Kind) : Prop :=
  kind = .symbol .leftBrace ∨ kind = .identifier ∨ kind = .keyword .outputKw ∨
    kind = .keyword .whileKw ∨ kind = .keyword .ifKw

/-- The first token of a statement decides which statement it is. -/
theorem statement_head {isOpen : Bool} {ws : List Lexeme} {s : Stmt Unit}
    (h : Grammar.Statement isOpen ws s) (rest : List Lexeme) :
    StartsStatement (headKind (ws ++ rest)) := by
  cases h with
  | block hb =>
      obtain ⟨-⟩ := hb
      exact .inl rfl
  | assign => exact .inr (.inl rfl)
  | output => exact .inr (.inr (.inl rfl))
  | loop => exact .inr (.inr (.inr (.inl rfl)))
  | choice => exact .inr (.inr (.inr (.inr rfl)))
  | choiceElse => exact .inr (.inr (.inr (.inr rfl)))

theorem statement_length_pos {isOpen : Bool} {ws : List Lexeme} {s : Stmt Unit}
    (h : Grammar.Statement isOpen ws s) : 0 < ws.length := by
  cases ws with
  | nil =>
      have hhead := statement_head h []
      rcases hhead with h | h | h | h | h <;> exact absurd h (by simp [headKind])
  | cons w ws => simp

/-- No statement starts with `else`, and neither does what follows one in a block. -/
theorem statements_head {ws : List Lexeme} {body : List (Stmt Unit)}
    (h : Grammar.Statements ws body) (right : String) (rest : List Lexeme) :
    headKind (ws ++ ⟨.symbol .rightBrace, right⟩ :: rest) ≠ .keyword .elseKw := by
  cases h with
  | nil => simp [headKind]
  | @cons us vs s body isOpen hs hbody =>
      rw [List.append_assoc]
      rcases statement_head hs (vs ++ ⟨.symbol .rightBrace, right⟩ :: rest) with
        h | h | h | h | h <;> rw [h] <;> simp

/-- Without an `else` there is no alternate, and nothing is taken. -/
theorem alternate_none {statement : Parse (Stmt Location)} {a : Ahead}
    (h : headKind a.lexemes ≠ .keyword .elseKw) : alternate statement a = .ok (none, a) := by
  unfold alternate
  rw [if_neg (by rw [Ahead.next_kind]; exact h)]

mutual

/-- **The parser reads a derived statement**, behind which no `else` stands if it is open. -/
theorem statement_complete : ∀ {isOpen : Bool} {ws : List Lexeme} {s : Stmt Unit},
    Grammar.Statement isOpen ws s → ∀ (bound : Nat) (a : Ahead) (rest : List Lexeme),
      a.lexemes = ws ++ rest → a.tokens.length ≤ bound →
      (isOpen = true → headKind rest ≠ .keyword .elseKw) →
      ∃ s' b, statement bound a = .ok (s', b) ∧ s'.bare = s ∧ b.lexemes = rest
  | _, _, _, .block hblock => by
      intro bound a rest ha hb _
      obtain ⟨w, ws', hcons⟩ : ∃ w ws', a.lexemes = w :: ws' := by
        obtain ⟨-⟩ := hblock
        exact ⟨_, _, ha⟩
      obtain ⟨bound, rfl, -⟩ := exists_bound hcons hb
      obtain ⟨s', b, hread, hbare, hlex⟩ := block_complete hblock bound a rest ha hb
      refine ⟨s', b, ?_, hbare, hlex⟩
      have hkind : a.next.kind = .symbol .leftBrace := by
        obtain ⟨-⟩ := hblock
        exact (Ahead.next_of_lexemes_cons ha).1
      unfold statement
      rw [hkind]
      exact hread
  | _, _, _, @Grammar.Statement.assign ws e name equals stop hexpr => by
      intro bound a rest ha hb _
      have ha' : a.lexemes = ⟨.identifier, name⟩ :: ⟨.symbol .assign, equals⟩ ::
          (ws ++ (⟨.symbol .semicolon, stop⟩ :: rest)) := by
        rw [ha]
        simp
      obtain ⟨bound, rfl, -⟩ := exists_bound ha' hb
      obtain ⟨x, b₁, hx, hname, hlex₁⟩ := identifier_complete ha'
      obtain ⟨hassign, hlex₂⟩ := expect_complete hlex₁
      obtain ⟨e', b₃, hread, hbare, hlex₃⟩ := expression_complete hexpr hlex₂ rfl
      obtain ⟨hstop, hlex₄⟩ := expect_complete hlex₃
      refine ⟨.assign ⟨a.here, b₃.advance.last⟩ x e', b₃.advance, ?_, ?_, hlex₄⟩
      · unfold statement
        rw [(Ahead.next_of_lexemes_cons ha').1]
        dsimp only
        rw [hx]
        show (expect (.symbol .assign) b₁ >>= _) = _
        rw [hassign]
        show (expression b₁.advance >>= _) = _
        rw [hread]
        show (expect (.symbol .semicolon) b₃ >>= _) = _
        rw [hstop]
        rfl
      · rw [Stmt.bare, hname, hbare]
  | _, _, _, @Grammar.Statement.output ws e word stop hexpr => by
      intro bound a rest ha hb _
      have ha' : a.lexemes = ⟨.keyword .outputKw, word⟩ ::
          (ws ++ (⟨.symbol .semicolon, stop⟩ :: rest)) := by
        rw [ha]
        simp
      obtain ⟨bound, rfl, -⟩ := exists_bound ha' hb
      obtain ⟨hkind, -, hadv⟩ := Ahead.next_of_lexemes_cons ha'
      obtain ⟨e', b₁, hread, hbare, hlex₁⟩ := expression_complete hexpr hadv rfl
      obtain ⟨hstop, hlex₂⟩ := expect_complete hlex₁
      refine ⟨.output ⟨a.here, b₁.advance.last⟩ e', b₁.advance, ?_, ?_, hlex₂⟩
      · unfold statement
        rw [hkind]
        dsimp only
        rw [hread]
        show (expect (.symbol .semicolon) b₁ >>= _) = _
        rw [hstop]
        rfl
      · rw [Stmt.bare, hbare]
  | _, _, _, @Grammar.Statement.loop us vs e s isOpen word htest hstmt => by
      intro bound a rest ha hb helse
      have ha' : a.lexemes = ⟨.keyword .whileKw, word⟩ :: (us ++ (vs ++ rest)) := by
        rw [ha]
        simp
      obtain ⟨bound, rfl, hbound⟩ := exists_bound ha' hb
      obtain ⟨hkind, -, hadv⟩ := Ahead.next_of_lexemes_cons ha'
      obtain ⟨e', b₁, hread, hbare, hlex₁⟩ := test_complete htest hadv
      obtain ⟨s', b₂, hread', hbare', hlex₂⟩ := statement_complete hstmt bound b₁ rest hlex₁
        (Nat.le_trans (Ahead.length_tokens_le hadv hlex₁) hbound) helse
      refine ⟨.loop ⟨a.here, b₂.last⟩ e' s', b₂, ?_, ?_, hlex₂⟩
      · unfold statement
        rw [hkind]
        dsimp only
        rw [hread]
        show (statement bound b₁ >>= _) = _
        rw [hread']
        rfl
      · rw [Stmt.bare, hbare, hbare']
  | _, _, _, @Grammar.Statement.choice us vs e s isOpen word htest hbranch => by
      intro bound a rest ha hb helse
      have ha' : a.lexemes = ⟨.keyword .ifKw, word⟩ :: (us ++ (vs ++ rest)) := by
        rw [ha]
        simp
      obtain ⟨bound, rfl, hbound⟩ := exists_bound ha' hb
      obtain ⟨hkind, -, hadv⟩ := Ahead.next_of_lexemes_cons ha'
      obtain ⟨e', b₁, hread, hbare, hlex₁⟩ := test_complete htest hadv
      -- a choice without an `else` is open, so none stands behind its branch either
      obtain ⟨s', b₂, hread', hbare', hlex₂⟩ := branch_complete hbranch bound b₁ rest hlex₁
        (Nat.le_trans (Ahead.length_tokens_le hadv hlex₁) hbound) (fun _ => helse rfl)
      refine ⟨.choice ⟨a.here, b₂.last⟩ e' s' none, b₂, ?_, ?_, hlex₂⟩
      · unfold statement
        rw [hkind]
        dsimp only
        rw [hread]
        show (branch (statement bound) b₁ >>= _) = _
        rw [hread']
        show (alternate (statement bound) b₂ >>= _) = _
        rw [alternate_none (by rw [hlex₂]; exact helse rfl)]
        rfl
      · rw [Stmt.bare, hbare, hbare', Stmt.bare?]
  | _, _, _, @Grammar.Statement.choiceElse us vs xs e s t isOpen word other htest hs ht => by
      intro bound a rest ha hb helse
      have ha' : a.lexemes = ⟨.keyword .ifKw, word⟩ ::
          (us ++ (vs ++ (⟨.keyword .elseKw, other⟩ :: (xs ++ rest)))) := by
        rw [ha]
        simp
      obtain ⟨bound, rfl, hbound⟩ := exists_bound ha' hb
      obtain ⟨hkind, -, hadv⟩ := Ahead.next_of_lexemes_cons ha'
      obtain ⟨e', b₁, hread, hbare, hlex₁⟩ := test_complete htest hadv
      have hlen₁ := Ahead.length_tokens_le hadv hlex₁
      -- the first branch is closed, so the `else` behind it is no part of it
      obtain ⟨s', b₂, hread', hbare', hlex₂⟩ := branch_complete hs bound b₁ _ hlex₁ (by omega)
        (fun h => absurd h (by simp))
      obtain ⟨hkind₂, -, hadv₂⟩ := Ahead.next_of_lexemes_cons hlex₂
      have hlen₂ := Ahead.length_tokens_le hlex₁ hlex₂
      have hlen₃ := @Ahead.length_tokens_le b₂ b₂.advance [_] _ hlex₂ hadv₂
      obtain ⟨t', b₃, hread'', hbare'', hlex₃⟩ := branch_complete ht bound b₂.advance rest hadv₂
        (by omega) helse
      refine ⟨.choice ⟨a.here, b₃.last⟩ e' s' t', b₃, ?_, ?_, hlex₃⟩
      · unfold statement
        rw [hkind]
        dsimp only
        rw [hread]
        show (branch (statement bound) b₁ >>= _) = _
        rw [hread']
        show (alternate (statement bound) b₂ >>= _) = _
        unfold alternate
        rw [if_pos hkind₂, hread'']
        rfl
      · rw [Stmt.bare, hbare, hbare', hbare'']

/-- A branch is read, the empty one without a token. -/
theorem branch_complete : ∀ {isOpen : Bool} {ws : List Lexeme} {s : Option (Stmt Unit)},
    Grammar.Branch isOpen ws s → ∀ (bound : Nat) (a : Ahead) (rest : List Lexeme),
      a.lexemes = ws ++ rest → a.tokens.length ≤ bound →
      (isOpen = true → headKind rest ≠ .keyword .elseKw) →
      ∃ s' b, branch (statement bound) a = .ok (s', b) ∧ Stmt.bare? s' = s ∧ b.lexemes = rest
  | _, _, _, .absent => by
      intro bound a rest ha _ _
      obtain ⟨hkind, -, hadv⟩ := Ahead.next_of_lexemes_cons ha
      refine ⟨none, a.advance, ?_, rfl, hadv⟩
      unfold branch
      rw [if_pos hkind]
  | _, _, _, .present hstmt => by
      intro bound a rest ha hb helse
      obtain ⟨s', b, hread, hbare, hlex⟩ := statement_complete hstmt bound a rest ha hb helse
      refine ⟨some s', b, ?_, by rw [Stmt.bare?, hbare], hlex⟩
      -- a statement starts with a token of its own, never with the semicolon of an absent branch
      have hhead := statement_head hstmt rest
      rw [← ha, ← Ahead.next_kind] at hhead
      unfold branch
      rw [if_neg (by rcases hhead with h | h | h | h | h <;> rw [h] <;> simp), hread]
      rfl

/-- A block is read to the brace that closes it. -/
theorem block_complete : ∀ {ws : List Lexeme} {s : Stmt Unit}, Grammar.Block ws s →
    ∀ (bound : Nat) (a : Ahead) (rest : List Lexeme),
      a.lexemes = ws ++ rest → a.tokens.length ≤ bound + 1 →
      ∃ s' b, block (statement bound) a = .ok (s', b) ∧ s'.bare = s ∧ b.lexemes = rest
  | _, _, @Grammar.Block.braces ws body left right hbody => by
      intro bound a rest ha hb
      have ha' : a.lexemes = ⟨.symbol .leftBrace, left⟩ ::
          (ws ++ (⟨.symbol .rightBrace, right⟩ :: rest)) := by
        rw [ha]
        simp
      obtain ⟨hleft, hadv⟩ := expect_complete ha'
      -- the left brace is taken, so the bound for the statements is one less
      obtain ⟨body', b, hread, hbare, hlex⟩ := statements_complete hbody bound
        a.advance.tokens.length a.advance right rest hadv
        (by
          rw [Ahead.length_tokens_eq ha', List.length_cons] at hb
          rw [Ahead.length_tokens_eq hadv]
          omega) (Nat.le_refl _)
      refine ⟨.block ⟨a.here, b.last⟩ body', b, ?_, by rw [Stmt.bare, hbare], hlex⟩
      unfold block
      rw [hleft]
      show (statements (statement bound) a.advance.tokens.length a.advance >>= _) = _
      rw [hread]
      rfl

/-- Statements are read until the closing brace, and no statement starts with one. -/
theorem statements_complete : ∀ {ws : List Lexeme} {body : List (Stmt Unit)},
    Grammar.Statements ws body →
    ∀ (bound n : Nat) (a : Ahead) (right : String) (rest : List Lexeme),
      a.lexemes = ws ++ ⟨.symbol .rightBrace, right⟩ :: rest → a.tokens.length ≤ bound →
      a.tokens.length ≤ n →
      ∃ body' b, statements (statement bound) n a = .ok (body', b) ∧ Stmt.bares body' = body ∧
        b.lexemes = rest
  | _, _, .nil => by
      intro bound n a right rest ha hb hn
      obtain ⟨n, rfl, -⟩ := exists_bound ha hn
      obtain ⟨hkind, -, hadv⟩ := Ahead.next_of_lexemes_cons ha
      refine ⟨[], a.advance, ?_, rfl, hadv⟩
      unfold statements
      rw [hkind]
  | _, _, @Grammar.Statements.cons us vs s body isOpen hstmt hbody => by
      intro bound n a right rest ha hb hn
      rw [List.append_assoc] at ha
      have hhead := statement_head hstmt (vs ++ ⟨.symbol .rightBrace, right⟩ :: rest)
      rw [← ha, ← Ahead.next_kind] at hhead
      have hlen := Ahead.length_tokens_eq ha
      simp only [List.length_append, List.length_cons] at hlen
      obtain ⟨n, rfl⟩ : ∃ k, n = k + 1 := ⟨n - 1, by omega⟩
      -- behind a statement of a list there is never an `else`
      obtain ⟨s', b, hread, hbare, hlex⟩ := statement_complete hstmt bound a _ ha hb
        (fun _ => statements_head hbody right rest)
      have hlen' := Ahead.length_tokens_eq hlex
      simp only [List.length_append, List.length_cons] at hlen'
      have hpos := statement_length_pos hstmt
      obtain ⟨body', c, hread', hbare', hlex'⟩ := statements_complete hbody bound n b right rest hlex
        (by omega) (by omega)
      refine ⟨s' :: body', c, ?_, by rw [Stmt.bares, hbare, hbare'], hlex'⟩
      unfold statements
      rcases hhead with h | h | h | h | h <;> rw [h] <;> dsimp only <;> rw [hread] <;>
        show (statements (statement bound) n b >>= _) = _ <;> rw [hread'] <;> rfl

end

/-! ## §5. Programs -/

/-- Names are read as long as commas follow. -/
theorem moreNames_complete {ws : List Lexeme} {names : List (Identifier Unit)}
    (h : Grammar.MoreNames ws names) :
    ∀ (bound : Nat) (a : Ahead) (rest : List Lexeme), a.lexemes = ws ++ rest →
      a.tokens.length ≤ bound → headKind rest ≠ .symbol .comma →
      ∃ names' b, moreNames bound a = .ok (names', b) ∧ names'.map Identifier.bare = names ∧
        b.lexemes = rest := by
  induction h with
  -- without a comma the loop stops, whatever is left of its bound
  | nil =>
      intro bound a rest ha hb hrest
      refine ⟨[], a, ?_, rfl, ha⟩
      cases bound with
      | zero => rfl
      | succ bound =>
          unfold moreNames
          rw [if_neg (by rw [Ahead.next_kind, ha]; exact hrest)]
  | @cons ws names comma name hnames ih =>
      intro bound a rest ha hb hrest
      rw [List.cons_append, List.cons_append] at ha
      obtain ⟨bound, rfl, hbound⟩ := exists_bound ha hb
      obtain ⟨hkind, -, hadv⟩ := Ahead.next_of_lexemes_cons ha
      obtain ⟨x, b, hx, hname, hlex⟩ := identifier_complete hadv
      have hlen := Ahead.length_tokens_eq hadv
      rw [List.length_cons, ← hlex, Ahead.length_lexemes] at hlen
      obtain ⟨names', c, hread, hbare, hlex'⟩ := ih bound b rest hlex (by omega) hrest
      refine ⟨x :: names', c, ?_, by rw [List.map_cons, hname, hbare], hlex'⟩
      unfold moreNames
      rw [if_pos hkind, hx]
      show (moreNames bound b >>= _) = _
      rw [hread]
      rfl

/-- A declaration is read with the type that its first word names. -/
theorem declaration_complete {ws : List Lexeme} {d : Declaration Unit}
    (h : Grammar.Declaration ws d) {a : Ahead} {rest : List Lexeme} (ha : a.lexemes = ws ++ rest) :
    ∃ d' b, declaration d.type a = .ok (d', b) ∧ type? a.next.kind = some d.type ∧ d'.bare = d ∧
      b.lexemes = rest := by
  obtain @⟨type, ws, others, word, first, stop, hnames⟩ := h
  have ha' : a.lexemes = ⟨.keyword (Grammar.typeWord type), word⟩ :: ⟨.identifier, first⟩ ::
      (ws ++ (⟨.symbol .semicolon, stop⟩ :: rest)) := by
    rw [ha]
    simp
  obtain ⟨hkind, -, hadv⟩ := Ahead.next_of_lexemes_cons ha'
  obtain ⟨x, b, hx, hname, hlex⟩ := identifier_complete hadv
  obtain ⟨names', c, hread, hbare, hlex'⟩ := moreNames_complete hnames b.tokens.length b _ hlex
    (Nat.le_refl _) (by simp [headKind])
  obtain ⟨hstop, hrest⟩ := expect_complete hlex'
  refine ⟨⟨⟨a.here, c.advance.last⟩, type, x, names'⟩, c.advance, ?_,
    (type?_eq_some_iff _ _).2 hkind, by rw [Declaration.bare, hname, hbare], hrest⟩
  unfold declaration
  rw [hx]
  show (moreNames b.tokens.length b >>= _) = _
  rw [hread]
  show (expect (.symbol .semicolon) c >>= _) = _
  rw [hstop]
  rfl

/-- Declarations are read as long as a word for a type follows, which starts no statement. -/
theorem declarations_complete {ws : List Lexeme} {ds : List (Declaration Unit)}
    (h : Grammar.Declarations ws ds) :
    ∀ (bound : Nat) (a : Ahead) (rest : List Lexeme), a.lexemes = ws ++ rest →
      a.tokens.length ≤ bound → type? (headKind rest) = none →
      ∃ ds' b, declarations bound a = .ok (ds', b) ∧ ds'.map Declaration.bare = ds ∧
        b.lexemes = rest := by
  induction h with
  | nil =>
      intro bound a rest ha hb hrest
      refine ⟨[], a, ?_, rfl, ha⟩
      cases bound with
      | zero => rfl
      | succ bound =>
          unfold declarations
          rw [Ahead.next_kind, ha]
          dsimp only [List.nil_append]
          rw [hrest]
  | @cons us vs d ds hd hds ih =>
      intro bound a rest ha hb hrest
      rw [List.append_assoc] at ha
      obtain ⟨d', b, hread, htype, hbare, hlex⟩ := declaration_complete hd ha
      -- a declaration takes tokens, so a smaller bound does for those behind it
      have hpos : 0 < us.length := by
        obtain ⟨-⟩ := hd
        simp
      have hlen := Ahead.length_tokens_eq ha
      rw [List.length_append, ← hlex, Ahead.length_lexemes] at hlen
      obtain ⟨bound, rfl⟩ : ∃ k, bound = k + 1 := ⟨bound - 1, by omega⟩
      obtain ⟨ds', c, hread', hbare', hlex'⟩ := ih bound b rest hlex (by omega) hrest
      refine ⟨d' :: ds', c, ?_, by rw [List.map_cons, hbare, hbare'], hlex'⟩
      unfold declarations
      rw [htype]
      dsimp only
      rw [hread]
      show (declarations bound b >>= _) = _
      rw [hread']
      rfl

/-- What the grammar derives as a program from all tokens ahead, the parser reads as one. -/
theorem program_complete {a : Ahead} {p : Program Unit} (h : Grammar.Program a.lexemes p) :
    ∃ p', program a = .ok p' ∧ p'.bare = p := by
  generalize hws : a.lexemes = ws at h
  obtain @⟨us, vs, ds, s, hds, hblock⟩ := h
  -- a block starts with a brace, so the declarations end in front of it
  have hhead : type? (headKind vs) = none := by
    obtain ⟨-⟩ := hblock
    rfl
  obtain ⟨ds', b, hread, hbare, hlex⟩ := declarations_complete hds a.tokens.length a vs hws
    (Nat.le_refl _) hhead
  obtain ⟨s', c, hread', hbare', hlex'⟩ := block_complete hblock b.tokens.length b []
    (by rw [hlex, List.append_nil]) (Nat.le_succ _)
  refine ⟨⟨⟨a.here, c.advance.last⟩, ds', s'⟩, ?_, by rw [Program.bare, hbare, hbare']⟩
  unfold program
  rw [hread]
  show (block (statement b.tokens.length) b >>= _) = _
  rw [hread']
  show (expect .endOfInput c >>= _) = _
  unfold expect
  rw [if_pos (Ahead.next_kind_of_lexemes_nil hlex')]
  rfl

end Parse

/-! ## §6. The tree of a program without its notes -/

section Bare

variable {α : Type}

/-- Nothing is written down for a note. -/
def noMark (_ : α) : Option Json := none

/-- The tree without marks does not depend on notes. -/
theorem Expr.toTree_bare (e : Expr α) : e.bare.toTree noMark = e.toTree noMark := by
  induction e with
  | name x => rfl
  | literal note value => rfl
  | read note => rfl
  | unary note op e ih =>
      rw [Expr.bare, Expr.toTree, Expr.toTree, ih]
      rfl
  | binary note op e f ihe ihf =>
      rw [Expr.bare, Expr.toTree, Expr.toTree, ihe, ihf]
      rfl

mutual

/-- The tree of a statement without marks does not depend on notes. -/
theorem Stmt.toTree_bare : ∀ s : Stmt α, s.bare.toTree noMark = s.toTree noMark
  | .block _ body => by
      rw [Stmt.bare, Stmt.toTree, Stmt.toTree, Stmt.toTrees_bare body]
      rfl
  | .assign _ x e => by
      rw [Stmt.bare, Stmt.toTree, Stmt.toTree, Expr.toTree_bare e]
      rfl
  | .output _ e => by
      rw [Stmt.bare, Stmt.toTree, Stmt.toTree, Expr.toTree_bare e]
      rfl
  | .loop _ e s => by
      rw [Stmt.bare, Stmt.toTree, Stmt.toTree, Expr.toTree_bare e, Stmt.toTree_bare s]
      rfl
  | .choice _ e s t => by
      rw [Stmt.bare, Stmt.toTree, Stmt.toTree, Expr.toTree_bare e, Stmt.toTree?_bare s,
        Stmt.toTree?_bare t]
      rfl

theorem Stmt.toTrees_bare : ∀ body : List (Stmt α),
    Stmt.toTrees noMark (Stmt.bares body) = Stmt.toTrees noMark body
  | [] => rfl
  | s :: body => by
      rw [Stmt.bares, Stmt.toTrees, Stmt.toTrees, Stmt.toTree_bare s, Stmt.toTrees_bare body]

theorem Stmt.toTree?_bare : ∀ s : Option (Stmt α),
    Stmt.toTree? noMark (Stmt.bare? s) = Stmt.toTree? noMark s
  | none => rfl
  | some s => by rw [Stmt.bare?, Stmt.toTree?, Stmt.toTree?, Stmt.toTree_bare s]

end

theorem Declaration.toTree_bare (d : Declaration α) :
    d.bare.toTree noMark = d.toTree noMark := by
  unfold Declaration.toTree Declaration.bare Declaration.names
  simp only [List.map_cons, List.map_map]
  rfl

/-- The tree of a program without marks does not depend on notes. -/
theorem Program.toTree_bare (p : Program α) : p.bare.toTree noMark = p.toTree noMark := by
  have hds : p.bare.declarations.map (·.toTree noMark) = p.declarations.map (·.toTree noMark) := by
    rw [Program.bare, List.map_map]
    exact List.map_congr_left (fun d _ => Declaration.toTree_bare d)
  unfold Program.toTree
  rw [hds, show p.bare.body = p.body.bare from rfl, Stmt.toTree_bare]
  rfl

end Bare

/-! ## §7. The parser and the grammar -/

/-- Every lexeme of a source is spelled as its kind asks. -/
theorem lexemes_spelled (source : String) : ∀ w ∈ lexemes source, Spelled w.kind w.text := by
  intro w hw
  obtain ⟨t, ht, rfl⟩ := List.mem_map.1 hw
  exact Lexed.spelled source t ht

/-- Each part of the program in a source text spans its tokens. -/
theorem Program.parse_spans {source : String} {p : Program Location}
    (h : Program.parse source = .ok p) : p.Spans (Lexed.ofSource source).tokens := by
  apply Parse.program_spans _ h
  -- the token for the end has no spelling, so it is not among the tokens of a text
  intro w hw hkind
  have hspelled := lexemes_spelled source w hw
  rw [hkind] at hspelled
  exact hspelled

/-- What a source text holds, the grammar derives from its tokens. -/
theorem Program.parse_sound {source : String} {p : Program Location}
    (h : Program.parse source = .ok p) : Grammar.Program (lexemes source) p.bare :=
  (Program.parse_spans h).2.1

/-- The tree of a source text is that of a program which the grammar derives. -/
theorem Tree.parse_sound {source : String} {t : Tree} (h : Tree.parse source false = .ok t) :
    ∃ p : Program Unit, Grammar.Program (lexemes source) p ∧ p.toTree noMark = t := by
  obtain ⟨p, hp, htree⟩ := Tree.parse_eq_ok h
  exact ⟨p.bare, Program.parse_sound hp, (Program.toTree_bare p).trans htree⟩

/-- A block without declarations in front is a program. -/
theorem Grammar.Program.of_block {ws : List Lexeme} {s : Stmt Unit} (h : Grammar.Block ws s) :
    Grammar.Program ws ⟨(), [], s⟩ := by
  show Grammar.Program ([] ++ ws) _
  exact .mk .nil h

/-- What the grammar derives from the tokens of a source text, the parser reads from it. -/
theorem Tree.parse_complete {source : String} {p : Program Unit}
    (h : Grammar.Program (lexemes source) p) :
    Tree.parse source false = .ok (p.toTree noMark) := by
  obtain ⟨p', hread, rfl⟩ := Parse.program_complete (a := Ahead.ofLexed (Lexed.ofSource source)) h
  unfold Tree.parse Program.parse
  rw [hread, Program.toTree_bare]
  rfl

/-- **THE PARSER ACCEPTS EXACTLY THE GRAMMAR**: a source text has the syntax tree `t` if and only
    if its tokens are derived as a program whose tree is `t`. -/
theorem Tree.parse_eq_ok_iff (source : String) (t : Tree) :
    Tree.parse source false = .ok t ↔
      ∃ p : Program Unit, Grammar.Program (lexemes source) p ∧ p.toTree noMark = t := by
  constructor
  · exact Tree.parse_sound
  · rintro ⟨p, hp, rfl⟩
    exact Tree.parse_complete hp

end TinyLang
