/-
  TinyLang.Proofs.Parsing.Blind — the parser does not see where its tokens stand.

  Two runs of a parser on tokens of the same kinds and texts, wherever the tokens stand, give
  results that differ in their notes only, or errors that differ in their places only:

      a.lexemes = b.lexemes
        →  p a = .ok (x, a') ,  p b = .ok (y, b') ,  x.bare = y.bare ,  a'.lexemes = b'.lexemes
        ∨  p a = .error e ,  p b = .error f ,  e.cause = f.cause

  Such outcomes are ALIKE (`Alike`), and what is alike stays so when one parser follows
  another (`Alike.read`).  So each parser is shown to be blind from the parsers it is made
  of, and the loops by induction on their bounds.
-/

import TinyLang.Compile
import TinyLang.Proofs.Lexing.Layout
import TinyLang.Proofs.Parsing.Viable

namespace TinyLang

/-! ## §1. Outcomes that are alike -/

/-- Two outcomes are alike: results that are related, or errors of the same cause. -/
inductive Alike {β : Type} (R : β → β → Prop) : Except SyntaxError β → Except SyntaxError β → Prop
  | ok {x y : β} : R x y → Alike R (.ok x) (.ok y)
  | error {e f : SyntaxError} : e.cause = f.cause → Alike R (.error e) (.error f)

/-- What goes on from alike outcomes, and keeps results related, is alike. -/
theorem Alike.bind {β γ : Type} {R : β → β → Prop} {S : γ → γ → Prop}
    {x y : Except SyntaxError β} {f g : β → Except SyntaxError γ} (h : Alike R x y)
    (hfg : ∀ r s, R r s → Alike S (f r) (g s)) : Alike S (x >>= f) (y >>= g) := by
  cases h with
  | ok hr => exact hfg _ _ hr
  | error he => exact .error he

theorem Alike.map {β γ : Type} {R : β → β → Prop} {S : γ → γ → Prop} {x y : Except SyntaxError β}
    {f : β → γ} (h : Alike R x y) (hf : ∀ r s, R r s → S (f r) (f s)) :
    Alike S (x.map f) (y.map f) := by
  cases h with
  | ok hr => exact .ok (hf _ _ hr)
  | error he => exact .error he

/-- Outcomes that are alike in their results are equal once errors show their causes only. -/
theorem Alike.mapError_cause {β : Type} {x y : Except SyntaxError β} (h : Alike (· = ·) x y) :
    x.mapError SyntaxError.cause = y.mapError SyntaxError.cause := by
  cases h with
  | ok hr => exact congrArg Except.ok hr
  | error he => exact congrArg Except.error he

/-- Results of a parser that differ in their notes and in the places of the tokens behind. -/
def SameRead {β γ : Type} (bare : β → γ) (r s : β × Ahead) : Prop :=
  bare r.1 = bare s.1 ∧ r.2.lexemes = s.2.lexemes

/-- A parser that does not see where tokens stand. -/
def Blind {β γ : Type} (bare : β → γ) (p : Parse β) : Prop :=
  ∀ a b : Ahead, a.lexemes = b.lexemes → Alike (SameRead bare) (p a) (p b)

/-- **What follows a blind parser sees alike outcomes.** -/
theorem Alike.read {β γ δ : Type} {bare : β → γ} {S : δ → δ → Prop}
    {x y : Except SyntaxError (β × Ahead)} {f g : β × Ahead → Except SyntaxError δ}
    (h : Alike (SameRead bare) x y)
    (hfg : ∀ r a s b, bare r = bare s → a.lexemes = b.lexemes → Alike S (f (r, a)) (g (s, b))) :
    Alike S (x >>= f) (y >>= g) := by
  apply h.bind
  intro r s hrs
  exact hfg r.1 r.2 s.1 s.2 hrs.1 hrs.2

namespace Ahead

/-- The next tokens agree in all but their places. -/
theorem next_eq {a b : Ahead} (h : a.lexemes = b.lexemes) :
    a.next.kind = b.next.kind ∧ a.next.text = b.next.text := by
  obtain ⟨last, tokens, stop⟩ := b
  cases tokens with
  | nil =>
      have htokens : a.tokens = [] := List.map_eq_nil_iff.1 h
      unfold next
      rw [htokens]
      exact ⟨rfl, rfl⟩
  | cons t tokens =>
      obtain ⟨hkind, htext, -⟩ := next_of_lexemes_cons h
      exact ⟨hkind, htext⟩

theorem lexemes_advance (a : Ahead) : a.advance.lexemes = a.lexemes.tail := by
  obtain ⟨last, tokens, stop⟩ := a
  cases tokens with
  | nil => rfl
  | cons t tokens => rfl

/-- What is ahead behind the next token agrees too. -/
theorem advance_eq {a b : Ahead} (h : a.lexemes = b.lexemes) :
    a.advance.lexemes = b.advance.lexemes := by
  rw [lexemes_advance, lexemes_advance, h]

/-- As many tokens are ahead, so the bounds of the loops agree. -/
theorem length_eq {a b : Ahead} (h : a.lexemes = b.lexemes) :
    a.tokens.length = b.tokens.length := by
  rw [length_tokens_eq h, length_lexemes]

/-- The cause of an error does not show where the token stands. -/
theorem unexpected_cause {a b : Ahead} (h : a.lexemes = b.lexemes) (expected : Expected) :
    (a.unexpected expected).cause = (b.unexpected expected).cause := by
  obtain ⟨hkind, htext⟩ := next_eq h
  unfold unexpected
  dsimp only
  rw [hkind, htext]

end Ahead

namespace Parse

/-- An error about the next token names the same thing, though not the same place. -/
theorem alike_unexpected {β : Type} {R : β → β → Prop} {a b : Ahead} (h : a.lexemes = b.lexemes)
    (expected : Expected) :
    Alike R (.error (a.unexpected expected)) (.error (b.unexpected expected)) :=
  .error (Ahead.unexpected_cause h expected)

/-- A token is expected by its kind, wherever it stands. -/
theorem blind_expect (kind : Token.Kind) : Blind Token.lexeme (expect kind) := by
  intro a b h
  obtain ⟨hkind, htext⟩ := Ahead.next_eq h
  unfold expect
  rw [hkind]
  by_cases hk : b.next.kind = kind
  · rw [if_pos hk, if_pos hk]
    refine .ok ⟨?_, Ahead.advance_eq h⟩
    show (⟨a.next.kind, a.next.text⟩ : Lexeme) = ⟨b.next.kind, b.next.text⟩
    rw [hkind, htext]
  · rw [if_neg hk, if_neg hk]
    exact alike_unexpected h _

theorem blind_identifier : Blind Identifier.bare identifier := by
  intro a b h
  apply (blind_expect .identifier a b h).read
  intro t a' u b' htoken hrest
  refine .ok ⟨?_, hrest⟩
  have htext : t.text = u.text := congrArg Lexeme.text htoken
  show (⟨(), t.text⟩ : Identifier Unit) = ⟨(), u.text⟩
  rw [htext]

/-! ## §2. Expressions -/

section Operators

variable {operand : Parse (Expr Location)}

/-- The loop over operators, behind left operands that differ in their notes. -/
theorem alike_operators (ho : Blind Expr.bare operand) (bound : Nat) : ∀ (least : Nat)
    (start start' : Position) (left left' : Expr Location) (a b : Ahead),
      left.bare = left'.bare → a.lexemes = b.lexemes →
        Alike (SameRead Expr.bare) (operators operand bound least start left a)
          (operators operand bound least start' left' b) := by
  -- both runs have the same bound, and the right part of an operator runs the same loop again
  induction bound with
  | zero =>
      intro least start start' left left' a b hleft h
      exact .ok ⟨hleft, h⟩
  | succ bound ih =>
      intro least start start' left left' a b hleft h
      obtain ⟨hkind, htext⟩ := Ahead.next_eq h
      unfold operators
      rw [hkind, htext]
      cases precedence? b.next.kind with
      | none => exact .ok ⟨hleft, h⟩
      | some p =>
          dsimp only
          by_cases hp : p < least
          · rw [if_pos hp, if_pos hp]
            exact .ok ⟨hleft, h⟩
          · rw [if_neg hp, if_neg hp]
            apply (ho a.advance b.advance (Ahead.advance_eq h)).read
            intro first a₁ first' b₁ hfirst h₁
            apply (ih (p + 1) _ _ first first' a₁ b₁ hfirst h₁).read
            intro right a₂ right' b₂ hright h₂
            apply ih least _ _ _ _ a₂ b₂ ?_ h₂
            rw [Expr.bare, Expr.bare, hleft, hright]

/-- An operand and the operators behind it, where the operand is read blindly. -/
theorem blind_climb (ho : Blind Expr.bare operand) (least : Nat) :
    Blind Expr.bare (climb operand least) := by
  intro a b h
  apply (ho a b h).read
  intro left a₁ left' b₁ hleft h₁
  dsimp only
  rw [Ahead.length_eq h₁]
  exact alike_operators ho _ least _ _ left left' a₁ b₁ hleft h₁

end Operators

/-- The value of a numeral depends on its text only. -/
theorem alike_number {t u : Token} (h : t.text = u.text) :
    Alike (fun e f : Expr Location => e.bare = f.bare) (number t) (number u) := by
  unfold number
  rw [h]
  dsimp only
  by_cases hn : Nat.ofDigitChars 10 u.text.toList 0 ≤ maxInteger
  · rw [if_pos hn, if_pos hn]
    exact .ok rfl
  · rw [if_neg hn, if_neg hn]
    exact .error rfl

theorem alike_sign {bound : Nat} (ih : Blind Expr.bare (operand bound)) {a b : Ahead} {s : Symbol}
    (hs : s = .bang ∨ s = .minus) (h : a.lexemes = b.lexemes) (hk : b.next.kind = .symbol s) :
    Alike (SameRead Expr.bare) (operand (bound + 1) a) (operand (bound + 1) b) := by
  obtain ⟨hkind, htext⟩ := Ahead.next_eq h
  rw [hk] at hkind
  rcases hs with rfl | rfl
  all_goals
    unfold operand
    dsimp only
    rw [hkind, hk]
    apply (ih _ _ (Ahead.advance_eq h)).read
    intro e a₁ f b₁ he h₁
    refine .ok ⟨?_, h₁⟩
    -- the text of the operator is kept in the tree, and it is part of the lexeme
    show Expr.unary () a.next.text e.bare = Expr.unary () b.next.text f.bare
    rw [htext, he]

/-- **Operands are read blindly**: by induction on the bound, one case for each kind of the next
    token. -/
theorem blind_operand (bound : Nat) : Blind Expr.bare (operand bound) := by
  induction bound with
  | zero =>
      intro a b h
      exact alike_unexpected h _
  | succ bound ih =>
      intro a b h
      obtain ⟨hkind, htext⟩ := Ahead.next_eq h
      have hadvance := Ahead.advance_eq h
      by_cases hstart : StartsOperand b.next.kind
      · -- the kind of the next token is the same in both runs and says which form is read
        simp only [StartsOperand, List.mem_cons, List.not_mem_nil, or_false] at hstart
        rcases hstart with hk | hk | hk | hk | hk | hk | hk | hk
        · exact alike_sign ih (.inl rfl) h hk
        · exact alike_sign ih (.inr rfl) h hk
        all_goals
          unfold operand
          dsimp only
          rw [hkind, hk]
        · apply (alike_number htext).bind
          intro e f he
          exact .ok ⟨he, hadvance⟩
        · exact .ok ⟨rfl, hadvance⟩
        · exact .ok ⟨rfl, hadvance⟩
        · exact .ok ⟨rfl, hadvance⟩
        · refine .ok ⟨?_, hadvance⟩
          show Expr.name ⟨(), a.next.text⟩ = Expr.name ⟨(), b.next.text⟩
          rw [htext]
        · apply (blind_climb ih 1 _ _ hadvance).read
          intro e a₁ f b₁ he h₁
          apply (blind_expect _ a₁ b₁ h₁).read
          intro t a₂ u b₂ _ h₂
          exact .ok ⟨he, h₂⟩
      · rw [operand_other hstart, operand_other (by rw [hkind]; exact hstart)]
        exact alike_unexpected h _

/-- The bound of an expression is the number of tokens ahead, which is the same for both. -/
theorem blind_expression : Blind Expr.bare expression := by
  intro a b h
  unfold expression
  rw [Ahead.length_eq h]
  exact blind_climb (blind_operand _) 1 a b h

/-! ## §3. Statements -/

theorem blind_test : Blind Expr.bare test := by
  intro a b h
  apply (blind_expect _ a b h).read
  intro t a₁ u b₁ _ h₁
  apply (blind_expression a₁ b₁ h₁).read
  intro e a₂ f b₂ he h₂
  apply (blind_expect _ a₂ b₂ h₂).read
  intro t' a₃ u' b₃ _ h₃
  exact .ok ⟨he, h₃⟩

section Statements

variable {statement : Parse (Stmt Location)}

/-- In front of a token that neither closes the block nor ends the text, a statement is read. -/
theorem statements_cons {n : Nat} {a : Ahead} (hbrace : a.next.kind ≠ .symbol .rightBrace)
    (hend : a.next.kind ≠ .endOfInput) :
    statements statement (n + 1) a = statement a >>= fun r =>
      statements statement n r.2 >>= fun q => .ok (r.1 :: q.1, q.2) := by
  rw [statements]
  split
  next hk => exact absurd hk hbrace
  next hk => exact absurd hk hend
  next => rfl

/-- Statements are read blindly if each of them is. -/
theorem blind_statements (hs : Blind Stmt.bare statement) (n : Nat) :
    Blind Stmt.bares (statements statement n) := by
  induction n with
  | zero =>
      intro a b h
      exact alike_unexpected h _
  | succ n ih =>
      intro a b h
      have hkind := (Ahead.next_eq h).1
      -- the next token says whether the block closes, ends too early or goes on
      by_cases hbrace : b.next.kind = .symbol .rightBrace
      · unfold statements
        rw [hkind, hbrace]
        exact .ok ⟨rfl, Ahead.advance_eq h⟩
      by_cases hend : b.next.kind = .endOfInput
      · rw [statements_end hend, statements_end (hkind.trans hend)]
        exact alike_unexpected h _
      rw [statements_cons hbrace hend, statements_cons (hkind ▸ hbrace) (hkind ▸ hend)]
      apply (hs a b h).read
      intro s a₁ t b₁ hst h₁
      apply (ih a₁ b₁ h₁).read
      intro body a₂ body' b₂ hbody h₂
      refine .ok ⟨?_, h₂⟩
      rw [Stmt.bares, Stmt.bares, hst, hbody]

theorem blind_block (hs : Blind Stmt.bare statement) : Blind Stmt.bare (block statement) := by
  intro a b h
  apply (blind_expect _ a b h).read
  intro t a₁ u b₁ _ h₁
  dsimp only
  rw [Ahead.length_eq h₁]
  apply (blind_statements hs _ a₁ b₁ h₁).read
  intro body a₂ body' b₂ hbody h₂
  refine .ok ⟨?_, h₂⟩
  rw [Stmt.bare, Stmt.bare, hbody]

theorem blind_branch (hs : Blind Stmt.bare statement) : Blind Stmt.bare? (branch statement) := by
  intro a b h
  unfold branch
  rw [(Ahead.next_eq h).1]
  by_cases hk : b.next.kind = .symbol .semicolon
  · rw [if_pos hk, if_pos hk]
    exact .ok ⟨rfl, Ahead.advance_eq h⟩
  · rw [if_neg hk, if_neg hk]
    apply (hs a b h).read
    intro s a₁ t b₁ hst h₁
    refine .ok ⟨?_, h₁⟩
    rw [Stmt.bare?, Stmt.bare?, hst]

/-- Whether there is an `else` is seen from the kind of the next token. -/
theorem blind_alternate (hs : Blind Stmt.bare statement) :
    Blind Stmt.bare? (alternate statement) := by
  intro a b h
  unfold alternate
  rw [(Ahead.next_eq h).1]
  by_cases hk : b.next.kind = .keyword .elseKw
  · rw [if_pos hk, if_pos hk]
    exact blind_branch hs _ _ (Ahead.advance_eq h)
  · rw [if_neg hk, if_neg hk]
    exact .ok ⟨rfl, h⟩

end Statements

/-- **Statements are read blindly**, as the next token decides on their form by its kind. -/
theorem blind_statement (bound : Nat) : Blind Stmt.bare (statement bound) := by
  induction bound with
  | zero =>
      intro a b h
      exact alike_unexpected h _
  | succ bound ih =>
      intro a b h
      have hkind := (Ahead.next_eq h).1
      have hadvance := Ahead.advance_eq h
      by_cases hstart : StartsStatement b.next.kind
      · rcases hstart with hk | hk | hk | hk | hk
        all_goals
          unfold statement
          rw [hkind, hk]
        · exact blind_block ih a b h
        · -- an assignment
          apply (blind_identifier a b h).read
          intro x a₁ y b₁ hname h₁
          apply (blind_expect _ a₁ b₁ h₁).read
          intro t a₂ u b₂ _ h₂
          apply (blind_expression a₂ b₂ h₂).read
          intro e a₃ f b₃ he h₃
          apply (blind_expect _ a₃ b₃ h₃).read
          intro t' a₄ u' b₄ _ h₄
          refine .ok ⟨?_, h₄⟩
          rw [Stmt.bare, Stmt.bare, hname, he]
        · -- an output
          apply (blind_expression _ _ hadvance).read
          intro e a₁ f b₁ he h₁
          apply (blind_expect _ a₁ b₁ h₁).read
          intro t a₂ u b₂ _ h₂
          refine .ok ⟨?_, h₂⟩
          rw [Stmt.bare, Stmt.bare, he]
        · -- a loop
          apply (blind_test _ _ hadvance).read
          intro e a₁ f b₁ he h₁
          apply (ih a₁ b₁ h₁).read
          intro s a₂ t b₂ hst h₂
          refine .ok ⟨?_, h₂⟩
          rw [Stmt.bare, Stmt.bare, he, hst]
        · -- a choice
          apply (blind_test _ _ hadvance).read
          intro e a₁ f b₁ he h₁
          apply (blind_branch ih a₁ b₁ h₁).read
          intro s a₂ s' b₂ hs h₂
          apply (blind_alternate ih a₂ b₂ h₂).read
          intro t a₃ t' b₃ ht h₃
          refine .ok ⟨?_, h₃⟩
          rw [Stmt.bare, Stmt.bare, he, hs, ht]
      · rw [statement_other hstart, statement_other (by rw [hkind]; exact hstart)]
        exact alike_unexpected h _

/-! ## §4. Programs -/

theorem blind_moreNames (bound : Nat) : Blind (List.map Identifier.bare) (moreNames bound) := by
  induction bound with
  | zero =>
      intro a b h
      exact .ok ⟨rfl, h⟩
  | succ bound ih =>
      intro a b h
      unfold moreNames
      rw [(Ahead.next_eq h).1]
      by_cases hk : b.next.kind = .symbol .comma
      · rw [if_pos hk, if_pos hk]
        apply (blind_identifier _ _ (Ahead.advance_eq h)).read
        intro x a₁ y b₁ hname h₁
        apply (ih a₁ b₁ h₁).read
        intro xs a₂ ys b₂ hnames h₂
        refine .ok ⟨?_, h₂⟩
        rw [List.map_cons, List.map_cons, hname, hnames]
      · rw [if_neg hk, if_neg hk]
        exact .ok ⟨rfl, h⟩

theorem blind_declaration (type : ValueType) : Blind Declaration.bare (declaration type) := by
  intro a b h
  apply (blind_identifier _ _ (Ahead.advance_eq h)).read
  intro x a₁ y b₁ hname h₁
  dsimp only
  rw [Ahead.length_eq h₁]
  apply (blind_moreNames _ a₁ b₁ h₁).read
  intro xs a₂ ys b₂ hnames h₂
  apply (blind_expect _ a₂ b₂ h₂).read
  intro t a₃ u b₃ _ h₃
  refine .ok ⟨?_, h₃⟩
  rw [Declaration.bare, Declaration.bare, hname, hnames]

/-- A declaration starts with a word for a type, which is seen from its kind. -/
theorem blind_declarations (bound : Nat) :
    Blind (List.map Declaration.bare) (declarations bound) := by
  induction bound with
  | zero =>
      intro a b h
      exact .ok ⟨rfl, h⟩
  | succ bound ih =>
      intro a b h
      unfold declarations
      rw [(Ahead.next_eq h).1]
      cases type? b.next.kind with
      | none => exact .ok ⟨rfl, h⟩
      | some type =>
          apply (blind_declaration type a b h).read
          intro d a₁ d' b₁ hd h₁
          apply (ih a₁ b₁ h₁).read
          intro ds a₂ ds' b₂ hds h₂
          refine .ok ⟨?_, h₂⟩
          rw [List.map_cons, List.map_cons, hd, hds]

/-- **Programs are read alike from tokens that are alike.** -/
theorem alike_program {a b : Ahead} (h : a.lexemes = b.lexemes) :
    Alike (fun p q : Program Location => p.bare = q.bare) (program a) (program b) := by
  unfold program
  -- the bounds are numbers of tokens, which are the same as well
  rw [Ahead.length_eq h]
  apply (blind_declarations _ a b h).read
  intro ds a₁ ds' b₁ hds h₁
  dsimp only
  rw [Ahead.length_eq h₁]
  apply (blind_block (blind_statement _) a₁ b₁ h₁).read
  intro s a₂ s' b₂ hs h₂
  apply (blind_expect _ a₂ b₂ h₂).read
  intro t a₃ u b₃ _ h₃
  refine .ok ?_
  rw [Program.bare, Program.bare, hds, hs]

end Parse

/-! ## §5. Texts with the same tokens -/

/-- Sources with the same lexemes have the same tree without places, or errors of the same cause. -/
theorem Tree.alike_parse {source source' : String} (h : lexemes source = lexemes source') :
    Alike (· = ·) (Tree.parse source false) (Tree.parse source' false) := by
  have hprogram : Alike (fun p q : Program Location => p.bare = q.bare) (Program.parse source)
      (Program.parse source') :=
    Parse.alike_program h
  apply hprogram.map
  intro p q hpq
  show p.toTree noMark = q.toTree noMark
  rw [← Program.toTree_bare p, hpq, Program.toTree_bare]

/-- Texts whose trees are alike compile to the same script, or do not compile. -/
theorem compileSource_toOption_eq (names : Naming) {source source' : String}
    (h : Alike (· = ·) (Tree.parse source false) (Tree.parse source' false)) :
    (compileSource names source).toOption = (compileSource names source').toOption := by
  unfold compileSource
  revert h
  generalize Tree.parse source false = x
  generalize Tree.parse source' false = y
  intro h
  cases h with
  | ok htree => rw [htree]
  | error _ => rfl

/-- **LAYOUT AND COMMENTS NEVER CHANGE THE RESULT**: in every layout the tokens of a text are those
    that were laid out and the end.  So in every two layouts of the same tokens the parser gives
    the same tree or an error of the same cause, and the compiler the same script. -/
theorem parse_layout_eq (names : Naming) {ws : List Lexeme} (h : ∀ w ∈ ws, w.Complete)
    (l l' : Layout) :
    (Lexed.ofSource (l.source ws)).all.map Token.lexeme = ws ++ [⟨.endOfInput, ""⟩] ∧
      (Tree.parse (l.source ws) false).mapError SyntaxError.cause =
        (Tree.parse (l'.source ws) false).mapError SyntaxError.cause ∧
      (compileSource names (l.source ws)).toOption =
        (compileSource names (l'.source ws)).toOption := by
  have htokens : lexemes (l.source ws) = ws := l.lexemes_source h
  have hsame : lexemes (l.source ws) = lexemes (l'.source ws) := by
    rw [htokens, l'.lexemes_source h]
  have hparse := Tree.alike_parse hsame
  refine ⟨?_, hparse.mapError_cause, compileSource_toOption_eq names hparse⟩
  rw [Lexed.all, List.map_append]
  exact congrArg (· ++ [⟨.endOfInput, ""⟩]) htokens

/-- A division between comments that open and close with its sign, and the same one on a line. -/
theorem parse_layout_eq_division : ∃ (ws : List Lexeme) (l l' : Layout),
    (∀ w ∈ ws, w.Complete) ∧
    l.source ws = "/*/*/\x7b /***/output /***/n /***/// /*\n/ /***/6 /***/; /***/\x7d // */" ∧
    l'.source ws = "\x7b\noutput\nn\n/\n6\n;\n\x7d" ∧
    (Lexed.ofSource (l.source ws)).all.map Token.lexeme = ws ++ [⟨.endOfInput, ""⟩] ∧
    (Tree.parse (l.source ws) false).mapError SyntaxError.cause =
      (Tree.parse (l'.source ws) false).mapError SyntaxError.cause ∧
    (compileSource .standard (l.source ws)).toOption =
      (compileSource .standard (l'.source ws)).toOption := by
  let l : Layout :=
    { before := [.marked ['/'] (by decide)]
      between := fun i => ⟨' ', by decide, .marked ['*'] (by decide) ::
        if i = 3 then [.line [' ', '/', '*'] (by decide)] else []⟩
      behind := .commented ⟨' ', by decide, []⟩ [' ', '*', '/'] (by decide) }
  let l' : Layout := ⟨[], fun _ => ⟨'\n', by decide, []⟩, .nothing⟩
  have h : ∀ w ∈ [Lexeme.ofSymbol .leftBrace, ⟨.keyword .outputKw, "output"⟩, ⟨.identifier, "n"⟩,
      .ofSymbol .slash, ⟨.number, "6"⟩, .ofSymbol .semicolon, .ofSymbol .rightBrace],
      w.Complete := by
    have hname : IsWord "n" := ⟨'n', [], rfl, rfl, rfl⟩
    have hnumeral : IsNumeral "6" := ⟨'6', [], rfl, rfl, rfl⟩
    simp only [List.forall_mem_cons, List.not_mem_nil, false_implies, implies_true, and_true]
    refine ⟨⟨rfl, ?_, ?_⟩, ⟨rfl, ?_, ?_⟩, ⟨⟨hname, rfl⟩, ?_, ?_⟩, ⟨rfl, ?_, ?_⟩,
      ⟨hnumeral, ?_, ?_⟩, ⟨rfl, ?_, ?_⟩, ⟨rfl, ?_, ?_⟩⟩ <;> decide
  exact ⟨_, l, l', h, by decide, by decide, parse_layout_eq .standard h l l'⟩

end TinyLang
