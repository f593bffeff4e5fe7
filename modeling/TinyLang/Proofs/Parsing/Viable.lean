/-
  TinyLang.Proofs.Parsing.Viable — a syntax error stands at the earliest possible token.

  The tokens in front of an error can be completed to a program, and together with the
  token at the error they cannot:

      Tree.parse source places = .error e
        →  before ++ more is accepted for some more
        ∧  before ++ token :: more is accepted for no more

  Statements and programs fail like expressions do: each form that is made of parts fails
  in one of them, behind the tokens of the parts in front.
-/

import TinyLang.Proofs.Parsing.Failure

namespace TinyLang

open Grammar (SpelledAll)

namespace Parse

/-! ## §1. Statements -/

/-- A test fails at a parenthesis or in its expression. -/
theorem test_fails {a : Ahead} {e : SyntaxError} (h : test a = .error e) :
    Fails (fun a' => Failed (test a')) (fun ws => ∃ f, Grammar.Test ws f) a e := by
  rcases Except.bind_eq_error h with h | ⟨⟨t, b⟩, ht, h⟩
  · -- the left parenthesis is missing, and `0)` would complete it
    refine (symbol_fails h).first (fun a' _ hrefused => hrefused.bind) ?_
    rintro ws rfl
    exact ⟨_, .cons zero_spelled (spelledAll_ofSymbols [.rightParen]), _, .parens zero_expression⟩
  obtain ⟨hleft, hlex⟩ := expect_takes ht (by simp)
  rcases Except.bind_eq_error h with h | ⟨⟨f, c⟩, hf, h⟩
  · -- the expression fails
    refine (expression_fails h).after hleft ?_ ?_
    · intro a' rest ha' _ hrefused
      rw [List.map_singleton, hlex] at ha'
      obtain ⟨hexp, hadv⟩ := expect_complete ha'
      exact .bind_ok hexp (hrefused _ hadv).bind
    · rintro ws ⟨f, hf⟩
      rw [List.map_singleton, hlex]
      exact ⟨_, spelledAll_ofSymbols [.rightParen], f, .parens hf⟩
  rcases Except.bind_eq_error h with h | ⟨_, _, h⟩
  · -- the right parenthesis is missing, in front of a token that is no operator either
    obtain ⟨ts, hts, hexpr, -, hstop⟩ := expression_sound hf
    refine (symbol_fails h).after (hleft.trans hts) ?_ ?_
    · intro a' rest ha' hrest hrefused
      rw [List.map_append, List.map_singleton, hlex] at ha'
      obtain ⟨hexp, hadv⟩ := expect_complete ha'
      obtain ⟨f', c', hread, -, hlex'⟩ := expression_complete hexpr hadv (by rw [hrest]; exact hstop)
      exact .bind_ok hexp (.bind_ok hread (hrefused _ hlex').bind)
    · rintro ws rfl
      rw [List.map_append, List.map_singleton, hlex]
      exact .of ⟨_, .parens hexpr⟩
  · exact absurd h (by simp)

/-- A statement, open or not. -/
def StatementForm (ws : List Lexeme) : Prop := ∃ isOpen s, Grammar.Statement isOpen ws s

def BranchForm (ws : List Lexeme) : Prop := ∃ isOpen s, Grammar.Branch isOpen ws s

/-- The word `else` and the branch behind it. -/
def AlternateForm (ws : List Lexeme) : Prop :=
  ∃ word us isOpen t, ws = ⟨.keyword .elseKw, word⟩ :: us ∧ Grammar.Branch isOpen us t

/-- The statements of a block and its closing brace. -/
def StatementsForm (ws : List Lexeme) : Prop :=
  ∃ us body, Grammar.Statements us body ∧ ws = us ++ [.ofSymbol .rightBrace]

/-- No parser of statements with a bound that covers the tokens ahead accepts them. -/
def StatementRefused (a : Ahead) : Prop :=
  ∀ bound, a.tokens.length ≤ bound → Failed (statement bound a)

def StatementsRefused (a : Ahead) : Prop :=
  ∀ bound n, a.tokens.length ≤ bound → a.tokens.length ≤ n →
    Failed (statements (statement bound) n a)

def BlockRefused (a : Ahead) : Prop :=
  ∀ bound, a.tokens.length ≤ bound + 1 → Failed (block (statement bound) a)

def BranchRefused (a : Ahead) : Prop :=
  ∀ bound, a.tokens.length ≤ bound → Failed (branch (statement bound) a)

def AlternateRefused (a : Ahead) : Prop :=
  ∀ bound, a.tokens.length ≤ bound → Failed (alternate (statement bound) a)

/-- Statements fail in front of a token that is out of place. -/
def StatementFails (bound : Nat) : Prop :=
  ∀ a e, a.tokens.length ≤ bound → statement bound a = .error e →
    Fails StatementRefused StatementForm a e

/-- What starts no statement is refused at once. -/
theorem statement_other {bound : Nat} {a : Ahead} (h : ¬ StartsStatement a.next.kind) :
    statement bound a = .error (a.unexpected .statement) := by
  cases bound with
  | zero => rfl
  | succ bound =>
      unfold statement
      split <;> first
        | rfl
        | (rename_i hk; exact absurd (by rw [hk]; simp [StartsStatement]) h)

/-- Where the text ends, the closing brace of a block is missing. -/
theorem statements_end {statement : Parse (Stmt Location)} {n : Nat} {a : Ahead}
    (h : a.next.kind = .endOfInput) :
    statements statement n a = .error (a.unexpected (.token (.symbol .rightBrace))) := by
  cases n with
  | zero => rfl
  | succ n =>
      unfold statements
      rw [h]

/-- A sequence of statements is refused if its first statement is. -/
theorem statements_refused_first {statement : Parse (Stmt Location)} {n : Nat} {a : Ahead}
    (hk : a.next.kind ≠ .symbol .rightBrace) (h : Failed (statement a)) :
    Failed (statements statement n a) := by
  cases n with
  | zero => exact ⟨_, rfl⟩
  | succ n =>
      unfold statements
      split
      next hbrace => exact absurd hbrace hk
      next => exact ⟨_, rfl⟩
      next => exact h.bind

/-- A sequence of statements is refused if what follows its first statement is. -/
theorem statements_refused_rest {statement : Parse (Stmt Location)} {n : Nat} {a b : Ahead}
    {s : Stmt Location} (hk : a.next.kind ≠ .symbol .rightBrace) (hs : statement a = .ok (s, b))
    (h : ∀ k, n = k + 1 → Failed (statements statement k b)) :
    Failed (statements statement n a) := by
  cases n with
  | zero => exact ⟨_, rfl⟩
  | succ n =>
      unfold statements
      split
      next hbrace => exact absurd hbrace hk
      next => exact ⟨_, rfl⟩
      next => exact .bind_ok hs (h n rfl).bind

/-- Where a block ends with the text, its closing brace can still be written. -/
theorem end_of_statements_fails {a : Ahead} (hk : a.next.kind = .endOfInput) :
    Fails StatementsRefused StatementsForm a (a.unexpected (.token (.symbol .rightBrace))) := by
  refine unexpected_fails _ ?_ ⟨_, spelledAll_ofSymbols [.rightBrace], [], [], .nil, rfl⟩
  intro a' ha' bound' n' _ _
  exact ⟨_, statements_end (ha'.trans hk)⟩

/-- The statements of a block fail in the first of them, or behind it in the others. -/
theorem statements_fails {bound : Nat} (hs : StatementFails bound) :
    ∀ (n : Nat) (a : Ahead) (e : SyntaxError), a.tokens.length ≤ bound → a.tokens.length ≤ n →
      statements (statement bound) n a = .error e → Fails StatementsRefused StatementsForm a e := by
  intro n
  induction n with
  | zero =>
      intro a e _ hn h
      have hzero := Ahead.next_kind_of_length_le_zero hn
      rw [statements_end hzero] at h
      injection h with h
      subst h
      exact end_of_statements_fails hzero
  | succ n ih =>
      intro a e hb hn h
      unfold statements at h
      split at h
      next => exact absurd h (by simp)
      next hk =>
        injection h with h
        subst h
        exact end_of_statements_fails hk
      next hbrace _ =>
        rcases Except.bind_eq_error h with h | ⟨⟨s, c⟩, hsc, h⟩
        · -- the next statement fails
          refine (hs a e hb h).first ?_ ?_
          · intro a' ha' hrefused bound' n' hb' _
            exact statements_refused_first (by rw [ha']; exact hbrace) (hrefused bound' hb')
          · rintro ws ⟨isOpen, s, hs⟩
            exact ⟨_, spelledAll_ofSymbols [.rightBrace], ws, _,
              by simpa using Grammar.Statements.cons hs .nil, rfl⟩
        rcases Except.bind_eq_error h with h | ⟨_, _, h⟩
        · obtain ⟨isOpen, us, hus, hstmt, -, helse⟩ := statement_sound bound _ _ _ hsc
          have hlen := hus.length
          have hpos := statement_length_pos hstmt
          rw [List.length_map] at hpos
          refine (ih c e (by omega) (by omega) h).after hus ?_ ?_
          · -- an open statement is read again as it was, for the token behind it is no `else`
            intro a' rest ha' hrest hrefused bound' n' hb' hn'
            have hhead := hus.headKind hrest
            rw [← ha', ← Ahead.next_kind] at hhead
            obtain ⟨s', b', hread, -, hlex⟩ := statement_complete hstmt bound' a' rest ha' hb'
              (fun hopen => by rw [hrest]; exact helse hopen)
            have hlena := Ahead.length_tokens_eq ha'
            have hlenb := Ahead.length_tokens_eq hlex
            rw [List.length_append, List.length_map] at hlena
            refine statements_refused_rest (by rw [hhead]; exact hbrace) hread ?_
            intro k hk
            exact hrefused b' hlex bound' k (by omega) (by omega)
          · rintro ws ⟨vs, body, hbody, rfl⟩
            exact .of ⟨_, _, .cons hstmt hbody, (List.append_assoc _ _ _).symm⟩
        · exact absurd h (by simp)

/-- A block fails at a brace or in one of its statements. -/
theorem block_fails {bound : Nat} (hs : StatementFails bound) {a : Ahead} {e : SyntaxError}
    (hb : a.tokens.length ≤ bound + 1) (h : block (statement bound) a = .error e) :
    Fails BlockRefused (fun ws => ∃ s, Grammar.Block ws s) a e := by
  rcases Except.bind_eq_error h with h | ⟨⟨t, b⟩, ht, h⟩
  · -- without its left brace a block can still be `{ }`
    refine (symbol_fails h).first (fun a' _ hrefused bound' _ => hrefused.bind) ?_
    rintro ws rfl
    exact ⟨_, spelledAll_ofSymbols [.rightBrace], _, .braces .nil⟩
  obtain ⟨hleft, hlex⟩ := expect_takes ht (by simp)
  have hlen := hleft.length
  rw [List.length_singleton] at hlen
  rcases Except.bind_eq_error h with h | ⟨_, _, h⟩
  · refine (statements_fails hs _ b e (by omega) (Nat.le_refl _) h).after hleft ?_ ?_
    · intro a' rest ha' _ hrefused bound' hb'
      rw [List.map_singleton, hlex] at ha'
      obtain ⟨hexp, hadv⟩ := expect_complete ha'
      obtain ⟨k, hk, hlena⟩ := exists_bound ha' hb'
      exact .bind_ok hexp (hrefused _ hadv bound' _ (by omega) (Nat.le_refl _)).bind
    · rintro ws ⟨us, body, hbody, rfl⟩
      rw [List.map_singleton, hlex]
      exact .of ⟨_, .braces hbody⟩
  · exact absurd h (by simp)

/-- A branch fails as its statement does, as the empty one cannot fail. -/
theorem branch_fails {bound : Nat} (hs : StatementFails bound) {a : Ahead} {e : SyntaxError}
    (hb : a.tokens.length ≤ bound) (h : branch (statement bound) a = .error e) :
    Fails BranchRefused BranchForm a e := by
  unfold branch at h
  split at h
  next => exact absurd h (by simp)
  next hk =>
    rcases Except.bind_eq_error h with h | ⟨_, _, h⟩
    · refine (hs a e hb h).first ?_ ?_
      · intro a' ha' hrefused bound' hb'
        unfold branch
        rw [if_neg (by rw [ha']; exact hk)]
        exact (hrefused bound' hb').bind
      · rintro ws ⟨isOpen, s, hs⟩
        exact .of ⟨isOpen, _, .present hs⟩
    · exact absurd h (by simp)

/-- Only behind the word `else` can the alternate of a choice fail. -/
theorem alternate_fails {bound : Nat} (hs : StatementFails bound) {a : Ahead} {e : SyntaxError}
    (hb : a.tokens.length ≤ bound) (h : alternate (statement bound) a = .error e) :
    a.next.kind = .keyword .elseKw ∧ Fails AlternateRefused AlternateForm a e := by
  unfold alternate at h
  split at h
  -- only behind an `else` can anything be missing
  next helse =>
    obtain ⟨hword, hlex⟩ := Ahead.takes_next helse (by simp)
    have hlen := hword.length
    rw [List.length_singleton] at hlen
    refine ⟨helse, (branch_fails hs (by omega) h).after hword ?_ ?_⟩
    · intro a' rest ha' _ hrefused bound' hb'
      rw [List.map_singleton, hlex] at ha'
      obtain ⟨hkind, -, hadv⟩ := Ahead.next_of_lexemes_cons ha'
      have hlen' := @Ahead.length_tokens_le a' a'.advance [_] _ ha' hadv
      unfold alternate
      rw [if_pos hkind]
      exact hrefused _ hadv bound' (by omega)
    · rintro ws ⟨isOpen, t, ht⟩
      rw [List.map_singleton, hlex]
      exact .of ⟨_, ws, isOpen, t, rfl, ht⟩
  next => exact absurd h (by simp)

/-! One lemma for each form of statement, all with the same shape: the tokens up to a part, and the
failure of that part behind them. -/

/-- An assignment fails behind its name: at the sign, in the value or at the semicolon. -/
theorem assign_fails {bound : Nat} {a : Ahead} {e : SyntaxError} (hk : a.next.kind = .identifier)
    (h : statement (bound + 1) a = .error e) : Fails StatementRefused StatementForm a e := by
  unfold statement at h
  rw [hk] at h
  dsimp only at h
  rcases Except.bind_eq_error h with h | ⟨⟨x, b₁⟩, hx, h⟩
  · -- the name itself is there, since the statement was told by it
    rcases Except.bind_eq_error h with h | ⟨_, _, h⟩
    · exact absurd hk (expect_eq_error h).1
    · exact absurd h (by simp)
  obtain ⟨n, hn, hlexn, -⟩ := identifier_sound hx
  rcases Except.bind_eq_error h with h | ⟨⟨t, b₂⟩, ht, h⟩
  · -- the sign `=` is missing
    refine (symbol_fails h).after hn ?_ ?_
    · intro a' rest ha' _ hrefused bound' hb'
      rw [List.map_singleton, hlexn] at ha'
      obtain ⟨bound', rfl, -⟩ := exists_bound ha' hb'
      obtain ⟨x', b', hread, -, hlex⟩ := identifier_complete ha'
      unfold statement
      rw [(Ahead.next_of_lexemes_cons ha').1]
      exact .bind_ok hread (hrefused b' hlex).bind
    · rintro ws rfl
      rw [List.map_singleton, hlexn]
      exact ⟨_, .cons zero_spelled (spelledAll_ofSymbols [.semicolon]), false, _,
        .assign zero_expression⟩
  obtain ⟨hequals, hlexe⟩ := expect_takes ht (by simp)
  rcases Except.bind_eq_error h with h | ⟨⟨f, b₃⟩, hf, h⟩
  · -- the expression fails
    refine (expression_fails h).after (hn.trans hequals) ?_ ?_
    · intro a' rest ha' _ hrefused bound' hb'
      rw [List.map_append, List.map_singleton, List.map_singleton, hlexn, hlexe] at ha'
      obtain ⟨bound', rfl, -⟩ := exists_bound ha' hb'
      obtain ⟨x', b', hread, -, hlex⟩ := identifier_complete ha'
      obtain ⟨hexp, hadv⟩ := expect_complete hlex
      unfold statement
      rw [(Ahead.next_of_lexemes_cons ha').1]
      exact .bind_ok hread (.bind_ok hexp (hrefused _ hadv).bind)
    · rintro ws ⟨f, hf⟩
      rw [List.map_append, List.map_singleton, List.map_singleton, hlexn, hlexe]
      exact ⟨_, spelledAll_ofSymbols [.semicolon], false, _, .assign hf⟩
  rcases Except.bind_eq_error h with h | ⟨_, _, h⟩
  · -- the semicolon is missing
    obtain ⟨es, hes, hexpr, -, hstop⟩ := expression_sound hf
    refine (symbol_fails h).after ((hn.trans hequals).trans hes) ?_ ?_
    · intro a' rest ha' hrest hrefused bound' hb'
      rw [List.map_append, List.map_append, List.map_singleton, List.map_singleton, hlexn, hlexe]
        at ha'
      obtain ⟨bound', rfl, -⟩ := exists_bound ha' hb'
      obtain ⟨x', b', hread, -, hlex⟩ := identifier_complete ha'
      obtain ⟨hexp, hadv⟩ := expect_complete hlex
      obtain ⟨f', c', hread', -, hlex'⟩ := expression_complete hexpr hadv (by rw [hrest]; exact hstop)
      unfold statement
      rw [(Ahead.next_of_lexemes_cons ha').1]
      exact .bind_ok hread (.bind_ok hexp (.bind_ok hread' (hrefused _ hlex').bind))
    · rintro ws rfl
      rw [List.map_append, List.map_append, List.map_singleton, List.map_singleton, hlexn, hlexe]
      exact .of ⟨false, _, .assign hexpr⟩
  · exact absurd h (by simp)

theorem output_fails {bound : Nat} {a : Ahead} {e : SyntaxError}
    (hk : a.next.kind = .keyword .outputKw) (h : statement (bound + 1) a = .error e) :
    Fails StatementRefused StatementForm a e := by
  obtain ⟨hword, hlexw⟩ := Ahead.takes_next hk (by simp)
  unfold statement at h
  rw [hk] at h
  dsimp only at h
  rcases Except.bind_eq_error h with h | ⟨⟨f, b⟩, hf, h⟩
  · -- the expression fails
    refine (expression_fails h).after hword ?_ ?_
    · intro a' rest ha' _ hrefused bound' hb'
      rw [List.map_singleton, hlexw] at ha'
      obtain ⟨bound', rfl, -⟩ := exists_bound ha' hb'
      obtain ⟨hkind, -, hadv⟩ := Ahead.next_of_lexemes_cons ha'
      unfold statement
      rw [hkind]
      exact (hrefused _ hadv).bind
    · rintro ws ⟨f, hf⟩
      rw [List.map_singleton, hlexw]
      exact ⟨_, spelledAll_ofSymbols [.semicolon], false, _, .output hf⟩
  rcases Except.bind_eq_error h with h | ⟨_, _, h⟩
  · -- the semicolon is missing
    obtain ⟨es, hes, hexpr, -, hstop⟩ := expression_sound hf
    refine (symbol_fails h).after (hword.trans hes) ?_ ?_
    · intro a' rest ha' hrest hrefused bound' hb'
      rw [List.map_append, List.map_singleton, hlexw] at ha'
      obtain ⟨bound', rfl, -⟩ := exists_bound ha' hb'
      obtain ⟨hkind, -, hadv⟩ := Ahead.next_of_lexemes_cons ha'
      obtain ⟨f', c', hread, -, hlex⟩ := expression_complete hexpr hadv (by rw [hrest]; exact hstop)
      unfold statement
      rw [hkind]
      exact .bind_ok hread (hrefused _ hlex).bind
    · rintro ws rfl
      rw [List.map_append, List.map_singleton, hlexw]
      exact .of ⟨false, _, .output hexpr⟩
  · exact absurd h (by simp)

/-- A loop fails in its test or in its body. -/
theorem loop_fails {bound : Nat} (ih : StatementFails bound) {a : Ahead} {e : SyntaxError}
    (hk : a.next.kind = .keyword .whileKw) (hb : a.tokens.length ≤ bound + 1)
    (h : statement (bound + 1) a = .error e) : Fails StatementRefused StatementForm a e := by
  obtain ⟨hword, hlexw⟩ := Ahead.takes_next hk (by simp)
  have hlenw := hword.length
  rw [List.length_singleton] at hlenw
  unfold statement at h
  rw [hk] at h
  dsimp only at h
  rcases Except.bind_eq_error h with h | ⟨⟨f, b⟩, hf, h⟩
  · -- the test fails, and an empty block would complete the loop behind any other one
    refine (test_fails h).after hword ?_ ?_
    · intro a' rest ha' _ hrefused bound' hb'
      rw [List.map_singleton, hlexw] at ha'
      obtain ⟨bound', rfl, -⟩ := exists_bound ha' hb'
      obtain ⟨hkind, -, hadv⟩ := Ahead.next_of_lexemes_cons ha'
      unfold statement
      rw [hkind]
      exact (hrefused _ hadv).bind
    · rintro ws ⟨f, hf⟩
      rw [List.map_singleton, hlexw]
      exact ⟨_, spelledAll_ofSymbols [.leftBrace, .rightBrace], false, _,
        .loop hf (.block (.braces .nil))⟩
  rcases Except.bind_eq_error h with h | ⟨_, _, h⟩
  · -- the body fails
    obtain ⟨us, hus, htest, -⟩ := test_sound hf
    have hlen := hus.length
    dsimp only at h
    refine (ih b e (by omega) h).after (hword.trans hus) ?_ ?_
    · intro a' rest ha' _ hrefused bound' hb'
      rw [List.map_append, List.map_singleton, hlexw] at ha'
      obtain ⟨bound', rfl, hbound⟩ := exists_bound ha' hb'
      obtain ⟨hkind, -, hadv⟩ := Ahead.next_of_lexemes_cons ha'
      obtain ⟨f', c', hread, -, hlex⟩ := test_complete htest hadv
      have hlenc := Ahead.length_tokens_le hadv hlex
      unfold statement
      rw [hkind]
      exact .bind_ok hread (hrefused _ hlex bound' (by omega)).bind
    · rintro ws ⟨isOpen, s, hs⟩
      rw [List.map_append, List.map_singleton, hlexw]
      exact .of ⟨isOpen, _, .loop htest hs⟩
  · exact absurd h (by simp)

/-- A choice fails in its test, in a branch or at what should be there. -/
theorem choice_fails {bound : Nat} (ih : StatementFails bound) {a : Ahead} {e : SyntaxError}
    (hk : a.next.kind = .keyword .ifKw) (hb : a.tokens.length ≤ bound + 1)
    (h : statement (bound + 1) a = .error e) : Fails StatementRefused StatementForm a e := by
  obtain ⟨hword, hlexw⟩ := Ahead.takes_next hk (by simp)
  have hlenw := hword.length
  rw [List.length_singleton] at hlenw
  unfold statement at h
  rw [hk] at h
  dsimp only at h
  rcases Except.bind_eq_error h with h | ⟨⟨f, b⟩, hf, h⟩
  · refine (test_fails h).after hword ?_ ?_
    · intro a' rest ha' _ hrefused bound' hb'
      rw [List.map_singleton, hlexw] at ha'
      obtain ⟨bound', rfl, -⟩ := exists_bound ha' hb'
      obtain ⟨hkind, -, hadv⟩ := Ahead.next_of_lexemes_cons ha'
      unfold statement
      rw [hkind]
      exact (hrefused _ hadv).bind
    · rintro ws ⟨f, hf⟩
      rw [List.map_singleton, hlexw]
      exact ⟨_, spelledAll_ofSymbols [.semicolon], true, _, .choice hf .absent⟩
  obtain ⟨us, hus, htest, -⟩ := test_sound hf
  have hlenu := hus.length
  dsimp only at h
  rcases Except.bind_eq_error h with h | ⟨⟨s, c⟩, hs, h⟩
  · refine (branch_fails ih (by omega) h).after (hword.trans hus) ?_ ?_
    · intro a' rest ha' _ hrefused bound' hb'
      rw [List.map_append, List.map_singleton, hlexw] at ha'
      obtain ⟨bound', rfl, hbound⟩ := exists_bound ha' hb'
      obtain ⟨hkind, -, hadv⟩ := Ahead.next_of_lexemes_cons ha'
      obtain ⟨f', b', hread, -, hlex⟩ := test_complete htest hadv
      have hlenb := Ahead.length_tokens_le hadv hlex
      unfold statement
      rw [hkind]
      exact .bind_ok hread (hrefused _ hlex bound' (by omega)).bind
    · rintro ws ⟨isOpen, s, hs⟩
      rw [List.map_append, List.map_singleton, hlexw]
      exact .of ⟨true, _, .choice htest hs⟩
  rcases Except.bind_eq_error h with h | ⟨_, _, h⟩
  · obtain ⟨isOpen, vs, hvs, hbranch, -, hnext⟩ := branch_sound (statement_sound bound) hs
    have hlenv := hvs.length
    dsimp only at h
    obtain ⟨helse, hfails⟩ := alternate_fails ih (by omega) h
    -- an open branch takes the `else` itself, so this one is closed
    have hclosed : isOpen = false := by
      cases isOpen with
      | false => rfl
      | true => exact absurd helse (hnext rfl)
    subst hclosed
    refine hfails.after ((hword.trans hus).trans hvs) ?_ ?_
    · intro a' rest ha' _ hrefused bound' hb'
      rw [List.map_append, List.map_append, List.map_singleton, hlexw, List.append_assoc] at ha'
      obtain ⟨bound', rfl, hbound⟩ := exists_bound ha' hb'
      obtain ⟨hkind, -, hadv⟩ := Ahead.next_of_lexemes_cons ha'
      obtain ⟨f', b', hread, -, hlex⟩ := test_complete htest hadv
      have hlenb := Ahead.length_tokens_le hadv hlex
      obtain ⟨s', c', hread', -, hlex'⟩ := branch_complete hbranch bound' b' _ hlex (by omega)
        (fun hopen => absurd hopen (by simp))
      have hlenc := Ahead.length_tokens_le hlex hlex'
      unfold statement
      rw [hkind]
      exact .bind_ok hread (.bind_ok hread' (hrefused _ hlex' bound' (by omega)).bind)
    · rintro ws ⟨word, xs, isOpen, t, rfl, ht⟩
      rw [List.map_append, List.map_append, List.map_singleton, hlexw]
      exact .of ⟨isOpen, _, .choiceElse htest hbranch ht⟩
  · exact absurd h (by simp)

/-- **STATEMENTS FAIL AT THE EARLIEST TOKEN**, one case for each token a statement starts with. -/
theorem statement_fails : ∀ bound, StatementFails bound := by
  -- where no statement starts, a block could stand
  have hother : ∀ (bound : Nat) (a : Ahead) (e : SyntaxError), ¬ StartsStatement a.next.kind →
      statement bound a = .error e → Fails StatementRefused StatementForm a e := by
    intro bound a e hk h
    rw [statement_other hk] at h
    injection h with h
    subst h
    refine unexpected_fails _ ?_ ⟨_, spelledAll_ofSymbols [.leftBrace, .rightBrace], false, _,
      .block (.braces .nil)⟩
    intro a' ha' bound' _
    exact ⟨_, statement_other (by rw [ha']; exact hk)⟩
  intro bound
  induction bound with
  | zero =>
      intro a e hb h
      have hend := Ahead.next_kind_of_length_le_zero hb
      refine hother 0 a e ?_ h
      rw [hend]
      simp [StartsStatement]
  | succ bound ih =>
      intro a e hb h
      by_cases hstart : StartsStatement a.next.kind
      · rcases hstart with hk | hk | hk | hk | hk
        · unfold statement at h
          rw [hk] at h
          refine (block_fails ih hb h).first ?_ ?_
          · intro a' ha' hrefused bound' hb'
            cases bound' with
            | zero => exact ⟨_, rfl⟩
            | succ bound' =>
                unfold statement
                rw [ha', hk]
                exact hrefused bound' hb'
          · rintro ws ⟨s, hs⟩
            exact .of ⟨false, s, .block hs⟩
        · exact assign_fails hk h
        · exact output_fails hk h
        · exact loop_fails ih hk hb h
        · exact choice_fails ih hk hb h
      · exact hother _ a e hstart h

/-! ## §2. Programs -/

def MoreNamesRefused (a : Ahead) : Prop :=
  ∀ bound, a.tokens.length ≤ bound → Failed (moreNames bound a)

def DeclarationsRefused (a : Ahead) : Prop :=
  ∀ bound, a.tokens.length ≤ bound → Failed (declarations bound a)

/-- The names of a declaration stop in front of what is no comma. -/
theorem moreNames_stop : ∀ (bound : Nat) (a b : Ahead) (names : List (Identifier Location)),
    moreNames bound a = .ok (names, b) → a.tokens.length ≤ bound →
    b.next.kind ≠ .symbol .comma := by
  intro bound
  induction bound with
  | zero =>
      intro a b names h hb
      obtain ⟨rfl, rfl⟩ := Except.ok_pair_inj h
      -- the bound is as large as the number of tokens, so it is used up only at their end
      have hend := Ahead.next_kind_of_length_le_zero hb
      rw [hend]
      simp
  | succ bound ih =>
      intro a b names h hb
      unfold moreNames at h
      split at h
      next hk =>
        obtain ⟨⟨x, c⟩, hx, h⟩ := Except.bind_eq_ok h
        obtain ⟨⟨more, d⟩, hmore, h⟩ := Except.bind_eq_ok h
        obtain ⟨rfl, rfl⟩ := Except.ok_pair_inj h
        have hlenc := (Ahead.takes_next hk (by simp)).1.length
        obtain ⟨n, hn, -⟩ := identifier_sound hx
        have hlenn := hn.length
        rw [List.length_singleton] at hlenc hlenn
        exact ih _ _ _ hmore (by omega)
      next hk =>
        obtain ⟨rfl, rfl⟩ := Except.ok_pair_inj h
        exact hk

/-- The declarations stop in front of what is no word for a type. -/
theorem declarations_stop : ∀ (bound : Nat) (a b : Ahead) (ds : List (Declaration Location)),
    declarations bound a = .ok (ds, b) → a.tokens.length ≤ bound → type? b.next.kind = none := by
  intro bound
  induction bound with
  | zero =>
      intro a b ds h hb
      obtain ⟨rfl, rfl⟩ := Except.ok_pair_inj h
      have hend := Ahead.next_kind_of_length_le_zero hb
      rw [hend]
      rfl
  | succ bound ih =>
      intro a b ds h hb
      unfold declarations at h
      split at h
      next type htype =>
        obtain ⟨⟨d, c⟩, hd, h⟩ := Except.bind_eq_ok h
        obtain ⟨⟨more, c'⟩, hmore, h⟩ := Except.bind_eq_ok h
        obtain ⟨rfl, rfl⟩ := Except.ok_pair_inj h
        obtain ⟨us, hus, -, hspans⟩ := declaration_sound htype hd
        have hlen := hus.length
        have hpos := List.length_pos_iff.2 hspans.1.nonempty
        exact ih _ _ _ hmore (by omega)
      next hnone =>
        obtain ⟨rfl, rfl⟩ := Except.ok_pair_inj h
        exact hnone

/-- Names fail behind a comma, where only a name may follow. -/
theorem moreNames_fails : ∀ (bound : Nat) (a : Ahead) (e : SyntaxError),
    moreNames bound a = .error e →
    Fails MoreNamesRefused (fun ws => ∃ names, Grammar.MoreNames ws names) a e := by
  intro bound
  induction bound with
  | zero =>
      intro a e h
      exact absurd h (by simp [moreNames])
  | succ bound ih =>
      intro a e h
      unfold moreNames at h
      split at h
      next hk =>
        obtain ⟨hcomma, hlexc⟩ := Ahead.takes_next hk (by simp)
        rcases Except.bind_eq_error h with h | ⟨⟨x, b⟩, hx, h⟩
        · -- the name behind the comma is missing
          refine (identifier_fails h).after hcomma ?_ ?_
          · intro a' rest ha' _ hrefused bound' hb'
            rw [List.map_singleton, hlexc] at ha'
            obtain ⟨bound', rfl, -⟩ := exists_bound ha' hb'
            obtain ⟨hkind, -, hadv⟩ := Ahead.next_of_lexemes_cons ha'
            unfold moreNames
            rw [if_pos hkind]
            exact (hrefused _ hadv).bind
          · rintro ws rfl
            rw [List.map_singleton, hlexc]
            exact .of ⟨_, .cons .nil⟩
        rcases Except.bind_eq_error h with h | ⟨_, _, h⟩
        · -- the failure lies behind this name
          obtain ⟨n, hn, hlexn, -⟩ := identifier_sound hx
          refine (ih b e h).after (hcomma.trans hn) ?_ ?_
          · intro a' rest ha' _ hrefused bound' hb'
            rw [List.map_append, List.map_singleton, List.map_singleton, hlexc, hlexn] at ha'
            obtain ⟨bound', rfl, hbound⟩ := exists_bound ha' hb'
            obtain ⟨hkind, -, hadv⟩ := Ahead.next_of_lexemes_cons ha'
            obtain ⟨x', b', hread, -, hlex⟩ := identifier_complete hadv
            have hlen := @Ahead.length_tokens_le a'.advance b' [_] _ hadv hlex
            unfold moreNames
            rw [if_pos hkind]
            exact .bind_ok hread (hrefused _ hlex bound' (by omega)).bind
          · rintro ws ⟨names, hnames⟩
            rw [List.map_append, List.map_singleton, List.map_singleton, hlexc, hlexn]
            exact .of ⟨_, .cons hnames⟩
        · exact absurd h (by simp)
      next => exact absurd h (by simp)

theorem declaration_fails {type : ValueType} {a : Ahead} {e : SyntaxError}
    (ha : type? a.next.kind = some type) (h : declaration type a = .error e) :
    Fails (fun a' => ∀ type', Failed (declaration type' a'))
      (fun ws => ∃ d, Grammar.Declaration ws d) a e := by
  obtain ⟨hword, hlexw⟩ := Ahead.takes_next ((type?_eq_some_iff _ _).1 ha) (by simp)
  rcases Except.bind_eq_error h with h | ⟨⟨first, b⟩, hfirst, h⟩
  · -- the first name is missing
    refine (identifier_fails h).after hword ?_ ?_
    · intro a' rest ha' _ hrefused type'
      rw [List.map_singleton, hlexw] at ha'
      exact (hrefused _ (Ahead.next_of_lexemes_cons ha').2.2).bind
    · rintro ws rfl
      rw [List.map_singleton, hlexw]
      exact ⟨_, spelledAll_ofSymbols [.semicolon], _, .names .nil⟩
  obtain ⟨n, hn, hlexn, -⟩ := identifier_sound hfirst
  rcases Except.bind_eq_error h with h | ⟨⟨others, c⟩, hothers, h⟩
  · -- one of the other names is missing
    refine (moreNames_fails _ b e h).after (hword.trans hn) ?_ ?_
    · intro a' rest ha' _ hrefused type'
      rw [List.map_append, List.map_singleton, List.map_singleton, hlexw, hlexn] at ha'
      obtain ⟨-, -, hadv⟩ := Ahead.next_of_lexemes_cons ha'
      obtain ⟨x', b', hread, -, hlex⟩ := identifier_complete hadv
      exact .bind_ok hread (hrefused _ hlex _ (Nat.le_refl _)).bind
    · rintro ws ⟨names, hnames⟩
      rw [List.map_append, List.map_singleton, List.map_singleton, hlexw, hlexn]
      exact ⟨_, spelledAll_ofSymbols [.semicolon], _, .names hnames⟩
  rcases Except.bind_eq_error h with h | ⟨_, _, h⟩
  · -- the semicolon is missing, in front of a token that is no comma either
    obtain ⟨ts, hts, hnames, -⟩ := moreNames_sound _ _ _ _ hothers
    have hstop := moreNames_stop _ _ _ _ hothers (Nat.le_refl _)
    refine (symbol_fails h).after ((hword.trans hn).trans hts) ?_ ?_
    · intro a' rest ha' hrest hrefused type'
      rw [List.map_append, List.map_append, List.map_singleton, List.map_singleton, hlexw, hlexn]
        at ha'
      obtain ⟨-, -, hadv⟩ := Ahead.next_of_lexemes_cons ha'
      obtain ⟨x', b', hread, -, hlex⟩ := identifier_complete hadv
      obtain ⟨names', c', hread', -, hlex'⟩ := moreNames_complete hnames _ b' rest hlex
        (Nat.le_refl _) (by rw [hrest]; exact hstop)
      exact .bind_ok hread (.bind_ok hread' (hrefused _ hlex').bind)
    · rintro ws rfl
      rw [List.map_append, List.map_append, List.map_singleton, List.map_singleton, hlexw, hlexn]
      exact .of ⟨_, .names hnames⟩
  · exact absurd h (by simp)

/-- Declarations fail inside one of them, never between two. -/
theorem declarations_fails : ∀ (bound : Nat) (a : Ahead) (e : SyntaxError),
    declarations bound a = .error e →
    Fails DeclarationsRefused (fun ws => ∃ ds, Grammar.Declarations ws ds) a e := by
  intro bound
  induction bound with
  | zero =>
      intro a e h
      exact absurd h (by simp [declarations])
  | succ bound ih =>
      intro a e h
      unfold declarations at h
      split at h
      next type htype =>
        rcases Except.bind_eq_error h with h | ⟨⟨d, b⟩, hd, h⟩
        · refine (declaration_fails htype h).first ?_ ?_
          · intro a' ha' hrefused bound' hb'
            rw [← ha'] at htype
            have hlen := (Ahead.takes_next ((type?_eq_some_iff _ _).1 htype) (by simp)).1.length
            rw [List.length_singleton] at hlen
            obtain ⟨bound', rfl⟩ : ∃ k, bound' = k + 1 := ⟨bound' - 1, by omega⟩
            unfold declarations
            rw [htype]
            exact (hrefused type).bind
          · rintro ws ⟨d, hd⟩
            exact .of ⟨[d], by simpa using Grammar.Declarations.cons hd .nil⟩
        rcases Except.bind_eq_error h with h | ⟨_, _, h⟩
        · obtain ⟨us, hus, hdecl, hspans⟩ := declaration_sound htype hd
          have hpos := List.length_pos_iff.2 hspans.1.nonempty
          refine (ih b e h).after hus ?_ ?_
          · intro a' rest ha' _ hrefused bound' hb'
            obtain ⟨d', b', hread, htype', -, hlex⟩ := declaration_complete hdecl ha'
            have hlena := Ahead.length_tokens_eq ha'
            have hlenb := Ahead.length_tokens_eq hlex
            rw [List.length_append, List.length_map] at hlena
            obtain ⟨bound', rfl⟩ : ∃ k, bound' = k + 1 := ⟨bound' - 1, by omega⟩
            unfold declarations
            rw [htype']
            exact .bind_ok hread (hrefused _ hlex bound' (by omega)).bind
          · rintro ws ⟨ds, hds⟩
            exact .of ⟨_, .cons hdecl hds⟩
        · exact absurd h (by simp)
      next => exact absurd h (by simp)

/-- **PROGRAMS FAIL AT THE EARLIEST TOKEN**: in a declaration, in the block, or behind it. -/
theorem program_fails {a : Ahead} {e : SyntaxError} (h : program a = .error e) :
    Fails (fun a' => Failed (program a')) (fun ws => ∃ p, Grammar.Program ws p) a e := by
  rcases Except.bind_eq_error h with h | ⟨⟨ds, b⟩, hds, h⟩
  · -- a declaration fails
    refine (declarations_fails _ a e h).first ?_ ?_
    · intro a' _ hrefused
      exact (hrefused _ (Nat.le_refl _)).bind
    · rintro ws ⟨ds, hds⟩
      exact ⟨_, spelledAll_ofSymbols [.leftBrace, .rightBrace], _, .mk hds (.braces .nil)⟩
  obtain ⟨us, hus, hdecls, -⟩ := declarations_sound _ _ _ _ hds
  have hstop := declarations_stop _ _ _ _ hds (Nat.le_refl _)
  rcases Except.bind_eq_error h with h | ⟨⟨s, c⟩, hs, h⟩
  · -- the body fails
    refine (block_fails (statement_fails _) (Nat.le_succ _) h).after hus ?_ ?_
    · intro a' rest ha' hrest hrefused
      obtain ⟨ds', b', hread, -, hlex⟩ := declarations_complete hdecls _ a' rest ha' (Nat.le_refl _)
        (by rw [hrest]; exact hstop)
      exact .bind_ok hread (hrefused b' hlex _ (Nat.le_succ _)).bind
    · rintro ws ⟨s, hs⟩
      exact .of ⟨_, .mk hdecls hs⟩
  obtain ⟨vs, hvs, hblock, -⟩ := block_sound (statement_sound _) hs
  rcases Except.bind_eq_error h with h | ⟨_, _, h⟩
  · -- the program is complete, and something stands behind it
    refine (end_fails h).after (hus.trans hvs) ?_ ?_
    · intro a' rest ha' hrest hrefused
      rw [List.map_append, List.append_assoc] at ha'
      obtain ⟨ds', b', hread, -, hlex⟩ := declarations_complete hdecls _ a' _ ha' (Nat.le_refl _)
        (by rw [hvs.headKind hrest]; exact hstop)
      obtain ⟨s', c', hread', -, hlex'⟩ := block_complete hblock b'.tokens.length b' rest hlex
        (Nat.le_succ _)
      exact .bind_ok hread (.bind_ok hread' (hrefused c' hlex').bind)
    · rintro ws rfl
      rw [List.map_append, List.append_nil]
      exact .of ⟨_, .mk hdecls hblock⟩
  · exact absurd h (by simp)

end Parse

/-! ## §3. Lists of tokens that the parser accepts -/

/-- A list of tokens up to the one for the end that the parser accepts, wherever they stand. -/
def Accepted (ws : List Lexeme) : Prop :=
  ∃ a p, ws = Ahead.lexemes a ++ [.finish] ∧ (∀ w ∈ a.lexemes, w.kind ≠ .endOfInput) ∧
    Parse.program a = .ok p

/-- Tokens with which some accepted list starts. -/
def Viable (ws : List Lexeme) : Prop := ∃ more, Accepted (ws ++ more)

/-- The first `i` tokens of a source text, the end being the last one. -/
def Lexed.before (l : Lexed) (i : Nat) : List Lexeme := (l.all.take i).map Token.lexeme

/-- The cause of an error is that of the token in front of which the parser stopped. A numeral
    beyond `2 ^ 63 - 1` is an invalid number where a smaller one could stand, and unexpected like
    any other token elsewhere. -/
def CauseAt (before : List Lexeme) (w : Lexeme) (cause : SyntaxError.Cause) : Prop :=
  match w.kind with
  | .endOfInput => ∃ expected, cause = .unexpectedEnd expected
  | .invalid => cause = .invalidCharacter w.text
  | .openComment => cause = .openComment
  | .number =>
    if 0x7fffffffffffffff < Grammar.decimal w.text then
      (Viable (before ++ [.zero]) → cause = .invalidNumber w.text) ∧
        (¬ Viable (before ++ [.zero]) → ∃ expected, cause = .unexpectedToken w.text expected)
    else ∃ expected, cause = .unexpectedToken w.text expected
  | _ => ∃ expected, cause = .unexpectedToken w.text expected

/-- Tokens that stand nowhere in particular. -/
def Ahead.ofLexemes (ws : List Lexeme) : Ahead :=
  ⟨.start, ws.map fun w => ⟨w.kind, w.text, ⟨.start, .start⟩⟩, .start⟩

theorem Ahead.lexemes_ofLexemes (ws : List Lexeme) : (Ahead.ofLexemes ws).lexemes = ws := by
  unfold Ahead.ofLexemes Ahead.lexemes
  rw [List.map_map]
  exact List.map_id ws

/-- What the grammar derives is accepted. -/
theorem Accepted.of_program {ws : List Lexeme} {p : Program Unit} (h : Grammar.Program ws p)
    (hs : SpelledAll ws) : Accepted (ws ++ [.finish]) := by
  have hws := Ahead.lexemes_ofLexemes ws
  obtain ⟨p', hread, -⟩ := Parse.program_complete (a := Ahead.ofLexemes ws) (by rw [hws]; exact h)
  refine ⟨Ahead.ofLexemes ws, p', by rw [hws], ?_, hread⟩
  rw [hws]
  intro w hw hk
  have hspelled := hs w hw
  rw [hk] at hspelled
  exact hspelled

/-- A list of tokens that starts with some, the end being the last, starts with them and their
    successor without the end too, where the successor may be the end itself. -/
theorem Accepted.starts {us more : List Lexeme} {w : Lexeme} (h : Accepted (us ++ w :: more)) :
    ∃ a rest p, Ahead.lexemes a = us ++ rest ∧ headLexeme rest = w ∧ Parse.program a = .ok p := by
  obtain ⟨a, p, hws, -, hp⟩ := h
  rcases List.eq_nil_or_concat more with rfl | ⟨most, last, rfl⟩
  · obtain ⟨hus, hw⟩ := List.append_inj' hws rfl
    refine ⟨a, [], p, by rw [hus, List.append_nil], ?_, hp⟩
    exact (List.cons.inj hw).1.symm
  · rw [List.concat_eq_append, ← List.cons_append, ← List.append_assoc] at hws
    exact ⟨a, w :: most, p, (List.append_inj' hws rfl).1.symm, rfl, hp⟩

/-- The tokens taken and the next one, among all tokens of a text. -/
theorem Ahead.Takes.all {l : Lexed} {ts : List Token} {c : Ahead}
    (h : (Ahead.ofLexed l).Takes ts c) : ∃ rest, l.all = ts ++ c.next :: rest := by
  have htokens : l.tokens = ts ++ c.tokens := h.tokens
  have hstop : c.stop = l.stop := h.stop
  unfold Lexed.all Ahead.next
  rw [htokens, hstop]
  cases c.tokens with
  | nil => exact ⟨[], by simp⟩
  | cons t tokens => exact ⟨tokens ++ [Token.endAt l.stop], by simp⟩

/-- An error stands where the token that is out of place starts. -/
theorem Misfit.position {c : Ahead} {e : SyntaxError} {bad : Lexeme → Prop} {fill : List Lexeme}
    (h : Misfit c e bad fill) : e.position = c.next.place.start := by
  cases h <;> rfl

/-- The token that was met is out of place itself. -/
theorem Misfit.bad_self {c : Ahead} {e : SyntaxError} {bad : Lexeme → Prop} {fill : List Lexeme}
    (h : Misfit c e bad fill) : bad c.next.lexeme := by
  cases h with
  | kind => rfl
  | numeral hkind hlarge => exact ⟨hkind, hlarge⟩

/-- What would fit can be written. -/
theorem Misfit.fill_spelled {c : Ahead} {e : SyntaxError} {bad : Lexeme → Prop}
    {fill : List Lexeme} (h : Misfit c e bad fill) : SpelledAll fill := by
  cases h with
  | kind => exact spelledAll_nil
  | numeral => exact .cons zero_spelled spelledAll_nil

/-- The cause that a token out of place gives, where what fits in its place keeps the tokens in
    front viable and what is out of place like it does not. -/
theorem Misfit.causeAt {c : Ahead} {e : SyntaxError} {bad : Lexeme → Prop} {fill : List Lexeme}
    (h : Misfit c e bad fill) {before : List Lexeme} (hfill : Viable (before ++ fill))
    (hbad : ∀ w, bad w → ¬ Viable (before ++ [w])) : CauseAt before c.next.lexeme e.cause := by
  cases h with
  | numeral hkind hlarge =>
      unfold CauseAt
      rw [show c.next.lexeme.kind = .number from hkind]
      dsimp only
      rw [if_pos (show _ < Grammar.decimal c.next.lexeme.text from hlarge)]
      exact ⟨fun _ => rfl, fun hnot => absurd hfill hnot⟩
  | kind expected =>
      unfold CauseAt Ahead.unexpected Token.lexeme
      dsimp only
      cases hk : c.next.kind with
      | number =>
          dsimp only
          split
          · -- a smaller numeral would be out of place here as well
            refine ⟨fun hzero => absurd hzero (hbad .zero hk.symm), fun _ => ⟨expected, rfl⟩⟩
          · exact ⟨expected, rfl⟩
      | identifier => exact ⟨expected, rfl⟩
      | keyword => exact ⟨expected, rfl⟩
      | symbol => exact ⟨expected, rfl⟩
      | invalid => rfl
      | openComment => rfl
      | endOfInput => exact ⟨expected, rfl⟩

/-- A tree is refused for the error of its program, whether places are written down or not. -/
theorem Tree.parse_eq_error {source : String} {places : Bool} {e : SyntaxError}
    (h : Tree.parse source places = .error e) : Program.parse source = .error e := by
  unfold Tree.parse at h
  cases hp : Program.parse source with
  | ok p =>
      rw [hp] at h
      exact absurd h (by simp [Except.map])
  | error e' =>
      rw [hp] at h
      injection h with h
      rw [h]

/-- **A SYNTAX ERROR STANDS AT THE EARLIEST POSSIBLE TOKEN.**  It is at the start of a token such
    that the tokens in front can be completed, by tokens spelled as their kinds demand, to a list
    that the parser accepts, but the tokens up to and with that one cannot be, by any tokens. -/
theorem Tree.parse_error_earliest {source : String} {places : Bool} {e : SyntaxError}
    (h : Tree.parse source places = .error e) :
    ∃ i t, (Lexed.ofSource source).all[i]? = some t ∧ e.position = t.place.start ∧
      (∃ more, SpelledAll more ∧
        Accepted ((Lexed.ofSource source).before i ++ (more ++ [.finish]))) ∧
      ¬ Viable ((Lexed.ofSource source).before (i + 1)) ∧
      CauseAt ((Lexed.ofSource source).before i) t.lexeme e.cause := by
  obtain ⟨ts, c, bad, fill, hts, hmisfit, ⟨more, hmore, p, hp⟩, hrefused⟩ :=
    Parse.program_fails (Tree.parse_eq_error h)
  obtain ⟨rest, hall⟩ := hts.all
  have hbefore : (Lexed.ofSource source).before ts.length = ts.map Token.lexeme := by
    unfold Lexed.before
    rw [hall, List.take_left]
  have hupto : (Lexed.ofSource source).before (ts.length + 1)
      = ts.map Token.lexeme ++ [c.next.lexeme] := by
    unfold Lexed.before
    rw [hall, List.take_length_add_append]
    simp
  -- the completion is derived, so it is accepted
  have hspelled : SpelledAll (ts.map Token.lexeme) := by
    intro w hw
    refine lexemes_spelled source w ?_
    have htokens : (Lexed.ofSource source).tokens = ts ++ c.tokens := hts.tokens
    unfold lexemes
    rw [htokens, List.map_append]
    exact List.mem_append_left _ hw
  have hfill := hmisfit.fill_spelled
  have haccepted := Accepted.of_program hp ((hspelled.append hfill).append hmore)
  -- and whatever goes on with a token out of place in the same way is refused
  have hdead : ∀ w, bad w → ¬ Viable (ts.map Token.lexeme ++ [w]) := by
    rintro w hw ⟨further, hacc⟩
    rw [List.append_assoc] at hacc
    obtain ⟨a, tail, p', ha, rfl, hok⟩ := hacc.starts
    obtain ⟨e', herror⟩ := hrefused a tail ha hw
    rw [hok] at herror
    exact absurd herror (by simp)
  refine ⟨ts.length, c.next, ?_, hmisfit.position, ⟨fill ++ more, hfill.append hmore, ?_⟩, ?_, ?_⟩
  · rw [hall]
    simp
  · rw [hbefore]
    simpa using haccepted
  · rw [hupto]
    exact hdead _ hmisfit.bad_self
  · rw [hbefore]
    refine hmisfit.causeAt ⟨more ++ [.finish], ?_⟩ hdead
    simpa using haccepted

/-- An error behind a declaration and an operator, at a numeral that is too large. -/
theorem parse_error_earliest_numeral :
    Tree.parse "integer n; \x7b n = 1 + 9223372036854775808; \x7d" true =
        .error ⟨.invalidNumber "9223372036854775808", ⟨21, 1, 22⟩⟩ ∧
      ∃ i t, (Lexed.ofSource "integer n; \x7b n = 1 + 9223372036854775808; \x7d").all[i]? = some t ∧
        (⟨21, 1, 22⟩ : Position) = t.place.start ∧
        (∃ more, SpelledAll more ∧
          Accepted ((Lexed.ofSource "integer n; \x7b n = 1 + 9223372036854775808; \x7d").before i ++
            (more ++ [.finish]))) ∧
        ¬ Viable ((Lexed.ofSource "integer n; \x7b n = 1 + 9223372036854775808; \x7d").before (i + 1)) ∧
        CauseAt ((Lexed.ofSource "integer n; \x7b n = 1 + 9223372036854775808; \x7d").before i) t.lexeme
          (.invalidNumber "9223372036854775808") := by
  have h : Tree.parse "integer n; \x7b n = 1 + 9223372036854775808; \x7d" true =
      .error ⟨.invalidNumber "9223372036854775808", ⟨21, 1, 22⟩⟩ := by rfl
  exact ⟨h, Tree.parse_error_earliest h⟩

end TinyLang
