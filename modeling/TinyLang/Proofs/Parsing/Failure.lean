/-
  TinyLang.Proofs.Parsing.Failure — a parser that fails, fails at the earliest token.

  A parser that fails has taken tokens that start some form of the grammar, and would fail
  on every list of tokens that goes on with the same one:

      operand bound a = .error e
        →  a.Takes ts c ,  e is the error of the token behind ts
        ∧  ts ++ more is an operand for some more
        ∧  every list of tokens that starts with ts and that token is refused

  Both halves travel together (`Fails`), from the parser that met the token outwards.  What
  a parser in front of the failing one does is settled by completeness: on tokens that start
  alike it reads the same ones again.
-/

import TinyLang.Proofs.Parsing.WellSpelled

namespace TinyLang

open Grammar (SpelledAll)

/-! ## §1. Completions of lists of tokens -/

/-- What the grammar sees of the token for the end. -/
def Lexeme.finish : Lexeme := ⟨.endOfInput, ""⟩

/-- A symbol as a token. -/
def Lexeme.ofSymbol (s : Symbol) : Lexeme := ⟨.symbol s, s.spelling⟩

/-- The numeral that is the shortest expression. -/
def Lexeme.zero : Lexeme := ⟨.number, "0"⟩

/-- The first of some tokens, which is the end if there are none. -/
def headLexeme : List Lexeme → Lexeme
  | [] => .finish
  | w :: _ => w

theorem headLexeme_kind (ws : List Lexeme) : (headLexeme ws).kind = headKind ws := by
  cases ws <;> rfl

/-- Some tokens make a list one of the form, and they are spelled as their kinds demand. -/
def Completes (form : List Lexeme → Prop) (ws : List Lexeme) : Prop :=
  ∃ more, SpelledAll more ∧ form (ws ++ more)

theorem Grammar.SpelledAll.append {us vs : List Lexeme} (hu : SpelledAll us) (hv : SpelledAll vs) :
    SpelledAll (us ++ vs) := by
  intro w hw
  rcases List.mem_append.1 hw with h | h
  · exact hu w h
  · exact hv w h

theorem spelledAll_nil : SpelledAll [] := fun _ hw => absurd hw (by simp)

/-- What is of the form already needs no completion. -/
theorem Completes.of {form : List Lexeme → Prop} {ws : List Lexeme} (h : form ws) :
    Completes form ws :=
  ⟨[], spelledAll_nil, by rwa [List.append_nil]⟩

theorem Grammar.SpelledAll.cons {w : Lexeme} {ws : List Lexeme} (hw : Spelled w.kind w.text)
    (hws : SpelledAll ws) : SpelledAll (w :: ws) := by
  intro v hv
  rcases List.mem_cons.1 hv with rfl | h
  · exact hw
  · exact hws v h

theorem spelledAll_ofSymbols (ss : List Symbol) : SpelledAll (ss.map .ofSymbol) := by
  intro w hw
  obtain ⟨s, -, rfl⟩ := List.mem_map.1 hw
  rfl

theorem zero_spelled : Spelled Lexeme.zero.kind Lexeme.zero.text :=
  ⟨'0', [], rfl, rfl, rfl⟩

theorem zero_unary : Grammar.Unary [.zero] (.literal () (.integer (.ofNat (Grammar.decimal "0")))) :=
  .primary (.number (by decide))

theorem zero_expression :
    Grammar.Expression [.zero] (.literal () (.integer (.ofNat (Grammar.decimal "0")))) :=
  Parse.level_mono (.unary zero_unary) (by omega) (by omega) (by omega)

/-! ## §2. Failures -/

/-- Computations that end in an error. -/
def Failed {β : Type} (x : Except SyntaxError β) : Prop := ∃ e, x = .error e

theorem Failed.bind {β γ : Type} {x : Except SyntaxError β} {f : β → Except SyntaxError γ}
    (h : Failed x) : Failed (x >>= f) := by
  obtain ⟨e, rfl⟩ := h
  exact ⟨e, rfl⟩

theorem Failed.bind_ok {β γ : Type} {x : Except SyntaxError β} {f : β → Except SyntaxError γ}
    {r : β} (hx : x = .ok r) (h : Failed (f r)) : Failed (x >>= f) := by
  subst hx
  exact h

/-- A chain of two computations fails when the first does, or the second behind the first. -/
theorem Except.bind_eq_error {ε β γ : Type} {x : Except ε β} {f : β → Except ε γ} {e : ε}
    (h : (x >>= f) = .error e) : x = .error e ∨ ∃ r, x = .ok r ∧ f r = .error e := by
  cases x with
  | error e' =>
      left
      injection h with h
      rw [h]
  | ok r => exact .inr ⟨r, rfl, h⟩

/-- How a next token can be out of place: the error it gives, the tokens that would be out of place
    in the same way, and what would fit there before anything else. -/
inductive Misfit (c : Ahead) : SyntaxError → (Lexeme → Prop) → List Lexeme → Prop
  | kind (expected : Expected) :
      Misfit c (c.unexpected expected) (fun w => w.kind = c.next.kind) []
  | numeral : c.next.kind = .number → 0x7fffffffffffffff < Grammar.decimal c.next.text →
      Misfit c ⟨.invalidNumber c.next.text, c.here⟩
        (fun w => w.kind = .number ∧ 0x7fffffffffffffff < Grammar.decimal w.text) [.zero]

/-- Tokens that are out of place in the same way are of the same kind. -/
theorem Misfit.kind_eq {c : Ahead} {e : SyntaxError} {bad : Lexeme → Prop} {fill : List Lexeme}
    (h : Misfit c e bad fill) {w : Lexeme} (hw : bad w) : w.kind = c.next.kind := by
  cases h with
  | kind => exact hw
  | numeral hkind => exact hw.1.trans hkind.symm

/-- A failure in front of a token that is out of place.  The tokens taken up to there can be
    completed to one of the form, and every list of tokens that starts with them and goes on with a
    token that is out of place in the same way is refused. -/
def Fails (refused : Ahead → Prop) (form : List Lexeme → Prop) (a : Ahead) (e : SyntaxError) :
    Prop :=
  ∃ ts c bad fill, a.Takes ts c ∧ Misfit c e bad fill ∧
    Completes form (ts.map Token.lexeme ++ fill) ∧
    ∀ a' rest, Ahead.lexemes a' = ts.map Token.lexeme ++ rest → bad (headLexeme rest) → refused a'

/-- The kind of the next token, from the tokens taken and the kind behind them. -/
theorem Ahead.Takes.headKind {a b : Ahead} {ts : List Token} (h : a.Takes ts b)
    {rest : List Lexeme} (hrest : headKind rest = b.next.kind) :
    TinyLang.headKind (ts.map Token.lexeme ++ rest) = a.next.kind := by
  rw [Ahead.next_kind, h.lexemes]
  cases ts with
  | nil => rw [List.map_nil, List.nil_append, List.nil_append, hrest, Ahead.next_kind]
  | cons t ts => rfl

/-- **A failure behind tokens that another parser took.**  The form around must be one that the
    form inside completes, and refuse what is refused behind these tokens. -/
theorem Fails.after {refused outer : Ahead → Prop} {form around : List Lexeme → Prop} {a b : Ahead}
    {e : SyntaxError} {us : List Token} (h : Fails refused form b e) (htakes : a.Takes us b)
    (houter : ∀ a' rest, Ahead.lexemes a' = us.map Token.lexeme ++ rest →
      headKind rest = b.next.kind → (∀ b', Ahead.lexemes b' = rest → refused b') → outer a')
    (hform : ∀ ws, form ws → Completes around (us.map Token.lexeme ++ ws)) :
    Fails outer around a e := by
  obtain ⟨ts, c, bad, fill, hts, hmisfit, ⟨more, hmore, hws⟩, hrefused⟩ := h
  refine ⟨us ++ ts, c, bad, fill, htakes.trans hts, hmisfit, ?_, ?_⟩
  · obtain ⟨more', hmore', haround⟩ := hform _ hws
    refine ⟨more ++ more', hmore.append hmore', ?_⟩
    simpa using haround
  · intro a' rest ha' hbad
    rw [List.map_append, List.append_assoc] at ha'
    refine houter a' _ ha' (hts.headKind ?_) (fun b' hb' => hrefused b' rest hb' hbad)
    rw [← headLexeme_kind]
    exact hmisfit.kind_eq hbad

/-- A failure of a part that stands first in its form. -/
theorem Fails.first {refused outer : Ahead → Prop} {form around : List Lexeme → Prop} {a : Ahead}
    {e : SyntaxError} (h : Fails refused form a e)
    (houter : ∀ a', (Ahead.next a').kind = a.next.kind → refused a' → outer a')
    (hform : ∀ ws, form ws → Completes around ws) : Fails outer around a e := by
  refine h.after (.refl a) ?_ hform
  intro a' rest ha' hrest hrefused
  refine houter a' ?_ (hrefused a' ha')
  rw [Ahead.next_kind, ha']
  exact hrest

/-- A token of a kind that fits nowhere in front of a form. -/
theorem unexpected_fails {refused : Ahead → Prop} {form : List Lexeme → Prop} {a : Ahead}
    (expected : Expected) (hrefused : ∀ a', (Ahead.next a').kind = a.next.kind → refused a')
    (hform : Completes form []) : Fails refused form a (a.unexpected expected) := by
  refine ⟨[], a, _, [], .refl a, .kind expected, hform, ?_⟩
  intro a' rest ha' hkind
  refine hrefused a' ?_
  rw [Ahead.next_kind, ha', ← hkind, headLexeme_kind]
  rfl

namespace Parse

/-- An expectation fails for the kind of the next token, and says what was expected. -/
theorem expect_eq_error {kind : Token.Kind} {a : Ahead} {e : SyntaxError}
    (h : expect kind a = .error e) : a.next.kind ≠ kind ∧ e = a.unexpected (.token kind) := by
  unfold expect at h
  split at h
  next => exact absurd h (by simp)
  next hk =>
    injection h with h
    exact ⟨hk, h.symm⟩

theorem expect_failed {kind : Token.Kind} {a : Ahead} (h : a.next.kind ≠ kind) :
    Failed (expect kind a) := by
  unfold expect
  rw [if_neg h]
  exact ⟨_, rfl⟩

/-- A token of a certain kind, for which `text` can be written. -/
theorem expect_fails {kind : Token.Kind} (text : String) (hs : Spelled kind text) {a : Ahead}
    {e : SyntaxError} (h : expect kind a = .error e) :
    Fails (fun a' => Failed (expect kind a')) (· = [⟨kind, text⟩]) a e := by
  obtain ⟨hk, rfl⟩ := expect_eq_error h
  refine unexpected_fails _ (fun a' ha' => ?_) ⟨[⟨kind, text⟩], .cons hs spelledAll_nil, rfl⟩
  exact expect_failed (by rw [ha']; exact hk)

theorem symbol_fails {s : Symbol} {a : Ahead} {e : SyntaxError}
    (h : expect (.symbol s) a = .error e) :
    Fails (fun a' => Failed (expect (.symbol s) a')) (· = [.ofSymbol s]) a e :=
  expect_fails s.spelling (show Spelled (.symbol s) s.spelling from rfl) h

/-- The end of the text, where nothing has to be written. -/
theorem end_fails {a : Ahead} {e : SyntaxError} (h : expect .endOfInput a = .error e) :
    Fails (fun a' => Failed (expect .endOfInput a')) (· = []) a e := by
  obtain ⟨hk, rfl⟩ := expect_eq_error h
  refine unexpected_fails _ (fun a' ha' => ?_) (.of rfl)
  exact expect_failed (by rw [ha']; exact hk)

/-- Where a name is missing, any name would have done. -/
theorem identifier_fails {a : Ahead} {e : SyntaxError} (h : identifier a = .error e) :
    Fails (fun a' => Failed (identifier a')) (· = [⟨.identifier, "x"⟩]) a e := by
  rcases Except.bind_eq_error h with h | ⟨_, _, h⟩
  · have hx : Spelled .identifier "x" := ⟨⟨'x', [], rfl, rfl, rfl⟩, rfl⟩
    refine (expect_fails "x" hx h).first ?_ (fun ws hws => .of hws)
    intro a' _ hrefused
    exact hrefused.bind
  · exact absurd h (by simp)

/-! ## §3. Expressions -/

/-- The kinds of tokens that an operand starts with. -/
def StartsOperand (kind : Token.Kind) : Prop :=
  kind ∈ [.symbol .bang, .symbol .minus, .number, .keyword .trueKw, .keyword .falseKw,
    .keyword .readKw, .identifier, .symbol .leftParen]

instance : DecidablePred StartsOperand := fun kind => inferInstanceAs (Decidable (kind ∈ _))

/-- What starts no operand is refused at once. -/
theorem operand_other {bound : Nat} {a : Ahead} (h : ¬ StartsOperand a.next.kind) :
    operand bound a = .error (a.unexpected .expression) := by
  cases bound with
  | zero => rfl
  | succ bound =>
      unfold operand
      dsimp only
      split <;> first
        | rfl
        | (rename_i hk; exact absurd (by rw [hk]; decide) h)

/-- No parser of operands with a bound that covers the tokens ahead accepts them. -/
def OperandRefused (a : Ahead) : Prop :=
  ∀ bound, a.tokens.length ≤ bound → Failed (operand bound a)

/-- Operands fail in front of a token that is out of place. -/
def OperandFails (bound : Nat) : Prop :=
  ∀ a e, a.tokens.length ≤ bound → operand bound a = .error e →
    Fails OperandRefused (fun ws => ∃ f, Grammar.Unary ws f) a e

/-- A token with which no operand starts. -/
theorem other_fails {bound : Nat} {a : Ahead} {e : SyntaxError} (hk : ¬ StartsOperand a.next.kind)
    (h : operand bound a = .error e) :
    Fails OperandRefused (fun ws => ∃ f, Grammar.Unary ws f) a e := by
  rw [operand_other hk] at h
  injection h with h
  subst h
  refine unexpected_fails _ ?_ ⟨[.zero], .cons zero_spelled spelledAll_nil, _, zero_unary⟩
  intro a' ha' bound' _
  exact ⟨_, operand_other (by rw [ha']; exact hk)⟩

/-- No loop over operators accepts the tokens ahead, whatever it has read before. -/
def OperatorsRefused (least : Nat) (a : Ahead) : Prop :=
  ∀ bound start left, a.tokens.length ≤ bound →
    Failed (operators (operand bound) a.tokens.length least start left a)

def ClimbRefused (least : Nat) (a : Ahead) : Prop :=
  ∀ bound, a.tokens.length ≤ bound → Failed (climb (operand bound) least a)

/-- The loop over operators fails in front of a token that is out of place, if there are at most
    `n` tokens ahead. -/
def OperatorsFail (bound n : Nat) : Prop :=
  ∀ (least m : Nat) (origin a : Ahead) (left : Expr Location) (us : List Token) (e : SyntaxError),
    a.tokens.length ≤ n → a.tokens.length ≤ bound →
    operators (operand bound) a.tokens.length least origin.here left a = .error e →
    origin.Takes us a → Grammar.Level m (us.map Token.lexeme) left.bare → left.Within us →
    AtMost m a.next.kind → 1 ≤ least → least ≤ m → m ≤ 7 →
    Fails (OperatorsRefused least)
      (fun ws => ∃ f, Grammar.Level least (us.map Token.lexeme ++ ws) f) a e

/-- An expression of a level fails in its first operand or in the loop behind it. -/
theorem climb_fails_of {bound n : Nat} (hoperand : OperandFails bound)
    (hloop : OperatorsFail bound n) {least : Nat} {a : Ahead} {e : SyntaxError}
    (hn : a.tokens.length ≤ n) (hb : a.tokens.length ≤ bound) (h1 : 1 ≤ least) (h7 : least ≤ 7)
    (h : climb (operand bound) least a = .error e) :
    Fails (ClimbRefused least) (fun ws => ∃ f, Grammar.Level least ws f) a e := by
  rcases Except.bind_eq_error h with h | ⟨⟨left, b⟩, hleft, h⟩
  · -- the first operand fails
    refine (hoperand a e hb h).first ?_ ?_
    · intro a' _ hrefused bound' hb'
      exact (hrefused bound' hb').bind
    · rintro ws ⟨f, hf⟩
      exact .of ⟨f, level_mono (.unary hf) h1 h7 (Nat.le_refl _)⟩
  · -- the loop fails behind an operand, which any run over these tokens reads
    obtain ⟨us, hus, hunary, hwithin⟩ := operand_sound bound _ _ _ hleft
    have hlen := hus.length
    refine (hloop least 7 a b left us e (by omega) (by omega) h hus (.unary hunary) hwithin
      (atMost_seven _) h1 h7 (Nat.le_refl _)).after hus ?_ (fun ws hws => .of hws)
    intro a' rest ha' _ hrefused bound' hb'
    obtain ⟨left', b', hop, -, hlex⟩ := unary_complete hunary bound' a' rest ha' hb'
    have hb'' := Ahead.length_tokens_le ha' hlex
    exact .bind_ok hop (hrefused b' hlex bound' _ _ (by omega))

/-- A right part is read again in front of what is not tighter than its operator. -/
theorem climb_complete {p : Nat} {ws : List Lexeme} {f : Expr Unit}
    (h : Grammar.Level (p + 1) ws f) {bound : Nat} {a : Ahead} {rest : List Lexeme}
    (ha : a.lexemes = ws ++ rest) (hb : a.tokens.length ≤ bound)
    (hrest : AtMost p (headKind rest)) :
    ∃ f' b, climb (operand bound) (p + 1) a = .ok (f', b) ∧ b.lexemes = rest := by
  obtain ⟨f', b, -, hlex, hclimb⟩ := level_complete h bound (p + 1) a rest ha hb (Nat.le_refl _)
    (hrest.mono (by omega))
  rw [operators_stop _ (fun q hq => by
    rw [Ahead.next_kind, hlex] at hq
    have := hrest q hq
    omega)] at hclimb
  exact ⟨f', b, hclimb, hlex⟩

/-- The loop over operators is refused where the right part of its first operator is. -/
theorem operatorsRefused_right {least p : Nat} {a : Ahead}
    (hp : precedence? a.next.kind = some p) (hge : least ≤ p)
    (h : ClimbRefused (p + 1) a.advance) : OperatorsRefused least a := by
  intro bound start left hb
  have hlen := advance_length hp
  rw [operators_unfold (operand_sound bound).forward hp hge]
  exact (h bound (by omega)).bind

/-- It is refused as well where it is behind that right part. -/
theorem operatorsRefused_rest {least p : Nat} {a : Ahead}
    (hp : precedence? a.next.kind = some p) (hge : least ≤ p) {ws rest : List Lexeme}
    {f : Expr Unit} (hlevel : Grammar.Level (p + 1) ws f)
    (ha : a.advance.lexemes = ws ++ rest) (hrest : AtMost p (headKind rest))
    (h : ∀ d, Ahead.lexemes d = rest → OperatorsRefused least d) : OperatorsRefused least a := by
  intro bound start left hb
  have hlen := advance_length hp
  have hbound : a.advance.tokens.length ≤ bound := by omega
  obtain ⟨right, d, hclimb, hd⟩ := climb_complete hlevel ha hbound hrest
  have hlend := Ahead.length_tokens_le ha hd
  rw [operators_step (operand_sound bound).forward hp hge hclimb]
  exact h d hd bound _ _ (by omega)

/-- **The loop over operators.**  An operator that is tight enough has been taken, so the failure is
    in its right part, or behind it in the same loop with fewer tokens ahead. -/
theorem operators_fails {bound : Nat} (hoperand : OperandFails bound) :
    ∀ n, OperatorsFail bound n := by
  intro n
  induction n with
  | zero =>
      intro least m origin a left us e hn _ h
      rw [Nat.le_zero.1 hn] at h
      exact absurd h (by simp [operators])
  | succ n ih =>
      intro least m origin a left us e hn hb h htakes hlevel hwithin hmost h1 hm h7
      have hstop : ¬ ∀ p, precedence? a.next.kind = some p → p < least := by
        intro hlow
        rw [operators_stop _ hlow] at h
        exact absurd h (by simp)
      obtain ⟨p, hp, hge⟩ : ∃ p, precedence? a.next.kind = some p ∧ least ≤ p := by
        simpa using hstop
      have hpb := precedence?_bounds hp
      obtain ⟨s, hs, hkind⟩ := (precedence?_eq_some_iff _ _).1 hp
      obtain ⟨hnext, hlex⟩ := Ahead.takes_next hkind (by simp)
      have hlen := advance_length hp
      have hleft := level_mono hlevel (by omega) (hmost p hp) h7
      have hword : [a.next].map Token.lexeme = [⟨.symbol s, a.next.text⟩] := by
        rw [List.map_singleton, hlex]
      -- other tokens that start with the same operator are read in the same way up to behind it
      have hagain : ∀ (a' : Ahead) (rest : List Lexeme),
          a'.lexemes = [a.next].map Token.lexeme ++ rest →
          precedence? a'.next.kind = some p ∧ a'.advance.lexemes = rest := by
        intro a' rest ha'
        rw [hword] at ha'
        obtain ⟨hkind', -, hadv⟩ := Ahead.next_of_lexemes_cons ha'
        rw [hkind', ← hkind]
        exact ⟨hp, hadv⟩
      rw [operators_unfold (operand_sound bound).forward hp hge] at h
      rcases Except.bind_eq_error h with h | ⟨⟨right, d⟩, hright, h⟩
      · -- the right part fails
        refine (climb_fails_of hoperand ih (by omega) (by omega) (by omega) (by omega) h).after
          hnext ?_ ?_
        · intro a' rest ha' _ hrefused
          obtain ⟨hp', hadv⟩ := hagain a' rest ha'
          exact operatorsRefused_right hp' hge (hrefused _ hadv)
        · rintro ws ⟨f, hf⟩
          rw [hword]
          exact .of ⟨_, level_mono (.binary hs hleft hf) h1 hge (by omega)⟩
      · -- the loop fails behind the right part
        obtain ⟨rs, hrs, hrlevel, hrwithin, hafter⟩ := climb_sound (operand_sound bound) (by omega)
          (by omega) hright
        have hlenr := hrs.length
        have hall := htakes.trans (hnext.trans hrs)
        obtain ⟨hbin, hspans⟩ := binary_spans hall hlex hs (by omega) (by omega) hleft hrlevel
          hwithin hrwithin
        refine (ih least p origin d _ _ e (by omega) (by omega) h hall hbin hspans.within
          (by simpa using hafter) h1 hge (by omega)).after (hnext.trans hrs) ?_ ?_
        · intro a' rest ha' hrest hrefused
          rw [List.map_append, List.append_assoc] at ha'
          obtain ⟨hp', hadv⟩ := hagain a' _ ha'
          refine operatorsRefused_rest hp' hge hrlevel hadv ?_ hrefused
          rw [hrest]
          simpa using hafter
        · rintro ws ⟨f, hf⟩
          exact .of ⟨f, by simpa using hf⟩

/-- The failure of an operand with the operators behind it is that of the operand or of a later one.
    -/
theorem climb_fails {bound : Nat} (hoperand : OperandFails bound) {least : Nat} {a : Ahead}
    {e : SyntaxError} (hb : a.tokens.length ≤ bound) (h1 : 1 ≤ least) (h7 : least ≤ 7)
    (h : climb (operand bound) least a = .error e) :
    Fails (ClimbRefused least) (fun ws => ∃ f, Grammar.Level least ws f) a e :=
  climb_fails_of hoperand (operators_fails hoperand _) (Nat.le_refl _) hb h1 h7 h

/-- A numeral beyond the greatest literal stands where the numeral `0` could. -/
theorem number_fails {a : Ahead} {e : SyntaxError} (hk : a.next.kind = .number)
    (h : number a.next = .error e) :
    Fails OperandRefused (fun ws => ∃ f, Grammar.Unary ws f) a e := by
  unfold number at h
  dsimp only at h
  split at h
  next => exact absurd h (by simp)
  next hlarge =>
    injection h with h
    subst h
    refine ⟨[], a, _, _, .refl a, .numeral hk (Nat.lt_of_not_le hlarge),
      .of ⟨_, zero_unary⟩, ?_⟩
    -- the value decides, not the text: every numeral as large is refused here
    rintro a' rest ha' ⟨hkind, hbig⟩ bound hb
    cases rest with
    | nil => exact absurd hkind (by simp [headLexeme, Lexeme.finish])
    | cons w rest =>
        obtain ⟨bound, rfl, -⟩ := exists_bound ha' hb
        obtain ⟨hkind', htext, -⟩ := Ahead.next_of_lexemes_cons ha'
        have hfail : Failed (number a'.next) := by
          unfold number
          rw [htext]
          exact ⟨_, if_neg (Nat.not_le_of_lt hbig)⟩
        unfold operand
        dsimp only
        rw [hkind', show w.kind = .number from hkind]
        exact hfail.bind

/-- Behind a prefix operator an operand fails. -/
theorem sign_fails {bound : Nat} (ih : OperandFails bound) {a : Ahead} {e : SyntaxError}
    {s : Symbol} (hs : s = .bang ∨ s = .minus) (hk : a.next.kind = .symbol s)
    (hb : a.tokens.length ≤ bound + 1) (h : operand bound a.advance = .error e) :
    Fails OperandRefused (fun ws => ∃ f, Grammar.Unary ws f) a e := by
  obtain ⟨hnext, hlex⟩ := Ahead.takes_next hk (by simp)
  have hlen := hnext.length
  rw [List.length_singleton] at hlen
  -- the sign is right, and the failure lies behind it
  refine (ih a.advance e (by omega) h).after hnext ?_ ?_
  · intro a' rest ha' _ hrefused bound' hb'
    rw [List.map_singleton, hlex] at ha'
    obtain ⟨bound', rfl, hbound⟩ := exists_bound ha' hb'
    obtain ⟨hkind, -, hadv⟩ := Ahead.next_of_lexemes_cons ha'
    have hfail := hrefused _ hadv bound' hbound
    unfold operand
    dsimp only
    rcases hs with rfl | rfl <;> rw [hkind] <;> exact hfail.bind
  · rintro ws ⟨f, hf⟩
    rw [List.map_singleton, hlex]
    exact .of ⟨_, .operator hs hf⟩

/-- An operand in parentheses fails inside of them, or where the right one is missing. -/
theorem parens_fails {bound : Nat} (ih : OperandFails bound) {a : Ahead} {e : SyntaxError}
    (hk : a.next.kind = .symbol .leftParen) (hb : a.tokens.length ≤ bound + 1)
    (h : operand (bound + 1) a = .error e) :
    Fails OperandRefused (fun ws => ∃ f, Grammar.Unary ws f) a e := by
  obtain ⟨hnext, hlex⟩ := Ahead.takes_next hk (by simp)
  have hlen := hnext.length
  rw [List.length_singleton] at hlen
  unfold operand at h
  dsimp only at h
  rw [hk] at h
  rcases Except.bind_eq_error h with h | ⟨⟨f, b⟩, hf, h⟩
  · -- the expression inside fails
    refine (climb_fails ih (by omega) (by omega) (by omega) h).after hnext ?_ ?_
    · intro a' rest ha' _ hrefused bound' hb'
      rw [List.map_singleton, hlex] at ha'
      obtain ⟨bound', rfl, hbound⟩ := exists_bound ha' hb'
      obtain ⟨hkind, -, hadv⟩ := Ahead.next_of_lexemes_cons ha'
      have hfail := hrefused _ hadv bound' hbound
      unfold operand
      dsimp only
      rw [hkind]
      exact hfail.bind
    · rintro ws ⟨f, hf⟩
      rw [List.map_singleton, hlex]
      exact ⟨_, spelledAll_ofSymbols [.rightParen], f, .primary (.parens hf)⟩
  rcases Except.bind_eq_error h with h | ⟨⟨t, c⟩, ht, h⟩
  · -- the right parenthesis is missing, in front of a token that is no operator either
    obtain ⟨ts, hts, hlevel, -, hafter⟩ := climb_sound (operand_sound bound) (by omega) (by omega) hf
    refine (symbol_fails h).after (hnext.trans hts) ?_ ?_
    · intro a' rest ha' hrest hrefused bound' hb'
      rw [List.map_append, List.map_singleton, hlex] at ha'
      obtain ⟨bound', rfl, hbound⟩ := exists_bound ha' hb'
      obtain ⟨hkind, -, hadv⟩ := Ahead.next_of_lexemes_cons ha'
      rw [← hrest] at hafter
      obtain ⟨f', b', hclimb, hlex'⟩ := climb_complete (p := 0) hlevel hadv hbound hafter
      unfold operand
      dsimp only
      rw [hkind]
      exact .bind_ok hclimb (hrefused b' hlex').bind
    · rintro ws rfl
      rw [List.map_append, List.map_singleton, hlex]
      exact .of ⟨_, .primary (.parens hlevel)⟩
  · exact absurd h (by simp)

/-- **OPERANDS FAIL AT THE EARLIEST TOKEN**, one case for each token an operand starts with. -/
theorem operand_fails : ∀ bound, OperandFails bound
  | 0, a, e, hb, h => by
      have hother : ¬ StartsOperand a.next.kind := by
        rw [Ahead.next_kind_of_length_le_zero hb]
        decide
      exact other_fails hother h
  | bound + 1, a, e, hb, h => by
      have ih := operand_fails bound
      by_cases hstart : StartsOperand a.next.kind
      · -- the next token starts an operand, so the failure lies within that form
        have hcases := h
        unfold operand at hcases
        dsimp only at hcases
        split at hcases
        next hk =>
          rcases Except.bind_eq_error hcases with hf | ⟨_, _, hf⟩
          · exact sign_fails ih (.inl rfl) hk hb hf
          · exact absurd hf (by simp)
        next hk =>
          rcases Except.bind_eq_error hcases with hf | ⟨_, _, hf⟩
          · exact sign_fails ih (.inr rfl) hk hb hf
          · exact absurd hf (by simp)
        next hk =>
          rcases Except.bind_eq_error hcases with hf | ⟨_, _, hf⟩
          · exact number_fails hk hf
          · exact absurd hf (by simp)
        next => exact absurd hcases (by simp)
        next => exact absurd hcases (by simp)
        next => exact absurd hcases (by simp)
        next => exact absurd hcases (by simp)
        next hk => exact parens_fails ih hk hb h
        next => exact absurd hstart (by simp_all [StartsOperand])
      · exact other_fails hstart h

/-- **An expression fails at the earliest token**: what was taken starts an expression, and no
    expression goes on with the next token. -/
theorem expression_fails {a : Ahead} {e : SyntaxError} (h : expression a = .error e) :
    Fails (fun a' => Failed (expression a')) (fun ws => ∃ f, Grammar.Expression ws f) a e := by
  refine (climb_fails (operand_fails _) (Nat.le_refl _) (by omega) (by omega) h).first ?_
    (fun ws hws => .of hws)
  intro a' _ hrefused
  exact hrefused _ (Nat.le_refl _)

end Parse

end TinyLang
