/-
  TinyLang.Proofs.Parsing.Sound — what the parser reads, the grammar derives.

  Each parser takes some tokens off the tokens ahead, the grammar derives from them what the
  parser gives, and every node of it spans its own tokens among them:

      operand bound a = .ok (e, b)
        →  a.Takes ts b ∧ Unary (ts.map Token.lexeme) e.bare ∧ e.Within ts

  Two facts about the token behind carry the argument.  A loop over operators that are at
  least as tight as `least` stops in front of a looser one, and a statement that is open is
  not followed by `else`.
-/

import TinyLang.Proofs.Parsing.Places

namespace TinyLang

/-- A chain of two computations succeeds when both do. -/
theorem Except.bind_eq_ok {ε α β : Type} {x : Except ε α} {f : α → Except ε β} {r : β}
    (h : (x >>= f) = .ok r) : ∃ a, x = .ok a ∧ f a = .ok r := by
  cases x with
  | error e => exact absurd h (by simp [bind, Except.bind])
  | ok a => exact ⟨a, rfl, h⟩

theorem Except.ok_pair_inj {ε α β : Type} {x x' : α} {y y' : β}
    (h : (Except.ok (x, y) : Except ε (α × β)) = .ok (x', y')) : x = x' ∧ y = y' :=
  Prod.mk.inj (Except.ok.inj h)

/-! ## §1. Taking tokens -/

namespace Ahead

/-- The tokens ahead, without their places. -/
def lexemes (a : Ahead) : List Lexeme := a.tokens.map Token.lexeme

theorem length_lexemes (a : Ahead) : a.lexemes.length = a.tokens.length := by
  simp [lexemes]

/-- The next token and those behind it are the tokens ahead, unless there are none. -/
theorem lexemes_eq_cons {a : Ahead} {kind : Token.Kind} (h : a.next.kind = kind)
    (hk : kind ≠ .endOfInput) : a.lexemes = ⟨kind, a.next.text⟩ :: a.advance.lexemes := by
  obtain ⟨last, tokens, stop⟩ := a
  cases tokens with
  | nil => exact absurd h.symm hk
  | cons t tokens =>
      subst h
      rfl

/-- Where no token is ahead, the next one is the end. -/
theorem next_kind_of_lexemes_nil {a : Ahead} (h : a.lexemes = []) :
    a.next.kind = .endOfInput := by
  obtain ⟨last, tokens, stop⟩ := a
  cases tokens with
  | nil => rfl
  | cons t tokens => simp [lexemes] at h

/-- Where a token is ahead, it is the next one. -/
theorem next_of_lexemes_cons {a : Ahead} {w : Lexeme} {ws : List Lexeme}
    (h : a.lexemes = w :: ws) :
    a.next.kind = w.kind ∧ a.next.text = w.text ∧ a.advance.lexemes = ws := by
  obtain ⟨last, tokens, stop⟩ := a
  cases tokens with
  | nil => simp [lexemes] at h
  | cons t tokens =>
      simp only [lexemes, List.map_cons, List.cons.injEq] at h
      obtain ⟨rfl, rfl⟩ := h
      exact ⟨rfl, rfl, rfl⟩

/-- With no token ahead the next one is the end of the input. -/
theorem next_kind_of_length_le_zero {a : Ahead} (h : a.tokens.length ≤ 0) :
    a.next.kind = .endOfInput := by
  refine next_kind_of_lexemes_nil ?_
  rw [← List.length_eq_zero_iff, length_lexemes]
  omega

/-- Taking some tokens leads from one point of a text to another. -/
structure Takes (a : Ahead) (ts : List Token) (b : Ahead) : Prop where
  tokens : a.tokens = ts ++ b.tokens
  stop : b.stop = a.stop
  last : b.last = Token.endOf a.last ts

theorem Takes.refl (a : Ahead) : a.Takes [] a := ⟨rfl, rfl, rfl⟩

/-- Tokens that are taken one after the other are taken together. -/
theorem Takes.trans {a b c : Ahead} {ts us : List Token} (hab : a.Takes ts b)
    (hbc : b.Takes us c) : a.Takes (ts ++ us) c where
  tokens := by rw [hab.tokens, hbc.tokens, List.append_assoc]
  stop := hbc.stop.trans hab.stop
  last := by rw [Token.endOf_append, hbc.last, hab.last]

/-- What is taken comes off the front. -/
theorem Takes.lexemes {a b : Ahead} {ts : List Token} (h : a.Takes ts b) :
    a.lexemes = ts.map Token.lexeme ++ b.lexemes := by
  unfold Ahead.lexemes
  rw [h.tokens, List.map_append]

theorem Takes.length {a b : Ahead} {ts : List Token} (h : a.Takes ts b) :
    a.tokens.length = ts.length + b.tokens.length := by
  rw [h.tokens, List.length_append]

/-- The next token can be taken, unless it is the end. -/
theorem takes_next {a : Ahead} {kind : Token.Kind} (h : a.next.kind = kind)
    (hk : kind ≠ .endOfInput) :
    a.Takes [a.next] a.advance ∧ a.next.lexeme = ⟨kind, a.next.text⟩ := by
  obtain ⟨last, tokens, stop⟩ := a
  cases tokens with
  | nil => exact absurd h.symm hk
  | cons t tokens =>
      subst h
      exact ⟨⟨rfl, rfl, rfl⟩, rfl⟩

/-- The range from where a parser started to where it stopped is that of the tokens it took. -/
theorem Takes.marks {a b : Ahead} {ts : List Token} (h : a.Takes ts b) (hne : ts ≠ []) :
    Marks ⟨a.here, b.last⟩ ts := by
  refine ⟨hne, ?_⟩
  cases ts with
  | nil => exact absurd rfl hne
  | cons t ts =>
      have hhere : a.here = t.place.start := by
        unfold Ahead.here Ahead.next
        rw [h.tokens]
        rfl
      rw [hhere, h.last]
      rfl

end Ahead

namespace Parse

/-- The parser took a token of the kind it asked for. -/
theorem expect_eq_ok {kind : Token.Kind} {a b : Ahead} {t : Token}
    (h : expect kind a = .ok (t, b)) : a.next.kind = kind ∧ t = a.next ∧ b = a.advance := by
  unfold expect at h
  split at h
  next hk =>
    injection h with h
    injection h with ht hb
    exact ⟨hk, ht.symm, hb.symm⟩
  next => exact absurd h (by simp)

/-- A token of the kind that was asked for stands in front of what remains. -/
theorem expect_takes {kind : Token.Kind} {a b : Ahead} {t : Token}
    (h : expect kind a = .ok (t, b)) (hk : kind ≠ .endOfInput) :
    a.Takes [t] b ∧ t.lexeme = ⟨kind, t.text⟩ := by
  obtain ⟨hn, rfl, rfl⟩ := expect_eq_ok h
  exact Ahead.takes_next hn hk

/-- An expression of a level is one of every looser level. -/
theorem level_mono {n m : Nat} {ws : List Lexeme} {e : Expr Unit} (h : Grammar.Level m ws e)
    (hn : 1 ≤ n) (hnm : n ≤ m) (hm : m ≤ 7) : Grammar.Level n ws e := by
  obtain ⟨k, rfl⟩ := Nat.exists_eq_add_of_le hnm
  induction k with
  | zero => exact h
  | succ k ih => exact ih (Grammar.Level.tighter (by omega) (by omega) h) (by omega) (by omega)

/-- A name spans its one token. -/
theorem name_spans {x : Identifier Location} {t : Token} (hnote : x.note = t.place)
    (hlex : t.lexeme = ⟨.identifier, x.name⟩) : (Expr.name x).Spans [t] := by
  refine ⟨?_, ?_⟩
  · show Marks x.note [t]
    rw [hnote]
    exact marks_token t
  · rw [List.map_singleton, hlex]
    exact level_mono (.unary (.primary .name)) (by omega) (by omega) (by omega)

/-- A name that is read is a single token, and its place is the token's. -/
theorem identifier_sound {a b : Ahead} {x : Identifier Location}
    (h : identifier a = .ok (x, b)) :
    ∃ t, a.Takes [t] b ∧ t.lexeme = ⟨.identifier, x.name⟩ ∧ (Expr.name x).Spans [t] := by
  obtain ⟨⟨t, c⟩, ht, h⟩ := Except.bind_eq_ok h
  obtain ⟨rfl, rfl⟩ := Except.ok_pair_inj h
  obtain ⟨htakes, hlex⟩ := expect_takes ht (by simp)
  refine ⟨t, htakes, hlex, name_spans ?_ hlex⟩
  exact (htakes.marks (by simp)).range

/-! ## §2. Expressions -/

/-- The table of precedences holds the operators of each level. -/
theorem precedence?_eq_some_iff (kind : Token.Kind) (n : Nat) :
    precedence? kind = some n ↔ ∃ s ∈ Grammar.operatorsOf n, kind = .symbol s := by
  constructor
  · intro h
    unfold precedence? at h
    split at h <;> first
      | (injection h with h; subst h; exact ⟨_, by decide, rfl⟩)
      | exact absurd h (by simp)
  · rintro ⟨s, hs, rfl⟩
    unfold Grammar.operatorsOf at hs
    split at hs <;> simp only [List.mem_cons, List.not_mem_nil, or_false] at hs
    · subst hs; rfl
    · subst hs; rfl
    · rcases hs with rfl | rfl <;> rfl
    · rcases hs with rfl | rfl | rfl | rfl <;> rfl
    · rcases hs with rfl | rfl <;> rfl
    · rcases hs with rfl | rfl | rfl <;> rfl

/-- Operators have the precedences 1 to 6. -/
theorem precedence?_bounds {kind : Token.Kind} {n : Nat} (h : precedence? kind = some n) :
    1 ≤ n ∧ n ≤ 6 := by
  unfold precedence? at h
  split at h <;> simp at h <;> omega

/-- Every operator ahead is at most as tight as `n`. -/
def AtMost (n : Nat) (kind : Token.Kind) : Prop := ∀ p, precedence? kind = some p → p ≤ n

theorem atMost_seven (kind : Token.Kind) : AtMost 7 kind := by
  intro p hp
  have := (precedence?_bounds hp).2
  omega

/-- A parser of operands gives what the grammar derives as one. -/
def SoundOperand (operand : Parse (Expr Location)) : Prop :=
  ∀ a e b, operand a = .ok (e, b) →
    ∃ ts, a.Takes ts b ∧ Grammar.Unary (ts.map Token.lexeme) e.bare ∧ e.Within ts

/-- What an operator makes of the operands around it, the left one starting at `origin`. -/
theorem binary_spans {origin d : Ahead} {us vs : List Token} {t : Token} {s : Symbol} {p : Nat}
    {left right : Expr Location} (htakes : origin.Takes (us ++ t :: vs) d)
    (ht : t.lexeme = ⟨.symbol s, t.text⟩) (hs : s ∈ Grammar.operatorsOf p) (h1 : 1 ≤ p) (h6 : p ≤ 6)
    (hl : Grammar.Level p (us.map Token.lexeme) left.bare)
    (hr : Grammar.Level (p + 1) (vs.map Token.lexeme) right.bare)
    (hleft : left.Within us) (hright : right.Within vs) :
    Grammar.Level p ((us ++ t :: vs).map Token.lexeme)
        (Expr.binary ⟨origin.here, d.last⟩ t.text left right).bare ∧
      (Expr.binary ⟨origin.here, d.last⟩ t.text left right).Spans (us ++ t :: vs) := by
  have hlevel : Grammar.Level p ((us ++ t :: vs).map Token.lexeme)
      (Expr.binary ⟨origin.here, d.last⟩ t.text left right).bare := by
    rw [List.map_append, List.map_cons, ht]
    exact .binary hs hl hr
  refine ⟨hlevel, ⟨htakes.marks (by simp), level_mono hlevel (by omega) (by omega) (by omega)⟩,
    hleft.mono (List.prefix_append _ _).isInfix, hright.mono ?_⟩
  exact ((List.suffix_cons t vs).trans (List.suffix_append us _)).isInfix

/-- **One loop over operators of all levels derives what the levels derive.**  What has been read
    so far is of a level `m` that no operator ahead exceeds; each operator taken makes it of that
    operator's level, since the loop for its right part stopped in front of looser ones only. -/
theorem operators_sound {operand : Parse (Expr Location)} (ho : SoundOperand operand) :
    ∀ (bound least m : Nat) (origin a b : Ahead) (left e : Expr Location) (us : List Token),
      operators operand bound least origin.here left a = .ok (e, b) →
      a.tokens.length ≤ bound → origin.Takes us a →
      Grammar.Level m (us.map Token.lexeme) left.bare → left.Within us → AtMost m a.next.kind →
      1 ≤ least → least ≤ m → m ≤ 7 →
      ∃ ws, a.Takes ws b ∧ Grammar.Level least ((us ++ ws).map Token.lexeme) e.bare ∧
        e.Within (us ++ ws) ∧ AtMost (least - 1) b.next.kind := by
  intro bound
  induction bound with
  | zero =>
      intro least m origin a b left e us h hb htakes hl hw ha h1 hm h7
      obtain ⟨rfl, rfl⟩ := Except.ok_pair_inj h
      have hend := Ahead.next_kind_of_length_le_zero hb
      refine ⟨[], .refl a, by simpa using level_mono hl h1 hm h7, by simpa using hw, ?_⟩
      intro p hp
      rw [hend] at hp
      exact absurd hp (by simp [precedence?])
  | succ bound ih =>
      intro least m origin a b left e us h hb htakes hl hw ha h1 hm h7
      have hstop : (∀ p, precedence? a.next.kind = some p → p < least) →
          (left, a) = (e, b) → ∃ ws, a.Takes ws b ∧
            Grammar.Level least ((us ++ ws).map Token.lexeme) e.bare ∧ e.Within (us ++ ws) ∧
            AtMost (least - 1) b.next.kind := by
        intro hlow heq
        injection heq with he hab
        subst he hab
        refine ⟨[], .refl a, by simpa using level_mono hl h1 hm h7, by simpa using hw, ?_⟩
        intro p hp
        have := hlow p hp
        omega
      unfold operators at h
      split at h
      next p hp =>
        split at h
        next hlt =>
          injection h with h
          exact hstop (fun q hq => by rw [hp] at hq; injection hq with hq; omega) h
        next hge =>
          obtain ⟨⟨first, c⟩, hfirst, h⟩ := Except.bind_eq_ok h
          obtain ⟨⟨right, d⟩, hright, h⟩ := Except.bind_eq_ok h
          have hpb := precedence?_bounds hp
          obtain ⟨s, hs, hkind⟩ := (precedence?_eq_some_iff _ _).1 hp
          obtain ⟨hnext, hlex⟩ := Ahead.takes_next hkind (by simp)
          obtain ⟨fs, hfs, hunary, hwf⟩ := ho _ _ _ hfirst
          have hlen := hnext.length
          have hlenf := hfs.length
          rw [List.length_singleton] at hlen
          -- the right part: operators tighter than `p`
          obtain ⟨rs, hrs, hrlevel, hwr, hafter⟩ := ih (p + 1) 7 a.advance c d first right fs hright
            (by omega) hfs (.unary hunary) hwf (atMost_seven _) (by omega) (by omega) (by omega)
          have hlenr := hrs.length
          have htaken : origin.Takes (us ++ a.next :: (fs ++ rs)) d :=
            htakes.trans (hnext.trans (hfs.trans hrs))
          have hleft := level_mono hl (by omega) (ha p hp) h7
          obtain ⟨hbin, hspans⟩ := binary_spans htaken hlex hs (by omega) (by omega) hleft hrlevel
            hw hwr
          obtain ⟨ws, hws, hlevel, hwithin, hlast⟩ := ih least p origin d b _ e _ h (by omega) htaken
            hbin hspans.within (by simpa using hafter) h1 (by omega) (by omega)
          refine ⟨a.next :: (fs ++ rs ++ ws), ?_, ?_, ?_, hlast⟩
          · exact hnext.trans ((hfs.trans hrs).trans hws)
          · simpa using hlevel
          · simpa using hwithin
      next hp =>
        injection h with h
        exact hstop (fun q hq => by rw [hp] at hq; exact absurd hq (by simp)) h

/-- An operand with operators of a least precedence is derived on that level, and what follows it
    binds more loosely. -/
theorem climb_sound {operand : Parse (Expr Location)} (ho : SoundOperand operand) {least : Nat}
    {a b : Ahead} {e : Expr Location} (h1 : 1 ≤ least) (h7 : least ≤ 7)
    (h : climb operand least a = .ok (e, b)) :
    ∃ ts, a.Takes ts b ∧ Grammar.Level least (ts.map Token.lexeme) e.bare ∧ e.Within ts ∧
      AtMost (least - 1) b.next.kind := by
  obtain ⟨⟨left, c⟩, hleft, h⟩ := Except.bind_eq_ok h
  obtain ⟨us, hus, hunary, hwl⟩ := ho _ _ _ hleft
  obtain ⟨ws, hws, hlevel, hwithin, hafter⟩ := operators_sound ho _ least 7 a c b left e us h
    (Nat.le_refl _) hus (.unary hunary) hwl (atMost_seven _) h1 h7 (Nat.le_refl _)
  exact ⟨us ++ ws, hus.trans hws, hlevel, hwithin, hafter⟩

/-- A number is derived from its numeral, if the numeral is not too large. -/
theorem number_sound {t : Token} {e : Expr Location} (h : number t = .ok e) :
    ∃ value, e = .literal t.place value ∧
      Grammar.Primary [⟨.number, t.text⟩] (.literal () value) := by
  unfold number at h
  dsimp only at h
  split at h
  next hle =>
    injection h with h
    exact ⟨_, h.symm, Grammar.Primary.number hle⟩
  next => exact absurd h (by simp)

/-- A single token that derives a primary expression. -/
theorem token_sound {a b : Ahead} {kind : Token.Kind} {e e' : Expr Location}
    (hk : a.next.kind = kind) (hne : kind ≠ .endOfInput)
    (hp : Grammar.Primary [⟨kind, a.next.text⟩] e.bare)
    (hs : e.Owns [a.next] → e.Spans [a.next]) (hnote : e.note = a.next.place)
    (h : (Except.ok (e, a.advance) : Except SyntaxError _) = .ok (e', b)) :
    ∃ ts, a.Takes ts b ∧ Grammar.Unary (ts.map Token.lexeme) e'.bare ∧ e'.Within ts := by
  obtain ⟨rfl, rfl⟩ := Except.ok_pair_inj h
  obtain ⟨htakes, hlex⟩ := Ahead.takes_next hk hne
  have hunary : Grammar.Unary ([a.next].map Token.lexeme) e.bare := by
    rw [List.map_singleton, hlex]
    exact .primary hp
  refine ⟨[a.next], htakes, hunary, (hs ⟨?_, ?_⟩).within⟩
  · rw [hnote]
    exact marks_token a.next
  · exact level_mono (.unary hunary) (by omega) (by omega) (by omega)

/-- A prefix operator in front of an operand. -/
theorem sign_sound {operand : Parse (Expr Location)} (ho : SoundOperand operand) {a b : Ahead}
    {e : Expr Location} {s : Symbol} (hs : s = .bang ∨ s = .minus) (hk : a.next.kind = .symbol s)
    (h : (do
      let (f, c) ← operand a.advance
      .ok (.unary ⟨a.here, c.last⟩ a.next.text f, c) :
        Except SyntaxError (Expr Location × Ahead)) = .ok (e, b)) :
    ∃ ts, a.Takes ts b ∧ Grammar.Unary (ts.map Token.lexeme) e.bare ∧ e.Within ts := by
  obtain ⟨⟨f, c⟩, hf, h⟩ := Except.bind_eq_ok h
  obtain ⟨rfl, rfl⟩ := Except.ok_pair_inj h
  obtain ⟨htakes, hlex⟩ := Ahead.takes_next hk (by simp)
  obtain ⟨ts, hts, hunary, hwithin⟩ := ho _ _ _ hf
  have hall : a.Takes (a.next :: ts) c := htakes.trans hts
  have hsign : Grammar.Unary ((a.next :: ts).map Token.lexeme)
      (Expr.unary ⟨a.here, c.last⟩ a.next.text f).bare := by
    rw [List.map_cons, hlex]
    exact .operator hs hunary
  refine ⟨a.next :: ts, hall, hsign, Expr.Spans.within ⟨⟨hall.marks (by simp), ?_⟩, ?_⟩⟩
  · -- an expression with a sign is one of the loosest level as well
    exact level_mono (.unary hsign) (by omega) (by omega) (by omega)
  · exact hwithin.mono (List.suffix_cons _ _).isInfix

/-- A test or an operand in parentheses, which are tokens of neither. -/
theorem parens_takes {a b c d : Ahead} {t u : Token} {ts : List Token} {e : Expr Location}
    (ht : a.Takes [t] b) (hts : b.Takes ts c) (hu : c.Takes [u] d) (hwithin : e.Within ts) :
    a.Takes (t :: ts ++ [u]) d ∧ e.Within (t :: ts ++ [u]) := by
  refine ⟨(ht.trans hts).trans hu, hwithin.mono ?_⟩
  exact ⟨[t], [u], rfl⟩

/-- Operands are derived as such, whatever the bound. -/
theorem operand_sound : ∀ bound : Nat, SoundOperand (operand bound)
  | 0, a, e, b, h => absurd h (by simp [operand])
  | bound + 1, a, e, b, h => by
      have ih := operand_sound bound
      unfold operand at h
      dsimp only at h
      split at h
      next hk => exact sign_sound ih (.inl rfl) hk h
      next hk => exact sign_sound ih (.inr rfl) hk h
      next hk =>
        obtain ⟨f, hf, h⟩ := Except.bind_eq_ok h
        obtain ⟨value, rfl, hp⟩ := number_sound hf
        exact token_sound (e := .literal _ value) hk (by simp) hp id rfl h
      next hk => exact token_sound hk (by simp) Grammar.Primary.true id rfl h
      next hk => exact token_sound hk (by simp) Grammar.Primary.false id rfl h
      next hk => exact token_sound hk (by simp) Grammar.Primary.read id rfl h
      next hk => exact token_sound hk (by simp) Grammar.Primary.name id rfl h
      next hk =>
        obtain ⟨⟨f, c⟩, hf, h⟩ := Except.bind_eq_ok h
        obtain ⟨⟨t, d⟩, ht, h⟩ := Except.bind_eq_ok h
        obtain ⟨rfl, rfl⟩ := Except.ok_pair_inj h
        obtain ⟨ts, hts, hlevel, hwithin, -⟩ := climb_sound ih (by omega) (by omega) hf
        obtain ⟨hleft, hlexl⟩ := Ahead.takes_next hk (by simp)
        obtain ⟨hright, hlexr⟩ := expect_takes ht (by simp)
        -- the place of the inner expression lies within the parentheses, which have no node of
        -- their own
        obtain ⟨htakes, hwithin'⟩ := parens_takes hleft hts hright hwithin
        refine ⟨_, htakes, ?_, hwithin'⟩
        rw [List.map_append, List.map_cons, List.map_singleton, hlexl, hlexr]
        exact .primary (.parens hlevel)
      next => exact absurd h (by simp)

/-- **What is read as an expression is derived from the tokens taken**, and no operator follows it.
    -/
theorem expression_sound {a b : Ahead} {e : Expr Location} (h : expression a = .ok (e, b)) :
    ∃ ts, a.Takes ts b ∧ Grammar.Expression (ts.map Token.lexeme) e.bare ∧ e.Within ts ∧
      precedence? b.next.kind = none := by
  obtain ⟨ts, hts, hlevel, hwithin, hafter⟩ := climb_sound (operand_sound _) (by omega) (by omega) h
  refine ⟨ts, hts, hlevel, hwithin, ?_⟩
  cases hp : precedence? b.next.kind with
  | none => rfl
  | some p =>
      have := hafter p hp
      have := (precedence?_bounds hp).1
      omega

/-! ## §3. Statements -/

/-- A test that is read has its parentheses among its tokens. -/
theorem test_sound {a b : Ahead} {e : Expr Location} (h : test a = .ok (e, b)) :
    ∃ ts, a.Takes ts b ∧ Grammar.Test (ts.map Token.lexeme) e.bare ∧ e.Within ts := by
  obtain ⟨⟨t, c⟩, ht, h⟩ := Except.bind_eq_ok h
  obtain ⟨⟨f, d⟩, hf, h⟩ := Except.bind_eq_ok h
  obtain ⟨⟨u, b'⟩, hu, h⟩ := Except.bind_eq_ok h
  obtain ⟨rfl, rfl⟩ := Except.ok_pair_inj h
  obtain ⟨ts, hts, hexpr, hwithin, -⟩ := expression_sound hf
  obtain ⟨hleft, hlexl⟩ := expect_takes ht (by simp)
  obtain ⟨hright, hlexr⟩ := expect_takes hu (by simp)
  obtain ⟨htakes, hwithin'⟩ := parens_takes hleft hts hright hwithin
  refine ⟨_, htakes, ?_, hwithin'⟩
  rw [List.map_append, List.map_cons, List.map_singleton, hlexl, hlexr]
  exact .parens hexpr

/-- A parser of statements gives what the grammar derives as one, and does not stop in front of an
    `else` that the statement could take. -/
def SoundStatement (statement : Parse (Stmt Location)) : Prop :=
  ∀ a s b, statement a = .ok (s, b) →
    ∃ isOpen ts, a.Takes ts b ∧ Grammar.Statement isOpen (ts.map Token.lexeme) s.bare ∧
      s.Spans ts ∧ (isOpen = true → b.next.kind ≠ .keyword .elseKw)

/-- Statements that are read are derived from the tokens up to the closing brace. -/
theorem statements_sound {statement : Parse (Stmt Location)} (hs : SoundStatement statement) :
    ∀ (bound : Nat) (a b : Ahead) (body : List (Stmt Location)),
      statements statement bound a = .ok (body, b) →
      ∃ ts t, a.Takes (ts ++ [t]) b ∧ t.lexeme = ⟨.symbol .rightBrace, t.text⟩ ∧
        Grammar.Statements (ts.map Token.lexeme) (Stmt.bares body) ∧ Stmt.SpansAll body ts := by
  intro bound
  induction bound with
  | zero => intro a b body h; exact absurd h (by simp [statements])
  | succ bound ih =>
      intro a b body h
      unfold statements at h
      split at h
      next hk =>
        obtain ⟨rfl, rfl⟩ := Except.ok_pair_inj h
        obtain ⟨htakes, hlex⟩ := Ahead.takes_next hk (by simp)
        exact ⟨[], a.next, htakes, hlex, .nil, trivial⟩
      next => exact absurd h (by simp)
      next =>
        obtain ⟨⟨s, c⟩, hsc, h⟩ := Except.bind_eq_ok h
        obtain ⟨⟨more, d⟩, hmore, h⟩ := Except.bind_eq_ok h
        obtain ⟨rfl, rfl⟩ := Except.ok_pair_inj h
        -- each statement spans its own tokens, and those of the next follow
        obtain ⟨isOpen, us, hus, hstmt, hspans, -⟩ := hs _ _ _ hsc
        obtain ⟨ts, t, hts, hlex, hbody, hall⟩ := ih _ _ _ hmore
        refine ⟨us ++ ts, t, ?_, hlex, ?_, us, ts, rfl, hspans, hall⟩
        · rw [List.append_assoc]
          exact hus.trans hts
        · rw [List.map_append]
          exact .cons hstmt hbody

/-- A block that is read has both its braces among its tokens. -/
theorem block_sound {statement : Parse (Stmt Location)} (hs : SoundStatement statement)
    {a b : Ahead} {s : Stmt Location} (h : block statement a = .ok (s, b)) :
    ∃ ts, a.Takes ts b ∧ Grammar.Block (ts.map Token.lexeme) s.bare ∧ s.Spans ts := by
  obtain ⟨⟨t, c⟩, ht, h⟩ := Except.bind_eq_ok h
  obtain ⟨⟨body, d⟩, hbody, h⟩ := Except.bind_eq_ok h
  obtain ⟨rfl, rfl⟩ := Except.ok_pair_inj h
  obtain ⟨hleft, hlexl⟩ := expect_takes ht (by simp)
  obtain ⟨ts, u, hts, hlexr, hstmts, hall⟩ := statements_sound hs _ _ _ _ hbody
  have htakes : a.Takes (t :: ts ++ [u]) d := hleft.trans hts
  have hblock : Grammar.Block ((t :: ts ++ [u]).map Token.lexeme)
      (Stmt.block ⟨a.here, d.last⟩ body).bare := by
    rw [List.map_append, List.map_cons, List.map_singleton, hlexl, hlexr]
    exact .braces hstmts
  -- a block is closed: no `else` behind it could be its own
  refine ⟨_, htakes, hblock, ⟨htakes.marks (by simp), false, .block hblock⟩, ts, ?_, hall⟩
  exact ⟨[t], [u], rfl⟩

/-- A branch that is read and still open is not followed by an `else`. -/
theorem branch_sound {statement : Parse (Stmt Location)} (hs : SoundStatement statement)
    {a b : Ahead} {s : Option (Stmt Location)} (h : branch statement a = .ok (s, b)) :
    ∃ isOpen ts, a.Takes ts b ∧ Grammar.Branch isOpen (ts.map Token.lexeme) (Stmt.bare? s) ∧
      Stmt.WithinBranch s ts ∧ (isOpen = true → b.next.kind ≠ .keyword .elseKw) := by
  unfold branch at h
  split at h
  next hk =>
    obtain ⟨rfl, rfl⟩ := Except.ok_pair_inj h
    obtain ⟨htakes, hlex⟩ := Ahead.takes_next hk (by simp)
    -- a semicolon stands for no statement
    refine ⟨false, [a.next], htakes, ?_, trivial, by simp⟩
    rw [List.map_singleton, hlex]
    exact .absent
  next =>
    obtain ⟨⟨t, c⟩, ht, h⟩ := Except.bind_eq_ok h
    obtain ⟨rfl, rfl⟩ := Except.ok_pair_inj h
    obtain ⟨isOpen, ts, hts, hstmt, hspans, hnext⟩ := hs _ _ _ ht
    exact ⟨isOpen, ts, hts, .present hstmt, ⟨ts, List.infix_rfl, hspans⟩, hnext⟩

/-- A choice: its word, the test, the branch, and what an `else` adds. -/
theorem choice_sound {statement : Parse (Stmt Location)} (hs : SoundStatement statement)
    {origin a b c d : Ahead} {e : Expr Location} {s t : Option (Stmt Location)} {word : Token}
    (hword : origin.Takes [word] a) (hlex : word.lexeme = ⟨.keyword .ifKw, word.text⟩)
    (he : test a = .ok (e, b)) (hb : branch statement b = .ok (s, c))
    (ha : alternate statement c = .ok (t, d)) :
    ∃ isOpen ts, origin.Takes ts d ∧
      Grammar.Statement isOpen (ts.map Token.lexeme)
        (Stmt.choice ⟨origin.here, d.last⟩ e s t).bare ∧
      (Stmt.choice ⟨origin.here, d.last⟩ e s t).Spans ts ∧
      (isOpen = true → d.next.kind ≠ .keyword .elseKw) := by
  obtain ⟨us, hus, htest, hwe⟩ := test_sound he
  obtain ⟨isOpen, vs, hvs, hbranch, hws, hnext⟩ := branch_sound hs hb
  unfold alternate at ha
  split at ha
  next hk =>
    obtain ⟨helse, hlexElse⟩ := Ahead.takes_next hk (by simp)
    obtain ⟨isOpen', xs, hxs, hbranch', hwt, hnext'⟩ := branch_sound hs ha
    -- an open branch is not followed by `else`, so this one is closed
    have hclosed : isOpen = false := by
      cases isOpen with
      | false => rfl
      | true => exact absurd hk (hnext rfl)
    subst hclosed
    have htakes : origin.Takes (word :: us ++ vs ++ c.next :: xs) d :=
      ((hword.trans hus).trans hvs).trans (helse.trans hxs)
    have hstmt : Grammar.Statement isOpen' ((word :: us ++ vs ++ c.next :: xs).map Token.lexeme)
        (Stmt.choice ⟨origin.here, d.last⟩ e s t).bare := by
      rw [List.map_append, List.map_append, List.map_cons, List.map_cons, hlex, hlexElse]
      exact .choiceElse htest hbranch hbranch'
    refine ⟨isOpen', _, htakes, hstmt, ⟨⟨htakes.marks (by simp), isOpen', hstmt⟩,
      hwe.mono ?_, hws.mono ?_, hwt.mono ?_⟩, hnext'⟩
    · exact ⟨[word], vs ++ c.next :: xs, by simp⟩
    · exact ⟨word :: us, c.next :: xs, by simp⟩
    · exact ⟨word :: us ++ vs ++ [c.next], [], by simp⟩
  next hk =>
    obtain ⟨rfl, rfl⟩ := Except.ok_pair_inj ha
    have htakes : origin.Takes (word :: us ++ vs) c := (hword.trans hus).trans hvs
    have hstmt : Grammar.Statement true ((word :: us ++ vs).map Token.lexeme)
        (Stmt.choice ⟨origin.here, c.last⟩ e s none).bare := by
      rw [List.map_append, List.map_cons, hlex]
      exact .choice htest hbranch
    refine ⟨true, _, htakes, hstmt, ⟨⟨htakes.marks (by simp), true, hstmt⟩,
      hwe.mono ?_, hws.mono ?_, trivial⟩, fun _ => hk⟩
    · exact ⟨[word], vs, by simp⟩
    · exact ⟨word :: us, [], by simp⟩

/-- Statements are derived as such, whatever the bound. -/
theorem statement_sound : ∀ bound : Nat, SoundStatement (statement bound)
  | 0, a, s, b, h => absurd h (by simp [statement])
  | bound + 1, a, s, b, h => by
      have ih := statement_sound bound
      unfold statement at h
      split at h
      next hk =>
        -- a block
        obtain ⟨ts, hts, hblock, hspans⟩ := block_sound ih h
        exact ⟨false, ts, hts, .block hblock, hspans, by simp⟩
      next hk =>
        -- an assignment
        obtain ⟨⟨x, b₁⟩, hx, h⟩ := Except.bind_eq_ok h
        obtain ⟨⟨t, b₂⟩, ht, h⟩ := Except.bind_eq_ok h
        obtain ⟨⟨e, b₃⟩, he, h⟩ := Except.bind_eq_ok h
        obtain ⟨⟨u, b₄⟩, hu, h⟩ := Except.bind_eq_ok h
        obtain ⟨rfl, rfl⟩ := Except.ok_pair_inj h
        obtain ⟨n, hn, hlexn, hname⟩ := identifier_sound hx
        obtain ⟨heq, hlexe⟩ := expect_takes ht (by simp)
        obtain ⟨es, hes, hexpr, hwithin, -⟩ := expression_sound he
        obtain ⟨hstop, hlexs⟩ := expect_takes hu (by simp)
        have htakes : a.Takes (n :: t :: es ++ [u]) b₄ := ((hn.trans heq).trans hes).trans hstop
        have hstmt : Grammar.Statement false ((n :: t :: es ++ [u]).map Token.lexeme)
            (Stmt.assign ⟨a.here, b₄.last⟩ x e).bare := by
          rw [List.map_append, List.map_cons, List.map_cons, List.map_singleton, hlexn, hlexe, hlexs]
          exact .assign hexpr
        refine ⟨false, _, htakes, hstmt, ⟨⟨htakes.marks (by simp), false, hstmt⟩,
          hname.within.mono ?_, hwithin.mono ?_⟩, by simp⟩
        · exact ⟨[], t :: es ++ [u], rfl⟩
        · exact ⟨[n, t], [u], rfl⟩
      next hk =>
        -- an output
        obtain ⟨⟨e, b₁⟩, he, h⟩ := Except.bind_eq_ok h
        obtain ⟨⟨u, b₂⟩, hu, h⟩ := Except.bind_eq_ok h
        obtain ⟨rfl, rfl⟩ := Except.ok_pair_inj h
        obtain ⟨hword, hlexw⟩ := Ahead.takes_next hk (by simp)
        obtain ⟨es, hes, hexpr, hwithin, -⟩ := expression_sound he
        obtain ⟨hstop, hlexs⟩ := expect_takes hu (by simp)
        have htakes : a.Takes (a.next :: es ++ [u]) b₂ := (hword.trans hes).trans hstop
        have hstmt : Grammar.Statement false ((a.next :: es ++ [u]).map Token.lexeme)
            (Stmt.output ⟨a.here, b₂.last⟩ e).bare := by
          rw [List.map_append, List.map_cons, List.map_singleton, hlexw, hlexs]
          exact .output hexpr
        refine ⟨false, _, htakes, hstmt, ⟨⟨htakes.marks (by simp), false, hstmt⟩,
          hwithin.mono ?_⟩, by simp⟩
        exact ⟨[a.next], [u], rfl⟩
      next hk =>
        -- a loop, open if its body is
        obtain ⟨⟨e, b₁⟩, he, h⟩ := Except.bind_eq_ok h
        obtain ⟨⟨t, b₂⟩, ht, h⟩ := Except.bind_eq_ok h
        obtain ⟨rfl, rfl⟩ := Except.ok_pair_inj h
        obtain ⟨hword, hlexw⟩ := Ahead.takes_next hk (by simp)
        obtain ⟨us, hus, htest, hwithin⟩ := test_sound he
        obtain ⟨isOpen, vs, hvs, hbody, hspans, hnext⟩ := ih _ _ _ ht
        have htakes : a.Takes (a.next :: us ++ vs) b₂ := (hword.trans hus).trans hvs
        have hstmt : Grammar.Statement isOpen ((a.next :: us ++ vs).map Token.lexeme)
            (Stmt.loop ⟨a.here, b₂.last⟩ e t).bare := by
          rw [List.map_append, List.map_cons, hlexw]
          exact .loop htest hbody
        refine ⟨isOpen, _, htakes, hstmt, ⟨⟨htakes.marks (by simp), isOpen, hstmt⟩,
          hwithin.mono ?_, vs, ?_, hspans⟩, hnext⟩
        · exact ⟨[a.next], vs, rfl⟩
        · exact (List.suffix_append _ _).isInfix
      next hk =>
        -- a choice
        obtain ⟨⟨e, b₁⟩, he, h⟩ := Except.bind_eq_ok h
        obtain ⟨⟨s', b₂⟩, hs', h⟩ := Except.bind_eq_ok h
        obtain ⟨⟨t, b₃⟩, ht, h⟩ := Except.bind_eq_ok h
        obtain ⟨rfl, rfl⟩ := Except.ok_pair_inj h
        obtain ⟨hword, hlexw⟩ := Ahead.takes_next hk (by simp)
        exact choice_sound ih hword hlexw he hs' ht
      next => exact absurd h (by simp)

/-! ## §4. Programs -/

/-- Each name that is read stands behind a comma. -/
theorem moreNames_sound : ∀ (bound : Nat) (a b : Ahead) (names : List (Identifier Location)),
    moreNames bound a = .ok (names, b) →
    ∃ ts, a.Takes ts b ∧ Grammar.MoreNames (ts.map Token.lexeme) (names.map Identifier.bare) ∧
      InOrder (fun x => (Expr.name x).Spans) names ts := by
  intro bound
  induction bound with
  | zero =>
      intro a b names h
      obtain ⟨rfl, rfl⟩ := Except.ok_pair_inj h
      exact ⟨[], .refl a, .nil, trivial⟩
  | succ bound ih =>
      intro a b names h
      unfold moreNames at h
      split at h
      next hk =>
        obtain ⟨⟨x, c⟩, hx, h⟩ := Except.bind_eq_ok h
        obtain ⟨⟨more, d⟩, hmore, h⟩ := Except.bind_eq_ok h
        obtain ⟨rfl, rfl⟩ := Except.ok_pair_inj h
        obtain ⟨hcomma, hlexc⟩ := Ahead.takes_next hk (by simp)
        obtain ⟨n, hn, hlexn, hname⟩ := identifier_sound hx
        obtain ⟨ts, hts, hnames, horder⟩ := ih _ _ _ hmore
        -- a comma and a name, and then the other names
        refine ⟨[a.next] ++ [n] ++ ts, (hcomma.trans hn).trans hts, ?_,
          [a.next] ++ [n], ts, rfl, ⟨[n], ?_, hname⟩, horder⟩
        · rw [List.map_append]
          show Grammar.MoreNames (a.next.lexeme :: n.lexeme :: ts.map Token.lexeme) _
          rw [hlexc, hlexn]
          exact .cons hnames
        · exact (List.suffix_append _ _).isInfix
      next =>
        obtain ⟨rfl, rfl⟩ := Except.ok_pair_inj h
        exact ⟨[], .refl a, .nil, trivial⟩

/-- The word for a type and the type determine each other. -/
theorem type?_eq_some_iff (kind : Token.Kind) (type : ValueType) :
    type? kind = some type ↔ kind = .keyword (Grammar.typeWord type) := by
  constructor
  · intro h
    unfold type? at h
    split at h <;> simp at h <;> subst h <;> rfl
  · rintro rfl
    cases type <;> rfl

/-- A declaration that is read is derived from its tokens, the semicolon included. -/
theorem declaration_sound {type : ValueType} {a b : Ahead} {d : Declaration Location}
    (ha : type? a.next.kind = some type) (h : declaration type a = .ok (d, b)) :
    ∃ ts, a.Takes ts b ∧ Grammar.Declaration (ts.map Token.lexeme) d.bare ∧ d.Spans ts := by
  obtain ⟨⟨first, b₁⟩, hfirst, h⟩ := Except.bind_eq_ok h
  obtain ⟨⟨others, b₂⟩, hothers, h⟩ := Except.bind_eq_ok h
  obtain ⟨⟨u, b₃⟩, hu, h⟩ := Except.bind_eq_ok h
  obtain ⟨rfl, rfl⟩ := Except.ok_pair_inj h
  obtain ⟨hword, hlexw⟩ := Ahead.takes_next ((type?_eq_some_iff _ _).1 ha) (by simp)
  obtain ⟨n, hn, hlexn, hname⟩ := identifier_sound hfirst
  obtain ⟨ts, hts, hnames, horder⟩ := moreNames_sound _ _ _ _ hothers
  obtain ⟨hstop, hlexs⟩ := expect_takes hu (by simp)
  have htakes : a.Takes (a.next :: n :: ts ++ [u]) b₃ := ((hword.trans hn).trans hts).trans hstop
  have hdecl : Grammar.Declaration ((a.next :: n :: ts ++ [u]).map Token.lexeme)
      (Declaration.mk ⟨a.here, b₃.last⟩ type first others).bare := by
    rw [List.map_append, List.map_cons, List.map_cons, List.map_singleton, hlexw, hlexn, hlexs]
    exact .names hnames
  refine ⟨_, htakes, hdecl, htakes.marks (by simp), hdecl, n :: ts, ?_,
    [n], ts, rfl, ⟨[n], List.infix_rfl, hname⟩, horder⟩
  exact ⟨[a.next], [u], rfl⟩

/-- Declarations that are read stand one behind the other. -/
theorem declarations_sound :
    ∀ (bound : Nat) (a b : Ahead) (ds : List (Declaration Location)),
      declarations bound a = .ok (ds, b) →
      ∃ ts, a.Takes ts b ∧
        Grammar.Declarations (ts.map Token.lexeme) (ds.map Declaration.bare) ∧
        InOrder Declaration.Spans ds ts := by
  intro bound
  induction bound with
  | zero =>
      intro a b ds h
      obtain ⟨rfl, rfl⟩ := Except.ok_pair_inj h
      exact ⟨[], .refl a, .nil, trivial⟩
  | succ bound ih =>
      intro a b ds h
      unfold declarations at h
      split at h
      next type htype =>
        obtain ⟨⟨d, c⟩, hd, h⟩ := Except.bind_eq_ok h
        obtain ⟨⟨more, c'⟩, hmore, h⟩ := Except.bind_eq_ok h
        obtain ⟨rfl, rfl⟩ := Except.ok_pair_inj h
        obtain ⟨us, hus, hdecl, hspans⟩ := declaration_sound htype hd
        obtain ⟨ts, hts, hdecls, horder⟩ := ih _ _ _ hmore
        refine ⟨us ++ ts, hus.trans hts, ?_, us, ts, rfl, ⟨us, List.infix_rfl, hspans⟩, horder⟩
        rw [List.map_append]
        exact .cons hdecl hdecls
      next =>
        obtain ⟨rfl, rfl⟩ := Except.ok_pair_inj h
        exact ⟨[], .refl a, .nil, trivial⟩

/-- What the parser reads as a program, with none of the tokens standing for the end, the grammar
    derives as one, and its nodes span their tokens. -/
theorem program_spans {a : Ahead} {p : Program Location}
    (hplain : ∀ w ∈ a.lexemes, w.kind ≠ .endOfInput) (h : program a = .ok p) :
    p.Spans a.tokens := by
  obtain ⟨⟨ds, b⟩, hds, h⟩ := Except.bind_eq_ok h
  obtain ⟨⟨s, c⟩, hs, h⟩ := Except.bind_eq_ok h
  obtain ⟨⟨t, d⟩, ht, h⟩ := Except.bind_eq_ok h
  injection h with h
  subst h
  obtain ⟨us, hus, hdecls, horder⟩ := declarations_sound _ _ _ _ hds
  obtain ⟨vs, hvs, hblock, hspans⟩ := block_sound (statement_sound _) hs
  have htakes := hus.trans hvs
  -- the parser stopped in front of the end, and no token ahead stands for it
  have hnil : c.tokens = [] := by
    cases hc : c.tokens with
    | nil => rfl
    | cons u ts =>
        have hkind : c.next.kind = u.kind := by
          unfold Ahead.next
          rw [hc]
          rfl
        rw [(expect_eq_ok ht).1] at hkind
        refine absurd hkind.symm (hplain u.lexeme ?_)
        rw [htakes.lexemes]
        exact List.mem_append_right _ (List.mem_map.2 ⟨u, by rw [hc]; exact List.mem_cons_self, rfl⟩)
  have hall : a.tokens = us ++ vs := by
    rw [htakes.tokens, hnil, List.append_nil]
  have hlast : d.last = c.last := by
    rw [(expect_eq_ok ht).2.2]
    unfold Ahead.advance
    rw [hnil]
  have hne : us ++ vs ≠ [] := List.append_ne_nil_of_right_ne_nil us hspans.owns.1.nonempty
  rw [hall]
  refine ⟨?_, ?_, us, vs, rfl, horder, hspans⟩
  · rw [hlast]
    exact htakes.marks hne
  · rw [List.map_append]
    exact .mk hdecls hblock

end Parse

end TinyLang
