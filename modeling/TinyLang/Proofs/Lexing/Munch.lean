/-
  TinyLang.Proofs.Lexing.Munch — the longest token at each point, and nothing lost.

  A SCAN of a text goes through it from left to right.  Blanks and whole comments are passed
  over; where none of them starts, the longest token that starts there is taken, or one
  character if no token starts there.  A comment that is not closed takes the rest of the
  text, and the end of the text has a token of its own.

      Scanned start text ts  ↔  ts = the tokens of the text

  Scans are stated with the spellings of tokens and the forms of comments alone: which
  character decides, and how far ahead the lexer looks, does not come into it.  Everything
  else about the tokens of a text follows from its scan.
-/

import TinyLang.Proofs.Lexing.Layout
import TinyLang.Proofs.Lexing.Slices

namespace TinyLang

/-! ## §1. Scans -/

namespace Lexer

/-- Whether a blank or a comment starts with a text, be the comment closed or not. -/
def StartsLayout (text : List Char) : Prop :=
  text.head?.any Text.isBlank = true ∨ ['/', '/'] <+: text ∨ ['/', '*'] <+: text

/-- What is taken off a text: its longest token, or one character if no token starts there. -/
inductive Munch : List Char → Lexeme → Prop
  | token {text : List Char} {w : Lexeme} : w.Complete → w.text.toList <+: text →
      (∀ v : Lexeme, v.Complete → v.text.toList <+: text →
        v.text.toList.length ≤ w.text.toList.length) →
      Munch text w
  | invalid {c : Char} {rest : List Char} :
      (∀ v : Lexeme, v.Complete → ¬ v.text.toList <+: c :: rest) →
      Munch (c :: rest) ⟨.invalid, String.ofList [c]⟩

/-- The scan of a text that starts at a position. -/
inductive Scanned : Position → List Char → List Token → Prop
  | finish (p : Position) : Scanned p [] [Token.endAt p]
  | lastLine (p : Position) {line : List Char} : '\n' ∉ line →
      Scanned p ('/' :: '/' :: line) [Token.endAt (p.after ('/' :: '/' :: line))]
  | unclosed (p : Position) {body : List Char} : ¬ ['*', '/'] <:+: body →
      Scanned p ('/' :: '*' :: body)
        [⟨.openComment, "/*", ⟨p, p.after ('/' :: '*' :: body)⟩⟩,
          Token.endAt (p.after ('/' :: '*' :: body))]
  | filler {p : Position} (f : Filler) {rest : List Char} {ts : List Token} :
      Scanned (p.after f.text) rest ts → Scanned p (f.text ++ rest) ts
  | token {p : Position} {w : Lexeme} {rest : List Char} {ts : List Token} :
      ¬ StartsLayout (w.text.toList ++ rest) → Munch (w.text.toList ++ rest) w →
      Scanned (p.after w.text.toList) rest ts →
      Scanned p (w.text.toList ++ rest)
        (⟨w.kind, w.text, ⟨p, p.after w.text.toList⟩⟩ :: ts)

/-- A token for a comment without an end, in a text that starts at `p`: it reaches from the opening
    of the comment to the end of the text. -/
def Unclosed (p : Position) (text : List Char) (t : Token) : Prop :=
  ∃ before body, text = before ++ '/' :: '*' :: body ∧ ¬ ['*', '/'] <:+: body ∧
    t.place = ⟨p.after before, p.after text⟩

end Lexer

/-- Tokens that account for a source text. -/
structure Token.Lossless (source : String) (ts : List Token) : Prop where
  /-- There is one token for the end, which is the last one and stands at the end of the text. -/
  ending : ∃ body, ts = body ++ [Token.endAt (Position.start.after source.toList)] ∧
    ∀ t ∈ body, t.kind ≠ .endOfInput
  /-- A comment without an end comes right before the token for the end, and reaches from its
      opening to the end of the text. -/
  unclosed : ∀ us t vs, ts = us ++ t :: vs → t.kind = .openComment →
    vs = [Token.endAt (Position.start.after source.toList)] ∧
      Lexer.Unclosed Position.start source.toList t
  /-- The tokens stand in the order of their places, which do not overlap. -/
  ordered : Token.Ordered ts
  /-- The text of every other token is the slice in its place. -/
  sliced : ∀ t ∈ ts, t.kind ≠ .openComment → t.place.slice? source = some t.text

/-! ## §2. The texts of tokens -/

namespace Lexer

/-- The texts of whole tokens, by how they start. -/
inductive TokenText : List Char → Prop
  | number {c : Char} {text : List Char} : c.isDigit = true → text.all Char.isDigit = true →
      TokenText (c :: text)
  | word {c : Char} {text : List Char} : isWordStart c = true → text.all isWordChar = true →
      TokenText (c :: text)
  | single {c : Char} {s : Symbol} : Symbol.ofChar? c = some s → TokenText [c]
  | pair {c d : Char} {s : Symbol} : Symbol.ofPair? c d = some s → TokenText [c, d]

theorem tokenText_keyword (k : Keyword) : TokenText k.spelling.toList := by
  cases k <;> exact .word rfl rfl

theorem tokenText_symbol (s : Symbol) : TokenText s.spelling.toList := by
  cases s <;> first
    | exact .pair rfl
    | exact .single rfl

end Lexer

/-- The text of a lexeme is one that a token can have. -/
theorem Lexeme.Complete.tokenText {w : Lexeme} (h : w.Complete) :
    Lexer.TokenText w.text.toList := by
  obtain ⟨kind, text⟩ := w
  obtain ⟨hspelled, hinvalid, hopen⟩ := h
  cases kind with
  | number =>
      obtain ⟨c, cs, rfl, hc, hcs⟩ : IsNumeral text := hspelled
      rw [String.toList_ofList]
      exact .number hc hcs
  | identifier =>
      obtain ⟨⟨c, cs, rfl, hc, hcs⟩, -⟩ : IsWord text ∧ Keyword.ofSpelling? text = none := hspelled
      rw [String.toList_ofList]
      exact .word hc hcs
  | keyword k =>
      obtain rfl : text = k.spelling := hspelled
      exact Lexer.tokenText_keyword k
  | symbol s =>
      obtain rfl : text = s.spelling := hspelled
      exact Lexer.tokenText_symbol s
  | invalid => exact absurd rfl hinvalid
  | openComment => exact absurd rfl hopen
  | endOfInput => exact hspelled.elim

/-- A whole token is determined by its text. -/
theorem Lexeme.Complete.eq_of_text {w v : Lexeme} (hw : w.Complete) (hv : v.Complete)
    (h : w.text.toList = v.text.toList) : w = v := by
  have hlexed : [w] = [v] := by
    rw [← hw.yields.lexed rfl, ← hv.yields.lexed rfl, h]
  exact (List.cons.inj hlexed).1

namespace Lexer

/-- A mark starts no number and no word. -/
theorem isMark_only {c : Char} (h : isMark c = true) :
    Text.isBlank c = false ∧ c.isDigit = false ∧ isWordStart c = false := by
  unfold isMark at h
  simp only [Bool.and_eq_true, Bool.not_eq_true'] at h
  exact ⟨h.1.1, h.1.2, h.2⟩

/-- A run of characters is no longer than the run it stands in. -/
theorem length_le_of_run {goesOn : Char → Bool} {l text rest : List Char}
    (hl : l.all goesOn = true) (hp : l <+: text ++ rest) (hr : Ends goesOn rest) :
    l.length ≤ text.length := by
  induction text generalizing l with
  | nil =>
      cases l with
      | nil => exact Nat.le_refl 0
      | cons c l =>
          -- the run would go on with the first character behind it
          obtain ⟨more, hmore⟩ := hp
          have hgoes : goesOn c = true := (Bool.and_eq_true_iff.1 hl).1
          have hends : goesOn c = false := hr.head (by rw [← List.nil_append rest, ← hmore]; rfl)
          exact absurd hgoes (by rw [hends]; simp)
  | cons d text ih =>
      cases l with
      | nil => exact Nat.zero_le _
      | cons c l =>
          have htail : l.all goesOn = true := (Bool.and_eq_true_iff.1 hl).2
          exact Nat.succ_le_succ (ih htail (List.cons_prefix_cons.1 hp).2)

/-- A token that starts with a digit goes on with digits. -/
theorem TokenText.all_digits {c : Char} {text : List Char} (h : TokenText (c :: text))
    (hc : c.isDigit = true) : text.all Char.isDigit = true := by
  cases h with
  | number _ ht => exact ht
  | word hw _ => exact absurd hc (by rw [(isWordStart_only hw).2]; simp)
  | single hs => rfl
  | pair hs => exact absurd hc (by rw [(isMark_only (isMark_of_ofPair? hs).1).2.1]; simp)

/-- A token that starts with a letter goes on as a word. -/
theorem TokenText.all_wordChars {c : Char} {text : List Char} (h : TokenText (c :: text))
    (hc : isWordStart c = true) : text.all isWordChar = true := by
  cases h with
  | number hd _ => exact absurd hd (by rw [(isWordStart_only hc).2]; simp)
  | word _ ht => exact ht
  | single hs => rfl
  | pair hs => exact absurd hc (by rw [(isMark_only (isMark_of_ofPair? hs).1).2.2]; simp)

/-- A token that starts with a mark is a symbol, of one character or of two. -/
theorem TokenText.symbol {c : Char} {text : List Char} (h : TokenText (c :: text))
    (hc : isMark c = true) :
    (text = [] ∧ ∃ s, Symbol.ofChar? c = some s) ∨
      ∃ d s, text = [d] ∧ Symbol.ofPair? c d = some s := by
  cases h with
  | number hd _ => exact absurd hd (by rw [(isMark_only hc).2.1]; simp)
  | word hw _ => exact absurd hw (by rw [(isMark_only hc).2.2]; simp)
  | single hs => exact .inl ⟨rfl, _, hs⟩
  | pair hs => exact .inr ⟨_, _, rfl, hs⟩

theorem TokenText.ne_nil {text : List Char} (h : TokenText text) : ∃ c more, text = c :: more := by
  cases h <;> exact ⟨_, _, rfl⟩

/-- A token at a mark that what follows makes no longer symbol is that mark alone. -/
theorem TokenText.single_of_mark {c : Char} {l rest : List Char} (h : TokenText l)
    (hp : l <+: c :: rest) (hc : isMark c = true)
    (hr : ∀ d, rest.head? = some d → Symbol.ofPair? c d = none) :
    l = [c] ∧ ∃ s, Symbol.ofChar? c = some s := by
  obtain ⟨b, more, rfl⟩ := h.ne_nil
  obtain ⟨rfl, behind, hbehind⟩ := List.cons_prefix_cons.1 hp
  rcases h.symbol hc with ⟨rfl, hs⟩ | ⟨d, s, rfl, hs⟩
  · exact ⟨rfl, hs⟩
  · have hhead : rest.head? = some d := by
      rw [← hbehind]
      rfl
    exact absurd hs (by rw [hr d hhead]; simp)

/-! ## §3. The lexer takes the longest token -/

/-- **No token is longer than the piece that is cut off.** -/
theorem Cut.longest {kind : Token.Kind} {text rest l : List Char} (h : Cut ⟨some kind, text⟩ rest)
    (hk : kind ≠ .openComment) (hl : TokenText l) (hp : l <+: text ++ rest) :
    l.length ≤ text.length := by
  -- both start with the same character, which says what the token is
  obtain ⟨c, more, rfl⟩ := hl.ne_nil
  cases h with
  | number hc ht hr =>
      obtain ⟨rfl, hmore⟩ := List.cons_prefix_cons.1 hp
      exact Nat.succ_le_succ (length_le_of_run (hl.all_digits hc) hmore hr)
  | word hc ht hr =>
      obtain ⟨rfl, hmore⟩ := List.cons_prefix_cons.1 hp
      exact Nat.succ_le_succ (length_le_of_run (hl.all_wordChars hc) hmore hr)
  | openComment => exact absurd rfl hk
  | pair hs =>
      obtain ⟨rfl, hmore⟩ := List.cons_prefix_cons.1 hp
      rcases hl.symbol (isMark_of_ofPair? hs).1 with ⟨rfl, -⟩ | ⟨d, s, rfl, -⟩
      · exact Nat.le_succ 1
      · exact Nat.le_refl 2
  | single hc hr =>
      obtain ⟨hmark, -⟩ := hl.single_of_mark hp hc fun d hd => (hr d hd).1
      exact Nat.le_of_eq (congrArg List.length hmark)

/-- A character is invalid only if no token starts with it. -/
theorem Cut.no_token {text rest : List Char} {kind : Token.Kind} (h : Cut ⟨some kind, text⟩ rest)
    (hk : kind = .invalid) :
    ∃ c, text = [c] ∧ ∀ l, TokenText l → ¬ l <+: c :: rest := by
  cases h with
  | word =>
      unfold wordKind at hk
      split at hk <;> exact absurd hk (by simp)
  | single hc hr =>
      refine ⟨_, rfl, ?_⟩
      intro l hl hp
      -- a token that starts here would be this one character, but then it would be a symbol
      obtain ⟨-, s, hs⟩ := hl.single_of_mark hp hc fun d hd => (hr d hd).1
      rw [symbolPiece.single, hs] at hk
      exact absurd hk (by simp)
  | _ => exact absurd hk (by simp)

/-- A piece that can be cut is spelled as its kind asks. -/
theorem Cut.spelled {piece : Piece} {rest : List Char} (h : Cut piece rest) :
    SpelledPiece piece := by
  obtain ⟨c, text, -, hnext⟩ := h.next
  have hspelled := next_spelled c (text ++ rest)
  rw [hnext] at hspelled
  exact hspelled

/-- **What the lexer cuts off is the longest token**, or a character with which none starts. -/
theorem Cut.munch {kind : Token.Kind} {text rest : List Char} (h : Cut ⟨some kind, text⟩ rest)
    (hk : kind ≠ .openComment) : Munch (text ++ rest) ⟨kind, String.ofList text⟩ := by
  by_cases hinvalid : kind = .invalid
  · obtain ⟨c, rfl, hnone⟩ := h.no_token hinvalid
    subst hinvalid
    exact .invalid fun v hv => hnone _ hv.tokenText
  · -- a token that can be cut is spelled as it should be, and no longer one fits
    have hspelled := h.spelled kind rfl
    rw [lexeme_eq_ite, if_neg hk] at hspelled
    refine .token ⟨hspelled, hinvalid, hk⟩ ?_ ?_
    · rw [String.toList_ofList]
      exact List.prefix_append text rest
    · intro v hv hp
      rw [String.toList_ofList]
      exact h.longest hk hv.tokenText hp

/-- Only one thing can be taken off a text. -/
theorem Munch.unique {text : List Char} {w v : Lexeme} (hw : Munch text w) (hv : Munch text v) :
    w = v := by
  cases hw with
  | token hcomplete hp hlongest =>
      cases hv with
      | token hcomplete' hp' hlongest' =>
          apply hcomplete.eq_of_text hcomplete'
          -- two starts of one text that are equally long
          have hle := hlongest v hcomplete' hp'
          have hge := hlongest' w hcomplete hp
          exact (List.prefix_of_prefix_length_le hp hp' hge).eq_of_length (by omega)
      | invalid hnone => exact absurd hp (hnone w hcomplete)
  | invalid hnone =>
      cases hv with
      | token hcomplete' hp' _ => exact absurd hp' (hnone v hcomplete')
      | invalid _ => rfl

/-- What is taken from a text is neither its end nor a comment that does not close. -/
theorem Munch.kind_ne {text : List Char} {w : Lexeme} (h : Munch text w) :
    w.kind ≠ .openComment ∧ w.kind ≠ .endOfInput := by
  cases h with
  | token hcomplete _ _ =>
      refine ⟨hcomplete.2.2, ?_⟩
      intro hk
      have hspelled := hcomplete.1
      rw [hk] at hspelled
      exact hspelled
  | invalid _ => exact ⟨by simp, by simp⟩

theorem Munch.ne_nil {text : List Char} {w : Lexeme} (h : Munch text w) : w.text.toList ≠ [] := by
  cases h with
  | token hcomplete _ _ =>
      obtain ⟨c, more, htext⟩ := hcomplete.tokenText.ne_nil
      rw [htext]
      exact List.cons_ne_nil c more
  | invalid _ =>
      rw [String.toList_ofList]
      exact List.cons_ne_nil _ []

/-- Where no layout starts, the lexer cuts off a token. -/
theorem cut_of_not_startsLayout {text : List Char} (hne : text ≠ []) (h : ¬ StartsLayout text) :
    ∃ (w : Lexeme) (rest : List Char), text = w.text.toList ++ rest ∧
      Cut ⟨some w.kind, w.text.toList⟩ rest ∧ Munch text w := by
  obtain ⟨c, more, rfl⟩ := List.exists_cons_of_ne_nil hne
  have hcut := cut_next c more
  have happend := next_append c more
  generalize (next c more).2 = rest at hcut happend
  generalize (next c more).1 = piece at hcut happend
  rw [← happend] at h ⊢
  obtain ⟨kind, own⟩ := piece
  cases kind with
  | none =>
      -- a piece of layout would have started here
      cases hcut with
      | blanks hc _ _ => exact absurd (.inl hc) h
      | line _ _ => exact absurd (.inr (.inl ⟨_, rfl⟩)) h
      | comment _ => exact absurd (.inr (.inr ⟨_, rfl⟩)) h
  | some kind =>
      have hk : kind ≠ .openComment := by
        intro hk
        have hopening := (hcut.of_openComment hk).2
        exact h (.inr (.inr (hopening.trans (List.prefix_append own rest))))
      refine ⟨⟨kind, String.ofList own⟩, rest, ?_, ?_, hcut.munch hk⟩
      · rw [String.toList_ofList]
      · rw [String.toList_ofList]
        exact hcut

/-! ## §4. Every text has one scan -/

/-- A comment without its closing marks goes on to the end. -/
theorem closeComment_unclosed {body : List Char} (h : ¬ ['*', '/'] <:+: body) :
    closeComment body = none := by
  fun_induction closeComment body with
  | case1 => rfl
  | case2 rest => exact absurd ⟨[], rest, rfl⟩ h
  | case3 c rest hno ih =>
      have hrest : ¬ ['*', '/'] <:+: rest := by
        intro hin
        exact h (hin.trans (List.infix_cons List.infix_rfl))
      rw [ih hrest]
      rfl

/-- The first closing mark of a text that holds one. -/
theorem exists_first_closing {text : List Char} (h : ['*', '/'] <:+: text) :
    ∃ body rest, text = body ++ '*' :: '/' :: rest ∧ ¬ ['*', '/'] <:+: body := by
  induction text with
  | nil => exact absurd h (by simp)
  | cons c text ih =>
      -- the first place where the marks stand is here, or it is the first one further on
      by_cases hhere : ['*', '/'] <+: c :: text
      · obtain ⟨rest, hrest⟩ := hhere
        exact ⟨[], rest, hrest.symm, by simp⟩
      · have hlater : ['*', '/'] <:+: text := (List.infix_cons_iff.1 h).resolve_left hhere
        obtain ⟨body, rest, rfl, hbody⟩ := ih hlater
        refine ⟨c :: body, rest, rfl, ?_⟩
        intro hin
        -- a closing in front of it would have been the first
        rcases List.infix_cons_iff.1 hin with hstart | hin
        · exact hhere (hstart.trans (List.prefix_append (c :: body) _))
        · exact hbody hin

/-- **The tokens of a scan are those of the lexer.** -/
theorem Scanned.eq_place {p : Position} {text : List Char} {ts : List Token}
    (h : Scanned p text ts) :
    ts = place p (pieces text) ++ [Token.endAt (p.after text)] := by
  induction h with
  | finish p => rfl
  | @lastLine p line hline =>
      have hcut : Cut ⟨none, '/' :: '/' :: line⟩ [] := .line (all_isLineChar hline) rfl
      have hskip := place_skip hcut p
      rw [List.append_nil] at hskip
      rw [hskip]
      rfl
  | @unclosed p body hbody =>
      have hcut := (Cut.openComment (closeComment_unclosed hbody)).pieces
      rw [List.append_nil] at hcut
      rw [hcut, place_token rfl]
      rfl
  | @filler p f rest ts _ ih => rw [ih, place_filler, Position.after_append]
  | @token p w rest ts hlayout hmunch _ ih =>
      have hne : w.text.toList ++ rest ≠ [] :=
        List.append_ne_nil_of_left_ne_nil hmunch.ne_nil rest
      obtain ⟨v, rest', htext, hcut, hmunch'⟩ := cut_of_not_startsLayout hne hlayout
      -- what the lexer cuts off there is the same
      obtain rfl := hmunch.unique hmunch'
      obtain rfl := List.append_cancel_left htext
      have hlexeme : lexeme w.kind w.text.toList = w.text := by
        rw [lexeme_eq_ite, if_neg hmunch.kind_ne.1, String.ofList_toList]
      rw [hcut.pieces, place_token rfl, hlexeme, ih, Position.after_append]
      rfl

/-- **Every text has a scan**, from any position on. -/
theorem exists_scanned (bound : Nat) : ∀ (text : List Char) (p : Position), text.length ≤ bound →
    ∃ ts, Scanned p text ts := by
  -- each step of a scan passes over one character at least
  induction bound with
  | zero =>
      intro text p h
      rw [List.length_eq_zero_iff.1 (Nat.le_zero.1 h)]
      exact ⟨_, .finish p⟩
  | succ bound ih =>
      intro text p h
      by_cases hne : text = []
      · rw [hne]
        exact ⟨_, .finish p⟩
      by_cases hlayout : StartsLayout text
      · rcases hlayout with hblank | ⟨more, rfl⟩ | ⟨more, rfl⟩
        · obtain ⟨c, rest, rfl⟩ := List.exists_cons_of_ne_nil hne
          obtain ⟨ts, hts⟩ := ih rest (p.after [c]) (Nat.le_of_succ_le_succ h)
          exact ⟨ts, .filler (.blank c hblank) hts⟩
        · by_cases hfeed : '\n' ∈ more
          · obtain ⟨line, rest, rfl, hline⟩ := List.eq_append_cons_of_mem hfeed
            have hrest : rest.length ≤ bound := by
              simp only [List.length_append, List.length_cons] at h
              omega
            obtain ⟨ts, hts⟩ := ih rest (p.after (Filler.line line hline).text) hrest
            have hscan := Scanned.filler (.line line hline) hts
            rw [Filler.text, List.append_assoc] at hscan
            exact ⟨ts, hscan⟩
          · exact ⟨_, .lastLine p hfeed⟩
        · by_cases hclosed : ['*', '/'] <:+: more
          · obtain ⟨body, rest, rfl, hbody⟩ := exists_first_closing hclosed
            have hrest : rest.length ≤ bound := by
              simp only [List.length_append, List.length_cons] at h
              omega
            obtain ⟨ts, hts⟩ := ih rest (p.after (Filler.marked body hbody).text) hrest
            have hscan := Scanned.filler (.marked body hbody) hts
            rw [Filler.text, List.append_assoc] at hscan
            exact ⟨ts, hscan⟩
          · exact ⟨_, .unclosed p hclosed⟩
      · obtain ⟨w, rest, rfl, -, hmunch⟩ := cut_of_not_startsLayout hne hlayout
        have hrest : rest.length ≤ bound := by
          have hpos := List.length_pos_iff.2 hmunch.ne_nil
          rw [List.length_append] at h
          omega
        obtain ⟨ts, hts⟩ := ih rest (p.after w.text.toList) hrest
        exact ⟨_, .token hlayout hmunch hts⟩

end Lexer

/-- The tokens of a source text are its scan. -/
theorem Lexed.scanned_iff (source : String) (ts : List Token) :
    Lexer.Scanned Position.start source.toList ts ↔ ts = (Lexed.ofSource source).all := by
  constructor
  · intro h
    exact h.eq_place
  · rintro rfl
    obtain ⟨ts, hts⟩ := Lexer.exists_scanned _ source.toList Position.start (Nat.le_refl _)
    have heq : ts = (Lexed.ofSource source).all := hts.eq_place
    rw [← heq]
    exact hts

/-! ## §5. What follows from a scan -/

namespace Lexer

/-- A token of a text that starts at `p`: the characters in its place are its text, unless it is a
    comment without an end. -/
def Stands (p : Position) (text : List Char) (t : Token) : Prop :=
  ∃ before own behind, text = before ++ (own ++ behind) ∧
    t.place = ⟨p.after before, p.after (before ++ own)⟩ ∧
    (t.kind ≠ .openComment → t.text = String.ofList own)

/-- What stands behind a text stands there when the text is put in front. -/
theorem Stands.shift {p : Position} {front rest : List Char} {t : Token}
    (h : Stands (p.after front) rest t) : Stands p (front ++ rest) t := by
  obtain ⟨before, own, behind, rfl, hplace, htext⟩ := h
  refine ⟨front ++ before, own, behind, (List.append_assoc front before _).symm, ?_, htext⟩
  rw [hplace, List.append_assoc, Position.after_append p, Position.after_append p]

theorem Unclosed.shift {p : Position} {front rest : List Char} {t : Token}
    (h : Unclosed (p.after front) rest t) : Unclosed p (front ++ rest) t := by
  obtain ⟨before, body, hrest, hbody, hplace⟩ := h
  refine ⟨front ++ before, body, by rw [hrest, List.append_assoc], hbody, ?_⟩
  rw [hplace, Position.after_append p, Position.after_append p]

theorem stands_end (p : Position) (text : List Char) :
    Stands p text (Token.endAt (p.after text)) := by
  refine ⟨text, [], [], (List.append_nil text).symm, ?_, fun _ => rfl⟩
  rw [List.append_nil]
  rfl

variable {p : Position} {text : List Char} {ts : List Token}

/-- Every token stands in the text where its place says. -/
theorem Scanned.stands (h : Scanned p text ts) : ∀ t ∈ ts, Stands p text t := by
  induction h with
  | finish p =>
      intro t ht
      rw [List.mem_singleton.1 ht]
      exact stands_end p []
  | lastLine p _ =>
      intro t ht
      rw [List.mem_singleton.1 ht]
      exact stands_end p _
  | @unclosed p body _ =>
      intro t ht
      rcases List.mem_cons.1 ht with rfl | ht
      · exact ⟨[], '/' :: '*' :: body, [], by simp, rfl, fun hk => absurd rfl hk⟩
      · rw [List.mem_singleton.1 ht]
        exact stands_end p _
  -- what stands in front moves all tokens behind it
  | filler f _ ih => exact fun t ht => (ih t ht).shift
  | @token p w rest ts _ _ _ ih =>
      intro t ht
      rcases List.mem_cons.1 ht with rfl | ht
      · exact ⟨[], w.text.toList, rest, rfl, rfl, fun _ => String.ofList_toList.symm⟩
      · exact (ih t ht).shift

/-- The end of the input is the last token, and the only one of its kind. -/
theorem Scanned.ending (h : Scanned p text ts) :
    ∃ body, ts = body ++ [Token.endAt (p.after text)] ∧ ∀ t ∈ body, t.kind ≠ .endOfInput := by
  induction h with
  | finish p => exact ⟨[], rfl, by simp⟩
  | lastLine p _ => exact ⟨[], rfl, by simp⟩
  | unclosed p _ => exact ⟨[_], rfl, by simp⟩
  | filler f _ ih =>
      rw [Position.after_append]
      exact ih
  | @token p w rest ts _ hmunch _ ih =>
      obtain ⟨body, rfl, hbody⟩ := ih
      rw [Position.after_append]
      refine ⟨_ :: body, rfl, ?_⟩
      intro t ht
      rcases List.mem_cons.1 ht with rfl | ht
      · exact hmunch.kind_ne.2
      · exact hbody t ht

/-- A comment without an end is the last token but one, and goes on to the end. -/
theorem Scanned.of_openComment (h : Scanned p text ts) : ∀ us t vs, ts = us ++ t :: vs →
    t.kind = .openComment → vs = [Token.endAt (p.after text)] ∧ Unclosed p text t := by
  -- the token for the end is no comment
  have hend : ∀ {q : Position} {us vs : List Token} {t : Token}, [Token.endAt q] = us ++ t :: vs →
      t.kind ≠ .openComment := by
    intro q us vs t heq hk
    have ht : t ∈ [Token.endAt q] := by
      rw [heq]
      simp
    rw [List.mem_singleton.1 ht] at hk
    exact absurd hk (by simp [Token.endAt])
  induction h with
  | finish p => exact fun us t vs heq hk => absurd hk (hend heq)
  | lastLine p _ => exact fun us t vs heq hk => absurd hk (hend heq)
  | @unclosed p body hbody =>
      intro us t vs heq hk
      cases us with
      | nil =>
          obtain ⟨rfl, rfl⟩ := List.cons.inj heq
          exact ⟨rfl, [], body, rfl, hbody, rfl⟩
      | cons u us => exact absurd hk (hend (List.cons.inj heq).2)
  | @filler p f rest ts _ ih =>
      intro us t vs heq hk
      obtain ⟨hvs, hunclosed⟩ := ih us t vs heq hk
      rw [Position.after_append]
      exact ⟨hvs, hunclosed.shift⟩
  | @token p w rest ts _ hmunch _ ih =>
      intro us t vs heq hk
      cases us with
      | nil =>
          obtain ⟨rfl, -⟩ := List.cons.inj heq
          exact absurd hk hmunch.kind_ne.1
      | cons u us =>
          obtain ⟨hvs, hunclosed⟩ := ih us t vs (List.cons.inj heq).2 hk
          rw [Position.after_append]
          exact ⟨hvs, hunclosed.shift⟩

/-- The tokens stand in order, and the one for the end behind them. -/
theorem Scanned.ordered (h : Scanned p text ts) : Token.Ordered ts := by
  have hordered := (place_ordered p (pieces text)).1
  have hplace := h.eq_place
  constructor
  · intro t ht
    rw [hplace] at ht
    rcases List.mem_append.1 ht with ht | ht
    · exact hordered.forward t ht
    · rw [List.mem_singleton.1 ht]
      exact Nat.le_refl _
  · -- the end of the input stands behind the whole text, and no token goes beyond that
    have hbefore : ∀ t ∈ ts, t.place.stop.offset ≤ (p.after text).offset := by
      intro t ht
      obtain ⟨before, own, behind, htext, hown, -⟩ := h.stands t ht
      have hoffset := Position.after_offset (p.after (before ++ own)) behind
      rw [← Position.after_append, List.append_assoc, ← htext] at hoffset
      rw [hown]
      show (p.after (before ++ own)).offset ≤ (p.after text).offset
      omega
    rw [hplace] at hbefore ⊢
    refine List.pairwise_append.2 ⟨hordered.apart, List.pairwise_singleton _ _, ?_⟩
    intro t ht u hu
    rw [List.mem_singleton.1 hu]
    exact hbefore t (List.mem_append_left _ ht)

end Lexer

/-- What is scanned from the start of a source loses nothing of it. -/
theorem Lexer.Scanned.lossless {source : String} {ts : List Token}
    (h : Lexer.Scanned Position.start source.toList ts) : Token.Lossless source ts where
  ending := h.ending
  unclosed := h.of_openComment
  ordered := h.ordered
  sliced := by
    intro t ht hk
    obtain ⟨before, own, behind, hsource, hplace, htext⟩ := h.stands t ht
    rw [hplace, htext hk]
    exact slice?_eq before own behind hsource

/-- **THE LEXER IS LOSSLESS AND TAKES THE LONGEST TOKEN.**  The tokens of a source text are the one
    scan of it: blanks and whole comments are passed over, and at every other point the longest
    token is taken, or one invalid character where none starts.  So one token stands for the end,
    behind all others; a comment without an end comes right before it and spans the rest of the
    text; and the others stand in order, each with the text of its place. -/
theorem Lexed.maximal_munch (source : String) :
    (∀ ts, Lexer.Scanned Position.start source.toList ts ↔ ts = (Lexed.ofSource source).all) ∧
      Token.Lossless source (Lexed.ofSource source).all :=
  ⟨Lexed.scanned_iff source, ((Lexed.scanned_iff source _).2 rfl).lossless⟩

end TinyLang
