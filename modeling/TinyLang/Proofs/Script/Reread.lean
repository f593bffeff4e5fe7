/-
  TinyLang.Proofs.Script.Reread — printed blocks are programs again.

  The script of a block calls two members of the runtime.  When it calls them by the words
  of the language instead,

      runtime.read()        becomes   read
      runtime.output(e)     becomes   output(e)

  the printed text can be parsed as a program.  Scripts and programs have the same operators
  on the same levels, the same words for loops and choices and the same blanks, so a block
  that is lowered, printed and parsed comes back with its names renamed:

      parse (print width [block in words])  =  renamed block

  The strengths of the printer and the levels of the parser are two counts of one order
  (`levelFor`), which is what the parentheses of the text rest on.
-/

import TinyLang.Proofs.Lexing.Cut
import TinyLang.Proofs.Script.Compiled

namespace TinyLang

variable {α : Type}

/-! ## §1. Renamed programs and scripts in words -/

/-- An expression with its names renamed. -/
def Expr.renamed (names : Naming) : Expr α → Expr α
  | .name x => .name ⟨x.note, names.rename x.name⟩
  | .literal note value => .literal note value
  | .read note => .read note
  | .unary note op e => .unary note op (e.renamed names)
  | .binary note op e f => .binary note op (e.renamed names) (f.renamed names)

mutual

/-- A statement with its names renamed. -/
def Stmt.renamed (names : Naming) : Stmt α → Stmt α
  | .block note body => .block note (Stmt.renamedAll names body)
  | .assign note x e => .assign note ⟨x.note, names.rename x.name⟩ (e.renamed names)
  | .output note e => .output note (e.renamed names)
  | .loop note e s => .loop note (e.renamed names) (s.renamed names)
  | .choice note e s t =>
    .choice note (e.renamed names) (Stmt.renamed? names s) (Stmt.renamed? names t)

/-- Statements with their names renamed. -/
def Stmt.renamedAll (names : Naming) : List (Stmt α) → List (Stmt α)
  | [] => []
  | s :: body => s.renamed names :: Stmt.renamedAll names body

/-- A branch with its names renamed, if it is there. -/
def Stmt.renamed? (names : Naming) : Option (Stmt α) → Option (Stmt α)
  | none => none
  | some s => some (s.renamed names)

end

namespace Script

/-- Whether an expression is a member of a variable. -/
def Expr.isMemberOf (object property : String) : Expr → Bool
  | .member (.identifier name) last => name == object && last == property
  | _ => false

mutual

/-- An expression in words: reading a value from the runtime is the word for it, and the word for
    an output is called in place of the runtime's member. -/
def Expr.inWords (binding : String) : Expr → Expr
  | .identifier name => .identifier name
  | .literal value => .literal value
  | .call callee arguments =>
    if callee.isMemberOf binding Naming.readMember && arguments.isEmpty then
      .identifier Keyword.readKw.spelling
    else
      .call
        (if callee.isMemberOf binding Naming.outputMember then
          .identifier Keyword.outputKw.spelling
        else callee.inWords binding)
        (Expr.inWordsAll binding arguments)
  | .member object property => .member (object.inWords binding) property
  | .assign operator left right =>
    .assign operator (left.inWords binding) (right.inWords binding)
  | .unary side operator argument => .unary side operator (argument.inWords binding)
  | .binary operator left right =>
    .binary operator (left.inWords binding) (right.inWords binding)
  | .function parameters body => .function parameters (Stmt.inWordsAll binding body)

/-- Expressions in words. -/
def Expr.inWordsAll (binding : String) : List Expr → List Expr
  | [] => []
  | e :: es => e.inWords binding :: Expr.inWordsAll binding es

/-- Declarators in words. -/
def Expr.declaratorsInWords (binding : String) :
    List (String × Option Expr) → List (String × Option Expr)
  | [] => []
  | (name, none) :: more => (name, none) :: Expr.declaratorsInWords binding more
  | (name, some e) :: more =>
    (name, some (e.inWords binding)) :: Expr.declaratorsInWords binding more

/-- A statement in words. -/
def Stmt.inWords (binding : String) : Stmt → Stmt
  | .declare word declarators => .declare word (Expr.declaratorsInWords binding declarators)
  | .expression e => .expression (e.inWords binding)
  | .block body => .block (Stmt.inWordsAll binding body)
  | .loop test body => .loop (test.inWords binding) (body.inWords binding)
  | .choice test consequent none =>
    .choice (test.inWords binding) (consequent.inWords binding) none
  | .choice test consequent (some alternate) =>
    .choice (test.inWords binding) (consequent.inWords binding) (some (alternate.inWords binding))
  | .empty => .empty

/-- Statements in words. -/
def Stmt.inWordsAll (binding : String) : List Stmt → List Stmt
  | [] => []
  | s :: body => s.inWords binding :: Stmt.inWordsAll binding body

end

end Script

/-- The expression of a script in words that an expression becomes. -/
def Expr.wording (names : Naming) (e : Expr α) : Script.Expr :=
  (e.toScript names).inWords names.binding

/-- The statement of a script in words that a statement becomes. -/
def Stmt.wording (names : Naming) (s : Stmt α) : Script.Stmt :=
  (s.toScript names).inWords names.binding

/-- Reading input is written with the keyword for it. -/
theorem Expr.wording_read (names : Naming) (note : α) :
    (Expr.read note).wording names = .identifier Keyword.readKw.spelling := by
  simp [Expr.wording, Expr.toScript, Lowering.callRuntime, Script.Expr.inWords,
    Script.Expr.isMemberOf]

theorem Stmt.wording_output (names : Naming) (note : α) (e : Expr α) :
    (Stmt.output note e).wording names =
      .expression (.call (.identifier Keyword.outputKw.spelling) [e.wording names]) := by
  simp [Stmt.wording, Stmt.toScript, Lowering.callRuntime, Script.Stmt.inWords,
    Script.Expr.inWords, Script.Expr.inWordsAll, Script.Expr.isMemberOf, Expr.wording]

/-! ## §2. The tokens of parts of a text -/

open Lexer (Yields Stops Ends isWordChar)
open Script (Anything parens guarded indent StartsText)

namespace Lexer

/-- No keyword starts with an underscore. -/
theorem ofSpelling?_underscore (text : List Char) :
    Keyword.ofSpelling? (String.ofList ('_' :: text)) = none := by
  cases hk : Keyword.ofSpelling? (String.ofList ('_' :: text)) with
  | none => rfl
  | some k =>
      have hchars : '_' :: text = k.spelling.toList := by
        rw [← ofSpelling?_eq_some hk, String.toList_ofList]
      cases k <;> exact absurd (List.cons.inj hchars).1 (by decide)

/-- A word that starts with an underscore is no keyword. -/
theorem yields_name {name : String} {text : List Char} (hname : name.toList = '_' :: text)
    (htext : text.all isWordChar = true) :
    Yields (Ends isWordChar) name.toList [⟨.identifier, name⟩] := by
  have heq : name = String.ofList ('_' :: text) := by rw [← hname, String.ofList_toList]
  apply yields_identifier
  · exact ⟨'_', text, heq, rfl, htext⟩
  · rw [heq]
    exact ofSpelling?_underscore text

/-- A number yields its numeral. -/
theorem yields_number (n : Nat) :
    Yields Stops (Nat.toDigits 10 n) [⟨.number, String.ofList (Nat.toDigits 10 n)⟩] := by
  have hnumeral := yields_numeral (isNumeral_toDigits n)
  rw [String.toList_ofList] at hnumeral
  intro rest hrest
  exact hnumeral rest (hrest.ends_word.weaken fun _ => isWordChar_of_digit)

/-- The symbols that end wherever they stand. -/
def brackets : List Symbol := [.leftParen, .rightParen, .leftBrace, .rightBrace, .semicolon]

theorem yields_bracket {s : Symbol} (h : s ∈ brackets) :
    Yields Anything s.spelling.toList [⟨.symbol s, s.spelling⟩] := by
  intro rest _
  simp only [brackets, List.mem_cons, List.not_mem_nil, or_false] at h
  rcases h with rfl | rfl | rfl | rfl | rfl <;> exact lexed_mark rfl (by decide) rest

/-- Blanks yield nothing. -/
theorem yields_layout {text : List Char} (h : text.all Text.isBlank = true) :
    Yields Anything text [] :=
  fun rest _ => lexed_blanks h rest

theorem yields_blank : Yields Anything " ".toList [] := yields_layout (by decide)

theorem yields_lineFeed : Yields Anything "\n".toList [] := yields_layout (by decide)

theorem yields_indent (width level : Nat) : Yields Anything (indent width level).toList [] := by
  refine yields_layout ?_
  have hblank : Text.isBlank ' ' = true := by decide
  rw [indent, String.toList_ofList, List.all_replicate, hblank]
  simp

/-- A new line and its indentation. -/
theorem yields_newLine (width level : Nat) :
    Yields Anything ("\n" ++ indent width level).toList [] := by
  rw [String.toList_append]
  exact yields_lineFeed.append (yields_indent width level) fun _ _ => trivial

/-- Parentheses around a text are tokens around its tokens. -/
theorem yields_parens {text : String} {ws : List Lexeme} (h : Yields Stops text.toList ws) :
    Yields Anything (parens text).toList
      (⟨.symbol .leftParen, "("⟩ :: ws ++ [⟨.symbol .rightParen, ")"⟩]) := by
  have hopen : Yields Anything "(".toList [⟨.symbol .leftParen, "("⟩] :=
    yields_bracket (s := .leftParen) (by decide)
  have hclose : Yields Anything ")".toList [⟨.symbol .rightParen, ")"⟩] :=
    yields_bracket (s := .rightParen) (by decide)
  have hinside := h.append hclose fun _ _ => rfl
  rw [parens, String.toList_append, String.toList_append, List.append_assoc]
  exact hopen.append hinside fun _ _ => trivial

/-- Two texts around a symbol between blanks. -/
theorem yields_operation {F : List Char → Prop} {a b : String} {us vs : List Lexeme} (s : Symbol)
    (ha : Yields Stops a.toList us) (hb : Yields F b.toList vs) :
    Yields F (a ++ " " ++ s.spelling ++ " " ++ b).toList
      (us ++ ⟨.symbol s, s.spelling⟩ :: vs) := by
  have hright := yields_blank.append hb fun _ _ => trivial
  have hsymbol := (yields_symbol s).append hright fun _ _ => rfl
  have hall := ha.append (yields_blank.append hsymbol fun _ _ => trivial) fun _ _ => rfl
  simp only [← String.toList_append, ← String.append_assoc] at hall
  exact hall

/-- A sign in front of a text. Only an equals sign would make it longer. -/
theorem lexed_sign {s : Symbol} (hs : s = .bang ∨ s = .minus) {c : Char} (hc : c ≠ '=')
    (rest : List Char) :
    lexed (s.spelling.toList ++ c :: rest) = ⟨.symbol s, s.spelling⟩ :: lexed (c :: rest) := by
  rcases hs with rfl | rfl
  · -- the one symbol that is longer than this sign ends in an equals sign
    have hcut : Cut ⟨some (.symbol .bang), ['!']⟩ (c :: rest) := by
      refine cut_symbol rfl ?_
      intro d hd
      obtain rfl : c = d := Option.some.inj hd
      refine ⟨?_, by simp⟩
      unfold Symbol.ofPair?
      split <;> simp_all
    exact lexed_token hcut
  · exact lexed_mark rfl (by decide) (c :: rest)

end Lexer

/-! ## §3. Expressions -/

/-- The level of the parser for a strength of the printer. The parser has the levels 1 to 7, and
    what holds together more than a sign does is on its last one. -/
def levelFor (strength : Nat) : Nat := max 1 (min 7 (Script.levelOfStrength strength))

/-- What is printed as stronger is read on a tighter level. -/
theorem levelFor_mono {a b : Nat} (h : a ≤ b) : levelFor a ≤ levelFor b := by
  have hlevel := Script.levelOfStrength_mono h
  unfold levelFor
  omega

theorem levelFor_bounds (strength : Nat) : 1 ≤ levelFor strength ∧ levelFor strength ≤ 7 := by
  unfold levelFor
  omega

/-- A text that stands for an expression of a level, in front of what no token goes on with. -/
def Rereads (k : Nat) (text : String) (e : Expr Unit) : Prop :=
  ∃ ws, Yields Stops text.toList ws ∧ Grammar.Level k ws e

/-- What is read on a tight level is read on a looser one. -/
theorem Rereads.loosen {j k : Nat} {text : String} {e : Expr Unit} (h : Rereads k text e)
    (hj : 1 ≤ j) (hjk : j ≤ k) (hk : k ≤ 7) : Rereads j text e := by
  obtain ⟨ws, hws, he⟩ := h
  exact ⟨ws, hws, Parse.level_mono he hj hjk hk⟩

/-- Parentheses lift an expression to every level. -/
theorem rereads_parens {j k : Nat} {text : String} {e : Expr Unit} (h : Rereads j text e)
    (hj : 1 ≤ j) (hj7 : j ≤ 7) (hk : 1 ≤ k) (hk7 : k ≤ 7) : Rereads k (parens text) e := by
  obtain ⟨ws, hws, he⟩ := h.loosen (Nat.le_refl 1) hj hj7
  refine ⟨_, (Lexer.yields_parens hws).weaken fun _ _ => trivial, ?_⟩
  exact Parse.level_mono (.unary (.primary (.parens he))) hk hk7 (Nat.le_refl 7)

/-- **The parser needs the printer's parentheses and no others**: an expression at a place that
    asks for a strength is on the level for that strength. -/
theorem rereads_guarded {js : Script.Expr} {text : String} {e : Expr Unit}
    (h : Rereads (levelFor js.strength) text e) (least : Nat) :
    Rereads (levelFor least) (guarded least js text) e := by
  have hlevel := levelFor_bounds js.strength
  have hleast := levelFor_bounds least
  unfold guarded
  by_cases hweak : js.strength < least
  · rw [if_pos hweak]
    exact rereads_parens h hlevel.1 hlevel.2 hleast.1 hleast.2
  · rw [if_neg hweak]
    exact h.loosen hleast.1 (levelFor_mono (by omega)) hlevel.2

/-- A single token on the last level. -/
theorem rereads_primary {text : String} {w : Lexeme} {e : Expr Unit}
    (htext : Yields Stops text.toList [w]) (h : Grammar.Primary [w] e) : Rereads 7 text e :=
  ⟨[w], htext, .unary (.primary h)⟩

/-- A keyword that is an expression is read as it. -/
theorem rereads_keyword {k : Keyword} {e : Expr Unit}
    (h : Grammar.Primary [⟨.keyword k, k.spelling⟩] e) : Rereads 7 k.spelling e :=
  rereads_primary ((Lexer.yields_keyword k).weaken fun _ hrest => hrest.ends_word) h

/-- A number from 0 on is read back from its digits. -/
theorem rereads_integer {n : Int64} (h : 0 ≤ n.toInt) :
    Rereads 7 (Script.Literal.text (.integer n.toInt)) (.literal () (.integer n)) := by
  obtain ⟨k, hk⟩ := Int.eq_ofNat_of_zero_le h
  -- the parser refuses numerals from `2 ^ 63` on, and no literal is as large
  have hlt : n.toInt < 0x8000000000000000 := n.toInt_lt
  have hvalue : n = .ofNat k := by
    rw [← Int64.toInt_inj, Int64.toInt_ofNat_of_lt (by omega), hk]
  have htext : (Script.Literal.text (.integer n.toInt)).toList = Nat.toDigits 10 k := by
    rw [hk, Script.Literal.text_natural]
  have hdecimal : Grammar.decimal (String.ofList (Nat.toDigits 10 k)) = k := by
    unfold Grammar.decimal
    rw [String.toList_ofList, Nat.ofDigitChars_ten_toDigits]
  refine rereads_primary (w := ⟨.number, String.ofList (Nat.toDigits 10 k)⟩) ?_ ?_
  · rw [htext]
    exact Lexer.yields_number k
  · have hbound : Grammar.decimal (String.ofList (Nat.toDigits 10 k)) ≤ 0x7fffffffffffffff := by
      omega
    have hprimary := Grammar.Primary.number hbound
    rw [hdecimal, ← hvalue] at hprimary
    exact hprimary

/-- An expression of the last level is a sign with its operand or a primary expression. -/
theorem Grammar.Level.toUnary {ws : List Lexeme} {e : Expr Unit} (h : Grammar.Level 7 ws e) :
    Grammar.Unary ws e := by
  cases h with
  | unary h => exact h
  | tighter _ h6 _ => omega
  | binary hop _ _ => exact absurd hop (by simp [operatorsOf])

/-- A sign and its operand are read as a unary expression, if they are separate tokens. -/
theorem rereads_sign {op : String} (hop : IsUnary op) {text : String} {e : Expr Unit}
    (h : Rereads 7 text e) {c : Char} {cs : List Char} (htext : text.toList = c :: cs)
    (hc : c ≠ '=') : Rereads 7 (op ++ text) (.unary () op e) := by
  obtain ⟨s, hs, rfl⟩ : ∃ s : Symbol, (s = .bang ∨ s = .minus) ∧ op = s.spelling := by
    rcases hop with rfl | rfl
    · exact ⟨.bang, .inl rfl, rfl⟩
    · exact ⟨.minus, .inr rfl, rfl⟩
  obtain ⟨ws, hws, he⟩ := h
  refine ⟨⟨.symbol s, s.spelling⟩ :: ws, ?_, .unary (.operator hs he.toUnary)⟩
  intro rest hrest
  have hinside := hws rest hrest
  rw [htext, List.cons_append] at hinside
  -- no `=` follows the sign, so it is a token of its own
  rw [String.toList_append, htext, List.append_assoc, List.cons_append,
    Lexer.lexed_sign hs hc, hinside]
  rfl

/-- A sign in front of an operand. The printer's parentheses between two signs leave no trace. -/
theorem rereads_unary {op : String} (hop : IsUnary op) {text : String} {e : Expr Unit}
    (h : Rereads 7 text e) (hstart : StartsText text) :
    Rereads 7 (Script.unaryText op text) (.unary () op e) ∧
      StartsText (Script.unaryText op text) := by
  obtain ⟨c, cs, htext, hc⟩ := hstart.ne_equal
  have hsign := rereads_sign hop h htext hc
  rcases hop with rfl | rfl
  · rw [show Symbol.bang.spelling = "!" from rfl, Script.unaryText_bang]
    exact ⟨hsign, Script.startsText_sign (by decide) text⟩
  · rw [show Symbol.minus.spelling = "-" from rfl, Script.unaryText_minus]
    -- the printer keeps two signs apart for the sake of scripts, where they would be one token
    by_cases htwo : (Script.startsWith "-" text || Script.startsWith "+" text) = true
    · rw [if_pos htwo]
      have hparens : Rereads 7 (parens text) e :=
        rereads_parens h (by omega) (by omega) (by omega) (by omega)
      exact ⟨rereads_sign (.inr rfl) hparens (Script.toList_parens text) (by decide),
        Script.startsText_sign (by decide) (parens text)⟩
    · rw [if_neg htwo]
      exact ⟨hsign, Script.startsText_sign (by decide) text⟩

/-- An operator between its operands, each on the level that the operator asks for. -/
theorem rereads_binary {n : Nat} {s : Symbol} (hs : s ∈ Grammar.operatorsOf n)
    {left right : Script.Expr} {leftText rightText : String} {e f : Expr Unit}
    (he : Rereads (levelFor left.strength) leftText e)
    (hf : Rereads (levelFor right.strength) rightText f) :
    Rereads (levelFor (Script.Expr.binary s.spelling left right).strength)
      (guarded (Script.operandStrengths s.spelling).1 left leftText ++ " " ++ s.spelling ++ " " ++
        guarded (Script.operandStrengths s.spelling).2 right rightText)
      (.binary () s.spelling e f) := by
  have hop := Grammar.operatorsOf_script hs
  obtain ⟨strength, hstrength, hoperands, hlevel, hnext, -⟩ := Script.binary_strengths hop
  obtain ⟨h1, h6⟩ := Script.Grammar.operatorsOf_level hop
  have hn : levelFor strength = n := by
    unfold levelFor
    omega
  have hn' : levelFor (strength + 1) = n + 1 := by
    unfold levelFor
    omega
  -- the operators group to the left, in the printer by the greater strength that it asks of the
  -- right operand and in the parser by the tighter level
  obtain ⟨us, hus, hleft⟩ := rereads_guarded he strength
  obtain ⟨vs, hvs, hright⟩ := rereads_guarded hf (strength + 1)
  rw [hn] at hleft
  rw [hn'] at hright
  rw [hoperands]
  refine ⟨us ++ ⟨.symbol s, s.spelling⟩ :: vs, Lexer.yields_operation s hus hvs, ?_⟩
  show Grammar.Level (levelFor ((Script.binaryStrength? s.spelling).getD _)) _ _
  rw [hstrength, Option.getD_some, hn]
  exact .binary hs hleft hright

/-- A stem under which every word stays one and becomes none of the keywords. -/
def Naming.Underscored (names : Naming) : Prop :=
  ∃ text, names.stem.toList = '_' :: text ∧ text.all isWordChar = true

/-- A renamed variable starts with an underscore and is a word, so no keyword can be meant. -/
theorem Naming.Underscored.rename {names : Naming} (hn : names.Underscored) {x : String}
    (hx : IsWord x) :
    ∃ text, (names.rename x).toList = '_' :: text ∧ text.all isWordChar = true := by
  obtain ⟨text, hstem, htext⟩ := hn
  refine ⟨text ++ x.toList, ?_, ?_⟩
  · rw [toList_rename, hstem, List.cons_append]
  · rw [List.all_append, htext, isWordChar_of_isWord hx]
    rfl

theorem Naming.Underscored.yields {names : Naming} (hn : names.Underscored) {x : String}
    (hx : IsWord x) :
    Yields Stops (names.rename x).toList [⟨.identifier, names.rename x⟩] := by
  obtain ⟨text, hname, htext⟩ := hn.rename hx
  exact (Lexer.yields_name hname htext).weaken fun _ hrest => hrest.ends_word

/-- A literal is read as itself. -/
theorem Literal.rereads {value : Literal} (h : value.WellSpelled) :
    Rereads 7 value.toScript.text (.literal () value) := by
  cases value with
  | null => exact h.elim
  | string s => exact h.elim
  | integer n => exact rereads_integer h
  | bool b =>
      cases b with
      | true => exact rereads_keyword (k := .trueKw) .true
      | false => exact rereads_keyword (k := .falseKw) .false

/-- **EXPRESSIONS ARE READ BACK**: the text of an expression in words is parsed as the expression
    with its names renamed, on the level of its strength. -/
theorem Expr.rereads {names : Naming} (hn : names.Underscored) (width level : Nat) {e : Expr α}
    (h : e.WellSpelled) :
    Rereads (levelFor (e.wording names).strength) ((e.wording names).text width level)
        (e.renamed names).bare ∧
      StartsText ((e.wording names).text width level) := by
  induction e with
  | name x =>
      obtain ⟨text, hname, -⟩ := hn.rename h
      exact ⟨rereads_primary (hn.yields h) .name, '_', text, hname, .inl rfl⟩
  | literal note value =>
      exact ⟨Literal.rereads h, (Script.literal_printed (Literal.plain h)).2⟩
  | read note =>
      have hstart : StartsText "read" := Script.startsText_name (by decide)
      rw [Expr.wording_read]
      exact ⟨rereads_keyword (k := .readKw) .read, hstart⟩
  | unary note op e ih =>
      obtain ⟨he, hstart⟩ := ih h.2
      exact rereads_unary h.1 (rereads_guarded he Script.beforeStrength)
        (Script.startsText_guarded hstart Script.beforeStrength)
  -- the left operand starts the text, in parentheses or without
  | binary note op e f ihe ihf =>
      obtain ⟨⟨n, s, hs, rfl⟩, he, hf⟩ := h
      obtain ⟨hleft, hstart⟩ := ihe he
      refine ⟨rereads_binary hs hleft (ihf hf).1, ?_⟩
      show StartsText (_ ++ " " ++ s.spelling ++ " " ++ _)
      simp only [String.append_assoc]
      exact (Script.startsText_guarded hstart _).append _

/-- At a place for any expression, such as a test or the value of an assignment. -/
theorem Expr.rereads_any {names : Naming} (hn : names.Underscored) (width level : Nat) {e : Expr α}
    (h : e.WellSpelled) :
    ∃ ws, Yields Stops ((e.wording names).text width level).toList ws ∧
      Grammar.Expression ws (e.renamed names).bare := by
  have hlevel := levelFor_bounds (e.wording names).strength
  exact (Expr.rereads hn width level h).1.loosen (Nat.le_refl 1) hlevel.1 hlevel.2

/-! ## §4. Statements -/

/-- A text stands, whatever follows, for tokens with a property. -/
def PrintsAs (P : List Lexeme → Prop) (text : String) : Prop :=
  ∃ ws, Yields Anything text.toList ws ∧ P ws

theorem Lexer.yields_semicolon {text : String} {ws : List Lexeme}
    (h : Yields Stops text.toList ws) :
    Yields Anything (text ++ ";").toList (ws ++ [⟨.symbol .semicolon, ";"⟩]) := by
  have hstop : Yields Anything ";".toList [⟨.symbol .semicolon, ";"⟩] :=
    yields_bracket (s := .semicolon) (by decide)
  rw [String.toList_append]
  exact h.append hstop fun _ _ => rfl

/-- A keyword and the test in parentheses behind it, in front of a clause. -/
theorem Lexer.yields_test (k : Keyword) {test text : String} {us vs : List Lexeme}
    (ht : Yields Stops test.toList us) (h : Yields Anything text.toList vs) :
    Yields Anything (k.spelling ++ " " ++ parens test ++ text).toList
      (⟨.keyword k, k.spelling⟩ ::
        (⟨.symbol .leftParen, "("⟩ :: us ++ [⟨.symbol .rightParen, ")"⟩]) ++ vs) := by
  have hclause := (yields_parens ht).append h fun _ _ => trivial
  have hspaced := yields_blank.append hclause fun _ _ => trivial
  have hall := (yields_keyword k).append hspaced fun _ _ => rfl
  simp only [← String.toList_append, ← String.append_assoc] at hall
  exact hall

/-- A clause stands for the tokens of its statement, however it is laid out. -/
theorem printsAs_clause {P : List Lexeme → Prop} (width level : Nat) {s : Script.Stmt}
    (h : ∀ level, PrintsAs P (s.text width level)) :
    PrintsAs P (Script.clause width level s (s.text width)) := by
  unfold Script.clause
  split
  -- a block goes on the same line, and an empty statement right behind
  next body =>
    obtain ⟨ws, hws, hp⟩ := h level
    refine ⟨ws, ?_, hp⟩
    rw [String.toList_append]
    exact Lexer.yields_blank.append hws fun _ _ => trivial
  next => exact h level
  next =>
    obtain ⟨ws, hws, hp⟩ := h (level + 1)
    refine ⟨ws, ?_, hp⟩
    rw [String.toList_append]
    exact (Lexer.yields_newLine width (level + 1)).append hws fun _ _ => trivial

/-- Behind the word `else` stands a blank, a new line or a semicolon. -/
theorem ends_clause (width level : Nat) (s : Script.Stmt) (text : Nat → String)
    (rest : List Char) :
    Ends isWordChar ((Script.clause width level s text).toList ++ rest) := by
  unfold Script.clause
  split
  · rw [String.toList_append]
    rfl
  · rfl
  · rw [String.append_assoc, String.toList_append]
    rfl

/-- The word `else` is read as the keyword, however the branch in front of it ends. -/
theorem Lexer.yields_else (width level : Nat) (consequent : Script.Stmt) :
    Yields (Ends isWordChar) (Script.elseText width level consequent).toList
      [⟨.keyword .elseKw, "else"⟩] := by
  have helse : Yields (Ends isWordChar) "else".toList [⟨.keyword .elseKw, "else"⟩] :=
    yields_keyword .elseKw
  unfold Script.elseText
  split
  · exact yields_blank.append helse fun _ _ => trivial
  · rw [String.toList_append]
    exact (yields_newLine width level).append helse fun _ _ => trivial

/-- A text that starts neither like a function nor like a block stands as a statement as it is. -/
theorem text_expression (width level : Nat) {e : Script.Expr} {c : Char}
    (h : (e.text width level).toList.head? = some c) (hf : c ≠ 'f') (hb : c ≠ '{') :
    (Script.Stmt.expression e).text width level = e.text width level ++ ";" := by
  obtain ⟨cs, htext⟩ := List.head?_eq_some_iff.1 h
  have hstarts : ∀ (start : String) (d : Char) (ds : List Char), start.toList = d :: ds → c ≠ d →
      Script.startsWith start (e.text width level) = false := by
    intro start d ds hstart hne
    unfold Script.startsWith
    rw [htext, hstart, List.isPrefixOf_cons_cons, beq_false_of_ne hne.symm, Bool.false_and]
  rw [Script.Stmt.text, Script.statementText, hstarts "function" 'f' _ rfl hf,
    hstarts "\x7b" '{' [] rfl hb]
  rfl

/-- An assignment is printed as an assignment. -/
theorem printsAs_assign {names : Naming} (hn : names.Underscored) (width level : Nat) {x : String}
    (hx : IsWord x) {e : Expr α} (h : e.WellSpelled) :
    PrintsAs (Grammar.Statement false · (.assign () ⟨(), names.rename x⟩ (e.renamed names).bare))
      ((Script.Stmt.expression (.assign "=" (.identifier (names.rename x))
        (e.wording names))).text width level) := by
  obtain ⟨ws, hws, he⟩ := rereads_guarded (Expr.rereads hn width level h).1 Script.assignStrength
  have htokens := Lexer.yields_semicolon (Lexer.yields_operation .assign (hn.yields hx) hws)
  have hhead : ((Script.Expr.assign "=" (.identifier (names.rename x)) (e.wording names)).text
      width level).toList.head? = some '_' := by
    obtain ⟨text, hname, -⟩ := hn.rename hx
    show (names.rename x ++ " " ++ "=" ++ " " ++ _).toList.head? = some '_'
    simp [String.toList_append, hname]
  rw [text_expression width level hhead (by decide) (by decide)]
  exact ⟨_, htokens, .assign he⟩

/-- An output. The parentheses of the call are parentheses around the value. -/
theorem printsAs_output {names : Naming} (hn : names.Underscored) (width level : Nat) {e : Expr α}
    (h : e.WellSpelled) :
    PrintsAs (Grammar.Statement false · (.output () (e.renamed names).bare))
      ((Script.Stmt.expression (.call (.identifier Keyword.outputKw.spelling)
        [e.wording names])).text width level) := by
  obtain ⟨ws, hws, he⟩ := rereads_guarded (Expr.rereads hn width level h).1 Script.assignStrength
  -- to the parser the call is the word for an output and a value in parentheses
  have hparens := (Lexer.yields_parens hws).weaken (G := Stops) fun _ _ => trivial
  have hcall := (Lexer.yields_keyword .outputKw).append hparens fun rest _ => by
    rw [Script.toList_parens]
    rfl
  rw [← String.toList_append] at hcall
  have hvalue : Grammar.Expression
      (⟨.symbol .leftParen, "("⟩ :: ws ++ [⟨.symbol .rightParen, ")"⟩]) (e.renamed names).bare :=
    Parse.level_mono (.unary (.primary (.parens he))) (by omega) (by omega) (Nat.le_refl 7)
  have hhead : ((Script.Expr.call (.identifier Keyword.outputKw.spelling)
      [e.wording names]).text width level).toList.head? = some 'o' := by
    show ("output" ++ parens _).toList.head? = some 'o'
    rw [String.toList_append]
    rfl
  rw [text_expression width level hhead (by decide) (by decide)]
  exact ⟨_, Lexer.yields_semicolon hcall, .output hvalue⟩

/-- A block around its lines. -/
theorem printsAs_block (width level : Nat) {body : List Script.Stmt} {ss : List (Stmt Unit)}
    (h : PrintsAs (Grammar.Statements · ss) (Script.Stmt.lines width body (level + 1))) :
    PrintsAs (Grammar.Block · (.block () ss)) ((Script.Stmt.block body).text width level) := by
  obtain ⟨ws, hws, hbody⟩ := h
  have hopen : Yields Anything "\x7b".toList [⟨.symbol .leftBrace, "\x7b"⟩] :=
    Lexer.yields_bracket (s := .leftBrace) (by decide)
  have hclose : Yields Anything "\x7d".toList [⟨.symbol .rightBrace, "\x7d"⟩] :=
    Lexer.yields_bracket (s := .rightBrace) (by decide)
  have hend := (Lexer.yields_indent width level).append hclose fun _ _ => trivial
  have hlines := Lexer.yields_lineFeed.append (hws.append hend fun _ _ => trivial)
    fun _ _ => trivial
  have hall := hopen.append hlines fun _ _ => trivial
  simp only [← String.toList_append, ← String.append_assoc] at hall
  exact ⟨_, hall, .braces hbody⟩

/-- A line in front of others. -/
theorem printsAs_line (width level : Nat) {P Q R : List Lexeme → Prop} {js : Script.Stmt}
    {more : List Script.Stmt} (h : PrintsAs P (js.text width level))
    (hmore : PrintsAs Q (Script.Stmt.lines width more level))
    (hboth : ∀ us vs, P us → Q vs → R (us ++ vs)) :
    PrintsAs R (Script.Stmt.lines width (js :: more) level) := by
  obtain ⟨us, hus, hp⟩ := h
  obtain ⟨vs, hvs, hq⟩ := hmore
  have hbehind := hus.append (Lexer.yields_lineFeed.append hvs fun _ _ => trivial)
    fun _ _ => trivial
  have hall := (Lexer.yields_indent width level).append hbehind fun _ _ => trivial
  simp only [← String.toList_append, ← String.append_assoc] at hall
  exact ⟨us ++ vs, hall, hboth us vs hp hq⟩

/-- A loop is printed as a loop, its body indented or not. -/
theorem printsAs_loop (width level : Nat) {test : Script.Expr} {us : List Lexeme} {e : Expr Unit}
    (ht : Yields Stops (test.text width level).toList us) (he : Grammar.Expression us e)
    {js : Script.Stmt} {s : Stmt Unit}
    (hs : ∀ level, PrintsAs (Grammar.Statement false · s) (js.text width level)) :
    PrintsAs (Grammar.Statement false · (.loop () e s))
      ((Script.Stmt.loop test js).text width level) := by
  obtain ⟨vs, hvs, hbody⟩ := printsAs_clause width level hs
  exact ⟨_, Lexer.yields_test .whileKw ht hvs, .loop (.parens he) hbody⟩

/-- A choice. Both its branches are printed, so no `else` goes to another choice. -/
theorem printsAs_choice (width level : Nat) {test : Script.Expr} {us : List Lexeme} {e : Expr Unit}
    (ht : Yields Stops (test.text width level).toList us) (he : Grammar.Expression us e)
    {consequent alternate : Script.Stmt} {s t : Option (Stmt Unit)}
    (hs : ∀ level, PrintsAs (Grammar.Branch false · s) (consequent.text width level))
    (hr : ∀ level, PrintsAs (Grammar.Branch false · t) (alternate.text width level)) :
    PrintsAs (Grammar.Statement false · (.choice () e s t))
      ((Script.Stmt.choice test consequent (some alternate)).text width level) := by
  obtain ⟨vs, hvs, hthen⟩ := printsAs_clause width level hs
  obtain ⟨xs, hxs, hother⟩ := printsAs_clause width level hr
  -- an absent alternate is printed as well, so the `else` behind the consequent is this one
  have helse := (Lexer.yields_else width level consequent).append hxs fun rest _ =>
    ends_clause width level alternate (alternate.text width) rest
  have hbranches := hvs.append helse fun _ _ => trivial
  rw [← String.toList_append, ← String.toList_append] at hbranches
  have hall := Lexer.yields_test .ifKw ht hbranches
  simp only [← String.append_assoc, ← List.append_assoc] at hall
  refine ⟨_, hall, ?_⟩
  rw [List.append_assoc]
  exact .choiceElse (.parens he) hthen hother

mutual

/-- **STATEMENTS ARE READ BACK**: the text of a statement in words is parsed as the statement with
    its names renamed. -/
theorem Stmt.rereads {names : Naming} (hn : names.Underscored) (width : Nat) : ∀ s : Stmt α,
    s.WellSpelled → ∀ level, PrintsAs (Grammar.Statement false · (s.renamed names).bare)
      ((s.wording names).text width level)
  | .block _ body, h, level => by
      obtain ⟨ws, hws, hblock⟩ :=
        printsAs_block width level (Stmt.rereads_body hn width body h (level + 1))
      exact ⟨ws, hws, .block hblock⟩
  | .assign _ x e, h, level => printsAs_assign hn width level h.1 h.2
  | .output note e, h, level => by
      rw [Stmt.wording_output]
      exact printsAs_output hn width level h
  | .loop _ e s, h, level => by
      obtain ⟨us, hus, he⟩ := Expr.rereads_any hn width level h.1
      exact printsAs_loop width level hus he (Stmt.rereads hn width s h.2)
  | .choice _ e s t, h, level => by
      obtain ⟨us, hus, he⟩ := Expr.rereads_any hn width level h.1
      exact printsAs_choice width level hus he (Stmt.rereads_branch hn width s h.2.1)
        (Stmt.rereads_branch hn width t h.2.2)

/-- Statements are read again one by one. -/
theorem Stmt.rereads_body {names : Naming} (hn : names.Underscored) (width : Nat) :
    ∀ body : List (Stmt α), Stmt.WellSpelledAll body → ∀ level,
      PrintsAs (Grammar.Statements · (Stmt.bares (Stmt.renamedAll names body)))
        (Script.Stmt.lines width
          (Script.Stmt.inWordsAll names.binding (Stmt.toScripts names body)) level)
  | [], _, _ => ⟨[], fun _ _ => rfl, .nil⟩
  | s :: body, h, level =>
      printsAs_line width level (Stmt.rereads hn width s h.1 level)
        (Stmt.rereads_body hn width body h.2 level) fun _ _ hs hbody => .cons hs hbody

/-- A branch that is not there is printed as a semicolon, and read as one that is not there. -/
theorem Stmt.rereads_branch {names : Naming} (hn : names.Underscored) (width : Nat) :
    ∀ s : Option (Stmt α), Stmt.WellSpelledBranch s → ∀ level,
      PrintsAs (Grammar.Branch false · (Stmt.bare? (Stmt.renamed? names s)))
        (((Stmt.branchScript names s).inWords names.binding).text width level)
  | none, _, _ => ⟨_, Lexer.yields_bracket (s := .semicolon) (by decide), .absent⟩
  | some s, h, level => by
      obtain ⟨ws, hws, hs⟩ := Stmt.rereads hn width s h level
      exact ⟨ws, hws, .present hs⟩

end

/-! ## §5. Blocks -/

/-- A text with the tokens of a block is a program without declarations. -/
theorem PrintsAs.parse {text : String} {s : Stmt Unit} (h : PrintsAs (Grammar.Block · s) text) :
    Tree.parse text false = .ok (Tree.program [] (s.toTree noMark)) := by
  obtain ⟨ws, hws, hblock⟩ := h
  refine Tree.parse_complete (p := ⟨(), [], s⟩) ?_
  rw [lexemes_eq_lexed, hws.lexed trivial]
  exact .of_block hblock

/-- The text of a script that is one block. -/
theorem printsAs_print (width : Nat) {js : Script.Stmt} {P : List Lexeme → Prop}
    (h : PrintsAs P (js.text width 0)) : PrintsAs P (Script.print width [js]) := by
  have hnone : PrintsAs (· = []) (Script.Stmt.lines width [] 0) := ⟨[], fun _ _ => rfl, rfl⟩
  refine printsAs_line width 0 h hnone ?_
  intro us vs hus hvs
  rw [hvs, List.append_nil]
  exact hus

/-- **PRINTED BLOCKS ARE PROGRAMS AGAIN**: under every accepted choice of names with a stem of
    letters, digits and underscores that starts with an underscore, a block is lowered to a
    statement whose text, in words, is parsed as the block with all its names renamed. -/
theorem Stmt.parse_print_block {stem binding path : String} {names : Naming}
    (hnames : Naming.make stem binding path = .ok names)
    (hstart : stem.toList.head? = some '_') (hstem : stem.toList.all Lexer.isWordChar = true)
    {note : α} {body : List (Stmt α)} (h : (Stmt.block note body).WellSpelled)
    (mark : α → Option Json) (width : Nat) :
    ∃ js, ((Stmt.block note body).toTree mark).lower names = .ok (.statement js) ∧
      Tree.parse (Script.print width [js.inWords binding]) false =
        .ok (Tree.program [] (((Stmt.block note body).renamed names).toTree noMark)) := by
  obtain ⟨rfl, -⟩ := Naming.make_eq_ok hnames
  have hn : (Naming.mk stem binding path).Underscored := by
    obtain ⟨text, htext⟩ := List.head?_eq_some_iff.1 hstart
    refine ⟨text, htext, ?_⟩
    rw [htext, List.all_cons, Bool.and_eq_true] at hstem
    exact hstem.2
  refine ⟨_, Stmt.lower_toTree _ mark _, ?_⟩
  have hblock := printsAs_block width 0 (Stmt.rereads_body hn width body h 1)
  rw [← Stmt.toTree_bare]
  exact (printsAs_print width hblock).parse

/-- A block with an absent branch, signs next to one another, a right operand in parentheses and a
    name that is a keyword. -/
def signedBlock : Stmt Unit :=
  .block () [
    .assign () ⟨(), "x"⟩ (.binary () "-" (.literal () (.integer 10))
      (.binary () "-" (.name ⟨(), "read"⟩) (.unary () "-" (.unary () "-" (.read ()))))),
    .loop () (.unary () "!" (.binary () "<" (.name ⟨(), "x"⟩) (.literal () (.integer 0))))
      (.choice () (.literal () (.bool true)) none (some (.output () (.name ⟨(), "x"⟩))))]

theorem parse_print_signedBlock : ∃ js,
    (signedBlock.toTree noMark).lower ⟨"_v", "runtime", "./runtime"⟩ = .ok (.statement js) ∧
      Script.print 2 [js.inWords "runtime"] =
        "\x7b\n  _vx = 10 - (_vread - -(-read));\n  while (!(_vx < 0))\n    if (true); else\n" ++
          "      output(_vx);\n\x7d\n" ∧
      Tree.parse (Script.print 2 [js.inWords "runtime"]) false =
        .ok (Tree.program []
          ((signedBlock.renamed ⟨"_v", "runtime", "./runtime"⟩).toTree noMark)) := by
  have hnames : Naming.make "_v" "runtime" "./runtime" = .ok ⟨"_v", "runtime", "./runtime"⟩ := by
    have hpath : "./runtime".toList.all Text.isBlank = false := by decide +kernel
    unfold Naming.make
    rw [hpath]
    rfl
  have hx : IsWord "x" := ⟨'x', [], rfl, rfl, rfl⟩
  have hread : IsWord "read" := ⟨'r', ['e', 'a', 'd'], rfl, rfl, rfl⟩
  have hminus : IsBinary "-" := ⟨5, .minus, by decide, rfl⟩
  have hless : IsBinary "<" := ⟨4, .less, by decide, rfl⟩
  have hten : 0 ≤ (10 : Int64).toInt := by decide
  have hzero : 0 ≤ (0 : Int64).toInt := by decide
  have hspelled : signedBlock.WellSpelled :=
    ⟨⟨hx, hminus, hten, hminus, hread, .inr rfl, .inr rfl, trivial⟩,
      ⟨⟨.inl rfl, hless, hx, hzero⟩, trivial, trivial, hx⟩, trivial⟩
  obtain ⟨js, hlower, hparse⟩ :=
    Stmt.parse_print_block hnames rfl (by decide) hspelled noMark 2
  refine ⟨js, hlower, ?_, hparse⟩
  have hjs := hlower.symm.trans (signedBlock.lower_toTree _ noMark)
  rw [Target.statement.inj (Except.ok.inj hjs)]
  decide +kernel

end TinyLang
