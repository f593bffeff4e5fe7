/-
  TinyLang.Proofs.Script.Operators.Grouping — which expressions are read back as they were
  printed.

  The text of an expression is followed through the printer once.  At each step it is known
  which tokens the text stands for, and in which cases these tokens stand for the
  expression; at the end of it, for every expression that the printer knows,

      its text is read as the expression, and as no other  ↔  it is separable

  where a negative number is read as the negative of a number.
-/

import TinyLang.Proofs.Script.Operators.Scales
import TinyLang.Proofs.Script.Operators.Splitting

namespace TinyLang.Script

open Grammar (isTarget)
open Naming (isIdentifier isIdentifierStart isIdentifierChar)
open Operators

/-! ## §1. Tokens of operators -/

/-- An operator between blanks is one token. -/
theorem token?_operator {op : String} {o : Operation} (h : (op, o) ∈ operations)
    (rest : List Char) :
    token? (op.toList ++ ' ' :: rest) = some (operatorToken op, ' ' :: rest) := by
  have hop : op ∈ operations.map Prod.fst := List.mem_map_of_mem h
  simp only [operations, List.map_cons, List.map_nil, List.mem_cons, List.not_mem_nil,
    or_false] at hop
  rcases hop with rfl | rfl | rfl | rfl | rfl | rfl | rfl | rfl | rfl | rfl | rfl | rfl | rfl |
    rfl | rfl | rfl | rfl | rfl | rfl | rfl | rfl | rfl | rfl | rfl | rfl <;> rfl

/-- A plus is a token of its own unless another plus or an equals sign follows. -/
theorem token?_plus {c : Char} (h₁ : c ≠ '=') (h₂ : c ≠ '+') (rest : List Char) :
    token? ('+' :: c :: rest) = some (.mark "+", c :: rest) := by
  show mark? ('+' :: c :: rest) = _
  have hne₁ : ('=' == c) = false := by simpa using Ne.symm h₁
  have hne₂ : ('+' == c) = false := by simpa using Ne.symm h₂
  have hfind : (punctuators.find? fun p => p.toList.isPrefixOf ('+' :: c :: rest)) = some "+" := by
    simp [punctuators, List.isPrefixOf, hne₁, hne₂]
  unfold mark?
  rw [if_neg (by simp [commentStarts, List.isPrefixOf]), if_neg (by simp), hfind]
  rfl

theorem token?_tilde (rest : List Char) : token? ('~' :: rest) = some (.mark "~", rest) := by
  show mark? ('~' :: rest) = _
  have hfind : (punctuators.find? fun p => p.toList.isPrefixOf ('~' :: rest)) = some "~" := by
    simp [punctuators, List.isPrefixOf]
  unfold mark?
  rw [if_neg (by simp [commentStarts, List.isPrefixOf]), if_neg (by simp), hfind]
  rfl

/-- Two texts around an operator between blanks. -/
theorem spells_binary {op a b : String} {o : Operation} {us vs : List Token}
    (hop : (op, o) ∈ operations) (ha : Spells (Breaks false) a.toList us)
    (hb : Spells (Breaks false) b.toList vs) :
    Spells (Breaks false) (a ++ " " ++ op ++ " " ++ b).toList (us ++ operatorToken op :: vs) := by
  have hmiddle : Spells Anything (" " ++ op ++ " ").toList [operatorToken op] := by
    intro rest ws _ hws
    rw [String.toList_append, String.toList_append, List.append_assoc, List.append_assoc]
    exact .layout rfl (.token (token?_operator hop rest) (.layout rfl hws))
  have hright := hmiddle.append hb fun _ _ => trivial
  have hall := ha.append hright fun rest _ => by
    rw [List.append_assoc]
    exact breaks_spaced op _
  rw [← String.toList_append, ← String.toList_append] at hall
  simp only [String.append_assoc] at hall ⊢
  exact hall

/-! ## §2. Texts that are printed -/

/-- What the text of an expression starts with: neither layout nor what would lengthen an operator
    in front. -/
def Opens (text : String) : Prop :=
  ∃ c cs, text.toList = c :: cs ∧ c ≠ '=' ∧ isLayout c = false

/-- What a text opens with does not depend on its end. -/
theorem Opens.append {a : String} (h : Opens a) (b : String) : Opens (a ++ b) := by
  obtain ⟨c, cs, ha, hc⟩ := h
  refine ⟨c, cs ++ b.toList, ?_, hc⟩
  rw [String.toList_append, ha, List.cons_append]

theorem opens_parens (text : String) : Opens (parens text) :=
  ⟨'(', (text ++ ")").toList, toList_parens text, by decide, by decide⟩

/-- No letter and no digit is layout. -/
theorem opens_char {c : Char} (h : isIdentifierChar c = true) : c ≠ '=' ∧ isLayout c = false := by
  refine ⟨?_, ?_⟩
  · intro heq
    subst heq
    exact absurd h (by decide)
  · cases hlayout : isLayout c with
    | false => rfl
    | true =>
        simp only [isLayout, List.mem_cons, List.not_mem_nil, or_false, decide_eq_true_eq]
          at hlayout
        rcases hlayout with rfl | rfl | rfl | rfl | rfl | rfl | rfl | rfl | rfl | rfl <;>
          exact absurd h (by decide)

theorem isIdentifierChar_of_start {c : Char} (h : isIdentifierStart c = true) :
    isIdentifierChar c = true := by
  unfold isIdentifierChar Char.isAlphanum
  unfold isIdentifierStart at h
  simp only [Bool.or_eq_true] at h ⊢
  exact h.imp_left fun h => h.imp_left .inl

theorem opens_name {name : String} (h : isIdentifier name = true) : Opens name := by
  obtain ⟨c, cs, hname, hstart, -⟩ := Naming.isIdentifier_iff.1 h
  exact ⟨c, cs, hname, opens_char (isIdentifierChar_of_start hstart)⟩

/-- A text stands for tokens, in front of what breaks them, and the tokens stand for an expression
    of a level exactly if the expression is separable. -/
def Placed (point : Bool) (level : Nat) (e : Expr) (text : String) : Prop :=
  Opens text ∧ ∃ ts, Spells (Breaks point) text.toList ts ∧ Stands ts e.signed level e.Separable

/-- Whether a point behind the text of an expression belongs to no token of the expression. -/
def Expr.takesPoint (e : Expr) : Bool := decide (callStrength ≤ e.strength) && !e.isNumeric

/-- A text is that of an expression. -/
def Expr.PrintedAs (e : Expr) (text : String) : Prop := Placed e.takesPoint e.level e text

section Placed

variable {e left right : Expr} {text : String} {point : Bool} {k : Nat}

/-- What may be followed by a point may be followed by everything else as well. -/
theorem Placed.weaken (h : Placed point k e text) : Placed false k e text := by
  obtain ⟨hopens, ts, hs, hstands⟩ := h
  exact ⟨hopens, ts, hs.weaken fun _ hrest => hrest.weaken _, hstands⟩

/-- Parentheses around a text. -/
theorem Placed.parens (h : Placed point k e text) (point' : Bool) :
    Placed point' 15 e (parens text) := by
  obtain ⟨-, ts, hs, hstands⟩ := h
  exact ⟨opens_parens text, inParens ts, (spells_parens hs).weaken fun _ _ => trivial,
    hstands.inParens⟩

/-- **A text at a place**: with parentheses where the expression is too weak for the place. -/
theorem Expr.PrintedAs.guarded (h : e.PrintedAs text) (least : Nat) :
    Placed false (e.levelAt least) e (guarded least e text) := by
  unfold Script.guarded levelAt
  by_cases hweak : e.strength < least
  · rw [if_pos hweak, if_pos hweak]
    exact Placed.parens h false
  · rw [if_neg hweak, if_neg hweak]
    exact Placed.weaken h

/-- A single token that stands for a primary expression. -/
theorem placed_token {t : Token} (hopens : Opens text)
    (hs : Spells (Breaks point) text.toList [t]) (hseparable : e.Separable ↔ True)
    (h : Stands [t] e.signed 15 True) : Placed point 15 e text :=
  ⟨hopens, [t], hs, h.congr hseparable.symm⟩

/-- A single word that stands for a primary expression. -/
theorem placed_word {word : String} (hword : isIdentifier word = true)
    (hseparable : e.Separable ↔ True) (hs : skeletonOf e.signed = [.word word])
    (h : ∀ p : Place, p.Admits 15 → Phrase p [.word word] e.signed) : Placed true 15 e word :=
  placed_token (opens_name hword) (spells_word hword) hseparable (stands_token rfl hs h)

/-- A name is printed as itself. -/
theorem identifier_printedAs {name : String} (h : IsName name) :
    (Expr.identifier name).PrintedAs name :=
  placed_word h.1 Iff.rfl rfl fun _ hp => .identifier hp h.2

theorem stands_number (n : Nat) : Stands [.number n] (.literal (.integer n)) 15 True :=
  stands_token rfl rfl fun _ hp => .number hp

/-- A numeral starts with a digit. -/
theorem toDigits_opens (n : Nat) :
    ∃ c cs, Nat.toDigits 10 n = c :: cs ∧ isIdentifierChar c = true := by
  obtain ⟨c, cs, hdigits, hc⟩ := Json.toDigits_eq_cons n
  refine ⟨c, cs, hdigits, ?_⟩
  unfold isIdentifierChar Char.isAlphanum
  rw [hc, Bool.or_true, Bool.true_or, Bool.true_or]

/-- A number that is not negative is one token. -/
theorem natural_printedAs {n : Int} (hn : ¬ n < 0) :
    (Expr.literal (.integer n)).PrintedAs (Literal.text (.integer n)) := by
  have hvalue : (n.natAbs : Int) = n := by omega
  have hchars : (Literal.text (.integer n)).toList = Nat.toDigits 10 n.natAbs := by
    rw [← Literal.text_natural, hvalue]
  -- without a sign the literal is the same as a tree of the host language
  have hsigned : (Expr.literal (.integer n)).signed = .literal (.integer n.natAbs) := by
    show (if n < 0 then _ else _) = _
    rw [if_neg hn, hvalue]
  have hnegative : ¬ (Expr.literal (.integer n)).isNegative = true := by
    simpa [Expr.isNegative] using hn
  obtain ⟨c, cs, hdigits, hc⟩ := toDigits_opens n.natAbs
  show Placed false (if (Expr.literal (.integer n)).isNegative = true then 13 else 15) _ _
  rw [if_neg hnegative]
  refine placed_token (t := .number n.natAbs) ⟨c, cs, hchars.trans hdigits, opens_char hc⟩ ?_
    Iff.rfl ?_
  · rw [hchars]
    exact spells_token fun rest hrest => token?_number n.natAbs hrest
  · rw [hsigned]
    exact stands_number n.natAbs

/-- A negative number is a sign and a number. -/
theorem negative_printedAs {n : Int} (hn : n < 0) :
    (Expr.literal (.integer n)).PrintedAs (Literal.text (.integer n)) := by
  have hchars : (Literal.text (.integer n)).toList = '-' :: Nat.toDigits 10 n.natAbs := by
    rw [show (Literal.text (.integer n)).toList = Json.integerChars n from Json.toList_repr n,
      Json.integerChars, if_pos hn]
    rfl
  -- the host language has no negative numbers, only a sign in front of one
  have hsigned : (Expr.literal (.integer n)).signed =
      .unary .before "-" (.literal (.integer n.natAbs)) := by
    show (if n < 0 then _ else _) = _
    rw [if_pos hn, show -n = (n.natAbs : Int) by omega]
  have hnegative : (Expr.literal (.integer n)).isNegative = true := decide_eq_true hn
  show Placed false (if (Expr.literal (.integer n)).isNegative = true then 13 else 15) _ _
  rw [if_pos hnegative]
  refine ⟨⟨'-', _, hchars, by decide, by decide⟩, [.mark "-", .number n.natAbs], ?_, ?_⟩
  · -- a digit follows the sign, so the two are no longer mark
    obtain ⟨c, cs, hdigits, hc⟩ := toDigits_opens n.natAbs
    have hminus : c ≠ '-' := by
      intro heq
      subst heq
      exact absurd hc (by decide)
    intro rest us hrest hus
    have hnumeral := Tokenized.token (token?_number n.natAbs hrest) hus
    rw [hdigits] at hnumeral
    rw [hchars, hdigits]
    exact .token (token?_minus (opens_char hc).1 hminus (cs ++ rest)) hnumeral
  · rw [hsigned]
    have hfront : "-" ∈ frontOperators := by decide
    exact ((stands_number n.natAbs).unary hfront).congr (by simp [Expr.Separable])

/-- A literal is printed as the one token that is read as it, or as a sign and a number. -/
theorem literal_printedAs {value : Literal} (h : value.Known) :
    (Expr.literal value).PrintedAs value.text := by
  cases value with
  | number x => exact h.elim
  | integer n =>
      -- a negative number is two tokens and stands on the level of the signs
      by_cases hn : n < 0
      · exact negative_printedAs hn
      · exact natural_printedAs hn
  | null => exact placed_word (by decide) Iff.rfl rfl fun _ hp => .null hp
  | bool b =>
      cases b with
      | true => exact placed_word (by decide) Iff.rfl rfl fun _ hp => .true hp
      | false => exact placed_word (by decide) Iff.rfl rfl fun _ hp => .false hp
  | string s =>
      refine placed_token ?_ (spells_token fun rest _ => token?_quote s rest) Iff.rfl
        (stands_token rfl rfl fun _ hp => .string hp)
      refine ⟨'"', s.toList.flatMap escapeChar ++ ['"'], ?_, by decide, by decide⟩
      show (quote s).toList = _
      rw [quote, String.toList_ofList]
      rfl

/-! ## §3. Operators -/

/-- An operator in front that is no letter, if what follows does not lengthen it. -/
theorem Placed.sign {op : String} {c : Char} {cs : List Char} (hop : op ∈ frontOperators)
    (hopens : Opens op) (htext : text.toList = c :: cs)
    (htoken : ∀ rest, token? (op.toList ++ c :: rest) = some (operatorToken op, c :: rest))
    (hk : 13 ≤ k) (h : Placed false k e text) :
    Placed false 13 (.unary .before op e) (op ++ text) := by
  obtain ⟨-, ts, hs, hstands⟩ := h
  refine ⟨hopens.append text, operatorToken op :: ts, ?_, ?_⟩
  · intro rest us hrest hus
    have hinside := hs rest us hrest hus
    rw [htext, List.cons_append] at hinside
    rw [String.toList_append, htext, List.append_assoc, List.cons_append]
    exact .token (htoken (cs ++ rest)) hinside
  · exact (hstands.unary hop).congr (and_iff_right hk)

/-- An operator in front that is a word, and a blank. -/
theorem Placed.keyword {op : String} (hop : op ∈ frontOperators) (hname : isIdentifier op = true)
    (htoken : operatorToken op = .word op) (hk : 13 ≤ k) (h : Placed false k e text) :
    Placed false 13 (.unary .before op e) (op ++ " " ++ text) := by
  obtain ⟨-, ts, hs, hstands⟩ := h
  refine ⟨((opens_name hname).append " ").append text, operatorToken op :: ts, ?_, ?_⟩
  · rw [String.toList_append, htoken]
    exact (spells_keyword hname).append hs fun _ _ => trivial
  · exact (hstands.unary hop).congr (and_iff_right hk)

/-- Two signs next to one another are kept apart by parentheses. -/
theorem Placed.guardedSign {op : String} (hsign : op = "-" ∨ op = "+") (hk : 13 ≤ k)
    (h : Placed false k e text) :
    Placed false 13 (.unary .before op e)
      (if startsWith "-" text || startsWith "+" text then op ++ Script.parens text
        else op ++ text) := by
  have htoken : ∀ {c : Char}, c ≠ '=' → c ≠ '-' → c ≠ '+' → ∀ rest,
      token? (op.toList ++ c :: rest) = some (operatorToken op, c :: rest) := by
    intro c h₁ h₂ h₃ rest
    rcases hsign with rfl | rfl
    · exact token?_minus h₁ h₂ rest
    · exact token?_plus h₁ h₃ rest
  have hop : op ∈ frontOperators := by rcases hsign with rfl | rfl <;> decide
  have hopens : Opens op := by
    rcases hsign with rfl | rfl
    · exact ⟨'-', [], rfl, by decide, by decide⟩
    · exact ⟨'+', [], rfl, by decide, by decide⟩
  by_cases hclash : (startsWith "-" text || startsWith "+" text) = true
  · -- two signs would make one mark, so parentheses go between them
    rw [if_pos hclash]
    exact Placed.sign hop hopens (toList_parens text)
      (fun rest => htoken (by decide) (by decide) (by decide) rest) (by omega) (h.parens false)
  · rw [if_neg hclash]
    obtain ⟨c, cs, htext, hequal, -⟩ := h.1
    have hfirst : ∀ sign : String, sign.toList = [c] → startsWith sign text = true := by
      intro sign hsign
      unfold startsWith
      rw [hsign, htext]
      simp [List.isPrefixOf]
    -- otherwise the text would have started with a sign
    have hminus : c ≠ '-' := by
      intro heq
      subst heq
      exact hclash (by rw [hfirst "-" rfl, Bool.true_or])
    have hplus : c ≠ '+' := by
      intro heq
      subst heq
      exact hclash (by rw [hfirst "+" rfl, Bool.or_true])
    exact Placed.sign hop hopens htext (htoken hequal hminus hplus) hk h

/-- A sign in front of another sign is kept apart from it by parentheses, since the two would be one
    token. -/
theorem unaryText_sign {op : String} (h : op = "-" ∨ op = "+") (text : String) :
    unaryText op text =
      if startsWith "-" text || startsWith "+" text then op ++ Script.parens text
      else op ++ text := by
  have hletter : op.toList.getLast?.any Text.isLetter = false := by
    rcases h with rfl | rfl <;> decide +kernel
  have hsign : (op == "-" || op == "+") = true := by
    rcases h with rfl | rfl <;> rfl
  simp [unaryText, hletter, hsign]

/-- A mark that joins nothing needs no parentheses. -/
theorem unaryText_mark {op : String} (h : op = "!" ∨ op = "~") (text : String) :
    unaryText op text = op ++ text := by
  have hletter : op.toList.getLast?.any Text.isLetter = false := by
    rcases h with rfl | rfl <;> decide +kernel
  have hsign : (op == "-" || op == "+") = false := by
    rcases h with rfl | rfl <;> rfl
  simp [unaryText, hletter, hsign]

/-- An operator that is a word is followed by a blank. -/
theorem unaryText_word {op : String} (h : op ∈ ["typeof", "void", "delete"]) (text : String) :
    unaryText op text = op ++ " " ++ text := by
  have hall : ∀ op ∈ ["typeof", "void", "delete"],
      op.toList.getLast?.any Text.isLetter = true ∧ (op == "-" || op == "+") = false := by
    decide +kernel
  simp [unaryText, hall op h]

/-- An operator in front of an operand at its place. -/
theorem unary_printedAs {op : String} (hop : op ∈ frontOperators) (hk : 13 ≤ k)
    (h : Placed false k e text) :
    Placed false 13 (.unary .before op e) (unaryText op text) := by
  -- a word is set apart by a blank, whatever follows it
  have hword : op ∈ ["typeof", "void", "delete"] →
      Placed false 13 (.unary .before op e) (unaryText op text) := by
    intro hmem
    have hall : ∀ op ∈ ["typeof", "void", "delete"],
        isIdentifier op = true ∧ operatorToken op = .word op := by decide +kernel
    rw [unaryText_word hmem]
    exact h.keyword hop (hall op hmem).1 (hall op hmem).2 hk
  obtain ⟨c, cs, htext, hequal, -⟩ := h.1
  simp only [frontOperators, List.mem_cons, List.not_mem_nil, or_false] at hop
  rcases hop with rfl | rfl | rfl | rfl | rfl | rfl | rfl
  · rw [unaryText_mark (.inl rfl)]
    exact h.sign (by decide) ⟨'!', [], rfl, by decide, by decide⟩ htext
      (fun rest => token?_bang hequal rest) hk
  · rw [unaryText_sign (.inl rfl)]
    exact h.guardedSign (.inl rfl) hk
  · rw [unaryText_sign (.inr rfl)]
    exact h.guardedSign (.inr rfl) hk
  · rw [unaryText_mark (.inr rfl)]
    exact h.sign (by decide) ⟨'~', [], rfl, by decide, by decide⟩ htext
      (fun rest => token?_tilde (c :: rest)) hk
  · exact hword (by decide)
  · exact hword (by decide)
  · exact hword (by decide)

/-- A binary operator is weaker than a call. -/
theorem takesPoint_binary {op : String} {o : Operation} (hop : (op, o) ∈ operations) :
    (Expr.binary op left right).takesPoint = false := by
  have hbounds := (Operators.Reader.climbs_of_mem hop).level
  have hstrength : (Expr.binary op left right).strength < callStrength := by
    show (binaryStrength? op).getD assignStrength < 18
    rw [(operation_strength hop).1, Option.getD_some]
    unfold strengthOf
    split <;> omega
  unfold Expr.takesPoint
  rw [decide_eq_false (by omega), Bool.false_and]

/-- An operator between two operands at their places. -/
theorem binary_printedAs {op leftText rightText : String} {o : Operation}
    (hop : (op, o) ∈ operations) (hl : left.Known) (hr : right.Known)
    (hleft : left.PrintedAs leftText) (hright : right.PrintedAs rightText) :
    (Expr.binary op left right).PrintedAs
      (guarded (operandStrengths op).1 left leftText ++ " " ++ op ++ " " ++
        guarded (operandStrengths op).2 right rightText) := by
  obtain ⟨hopens, us, hus, hstands⟩ := hleft.guarded (operandStrengths op).1
  obtain ⟨-, vs, hvs, hstands'⟩ := hright.guarded (operandStrengths op).2
  have hlevel : (Expr.binary op left right).level = o.level := Operators.Reader.levelOf_eq hop
  show Placed _ _ _ _
  rw [hlevel, takesPoint_binary hop]
  refine ⟨(((hopens.append _).append _).append _).append _, us ++ operatorToken op :: vs,
    spells_binary hop hus hvs, ?_⟩
  refine (hstands.binary hop hstands').congr ?_
  show _ ↔ Separate op left right ∧ left.Separable ∧ right.Separable
  rw [← admits_iff_separate hop hl.weighed hr.weighed]
  exact and_and_and_comm.trans Iff.rfl

/-- An assignment to a target, which needs no parentheses. -/
theorem assign_printedAs {leftText rightText : String} (htarget : isTarget left = true)
    (hl : left.Known) (hleft : left.PrintedAs leftText) (hright : right.PrintedAs rightText) :
    (Expr.assign "=" left right).PrintedAs
      (guarded callStrength left leftText ++ " " ++ "=" ++ " " ++
        guarded assignStrength right rightText) := by
  obtain ⟨hopens, us, hus, hstands⟩ := hleft.guarded callStrength
  obtain ⟨-, vs, hvs, hstands'⟩ := hright.guarded assignStrength
  have htarget' : isTarget left.signed = true ∧ left.isNegative = false := by
    cases left with
    | identifier name => exact ⟨rfl, rfl⟩
    | member object property => exact ⟨rfl, rfl⟩
    | _ => exact absurd htarget (by simp [isTarget])
  -- a target is never negative, so it stands where a target may
  have hlevel : 14 ≤ left.levelAt callStrength :=
    (hl.weighed.call_le_levelAt_iff (by decide) (by decide)).2 htarget'.2
  refine ⟨(((hopens.append _).append _).append _).append _, us ++ .mark "=" :: vs,
    spells_operation (by decide) hus hvs, ?_⟩
  exact (hstands.assign htarget'.1 hstands').congr (by rw [and_iff_right hlevel]; rfl)

/-- A negative number is written with digits. -/
theorem isNegative_of_isNumeric (h : e.isNumeric = false) : e.isNegative = false := by
  cases e with
  | literal value =>
      cases value with
      | integer n => exact absurd h (by simp [Expr.isNumeric, Literal.isNumeric])
      | _ => rfl
  | _ => rfl

/-- The object of a member, in front of a point. Only a number would take the point for its own,
    and it stands in parentheses. -/
theorem object_placed (he : e.Known) (h : e.PrintedAs text) :
    ∃ k, 14 ≤ k ∧ Placed true k e
      (if e.isNumeric then Script.parens text else guarded callStrength e text) := by
  cases hnumeric : e.isNumeric with
  -- the point behind a number would be read as part of it
  | true => exact ⟨15, by omega, Placed.parens h true⟩
  | false =>
      unfold guarded
      rw [if_neg (by decide)]
      by_cases hweak : e.strength < callStrength
      · rw [if_pos hweak]
        exact ⟨15, by omega, Placed.parens h true⟩
      · rw [if_neg hweak]
        -- anything else that is not in parentheses takes a point as it is
        have hpoint : e.takesPoint = true := by
          unfold Expr.takesPoint
          rw [decide_eq_true (by omega), hnumeric]
          rfl
        have hlevel : 14 ≤ e.levelAt callStrength :=
          (he.weighed.call_le_levelAt_iff (by decide) (by decide)).2
            (isNegative_of_isNumeric hnumeric)
        unfold Expr.levelAt at hlevel
        rw [if_neg hweak] at hlevel
        unfold Expr.PrintedAs at h
        rw [hpoint] at h
        exact ⟨e.level, hlevel, h⟩

/-- A member of an object. -/
theorem member_printedAs {property : String} (hp : isIdentifier property = true) (he : e.Known)
    (h : e.PrintedAs text) :
    (Expr.member e property).PrintedAs
      ((if e.isNumeric then parens text else guarded callStrength e text) ++ "." ++ property) := by
  obtain ⟨k, hk, hopens, ts, hs, hstands⟩ := object_placed he h
  refine ⟨(hopens.append _).append _, ts ++ [.mark ".", .word property], ?_, ?_⟩
  · obtain ⟨c, cs, hproperty, hc, -⟩ := Naming.isIdentifier_iff.1 hp
    intro rest us hrest hus
    have hword := spells_word hp rest us hrest hus
    -- a letter follows the point, so it starts no number
    have hpoint : Tokenized ('.' :: (property.toList ++ rest))
        (.mark "." :: .word property :: us) := by
      refine .token ?_ hword
      rw [hproperty, List.cons_append]
      exact token?_point hc (cs ++ rest)
    have hall := hs ('.' :: (property.toList ++ rest)) _ rfl hpoint
    simp only [String.toList_append, List.append_assoc]
    exact hall
  · exact (hstands.member property).congr (and_iff_right hk)

/-- Texts with commas between them stand for arguments exactly if these are separable. -/
def PrintedAll (es : List Expr) (text : String) : Prop :=
  ∃ ts, Spells (Breaks false) text.toList ts ∧
    StandsForAll ts (Expr.signedAll es) (Expr.SeparableAll es)

/-- A call with arguments. -/
theorem call_printedAs {es : List Expr} {argumentsText : String} (he : e.Known)
    (h : e.PrintedAs text) (ha : PrintedAll es argumentsText) :
    (Expr.call e es).PrintedAs (guarded callStrength e text ++ parens argumentsText) := by
  obtain ⟨hopens, us, hus, hstands⟩ := h.guarded callStrength
  obtain ⟨vs, hvs, hstands'⟩ := ha
  refine ⟨hopens.append _, us ++ inParens vs, ?_, ?_⟩
  · have hall := hus.append (spells_parens hvs) fun rest _ => by
      rw [toList_parens]
      rfl
    rw [String.toList_append]
    exact hall.weaken fun _ _ => trivial
  · refine (hstands.call hstands').congr ?_
    rw [he.weighed.call_le_levelAt_iff (by decide) (by decide), and_assoc]
    rfl

/-- The parameters of a function. -/
theorem parameters_printed {xs : List String} (h : ∀ x ∈ xs, IsName x) :
    Spells (Breaks false) (commas xs).toList (parameterTokens xs) := by
  induction xs with
  | nil =>
      intro rest us _ hus
      exact hus
  | cons x xs ih =>
      rw [List.forall_mem_cons] at h
      have hword : Spells (Breaks false) x.toList [.word x] :=
        (spells_word h.1.1).weaken fun _ hrest => hrest.weaken true
      cases xs with
      | nil => exact hword
      | cons y xs => exact spells_comma hword (ih h.2)

/-- A function without statements. -/
theorem function_printedAs {xs : List String} (width level : Nat) (h : ∀ x ∈ xs, IsName x) :
    (Expr.function xs []).PrintedAs
      ("function " ++ parens (commas xs) ++ " \x7b\n" ++ Stmt.lines width [] (level + 1) ++
        indent width level ++ "\x7d") := by
  have hparameters := spells_parens (parameters_printed h)
  have hword : Spells Anything ("function" ++ " ").toList [.word "function"] :=
    spells_keyword (by decide)
  have hopen : Spells Anything (" \x7b\n").toList [.mark "\x7b"] := by
    intro rest us _ hus
    exact .layout rfl (.token rfl (.layout rfl hus))
  have hclose : Spells Anything ("\x7d").toList [.mark "\x7d"] := spells_bracket (by decide)
  have hbody := (hopen.append (spells_indent width level) fun _ _ => trivial).append hclose
    fun _ _ => trivial
  have hall := (hword.append hparameters fun _ _ => trivial).append hbody fun _ _ => trivial
  have hfirst : Opens "function " := ⟨'f', _, rfl, by decide, by decide⟩
  -- with no statements in it the body is an empty pair of braces
  have htext : ("function " ++ Script.parens (commas xs) ++ " \x7b\n" ++
      Stmt.lines width [] (level + 1) ++ indent width level ++ "\x7d").toList =
        ("function" ++ " ").toList ++ (Script.parens (commas xs)).toList ++
          (" \x7b\n".toList ++ (indent width level).toList ++ "\x7d".toList) := by
    simp only [Stmt.lines, String.toList_append, List.append_assoc]
    rfl
  refine ⟨((((hfirst.append _).append _).append _).append _).append _, _, ?_,
    (stands_function fun x hx => (h x hx).2).congr Iff.rfl⟩
  rw [htext]
  exact hall.weaken fun _ _ => trivial

mutual

/-- **EXPRESSIONS ARE PRINTED AS THEY ARE READ, IF THEY ARE SEPARABLE**: the text of an expression
    that the printer knows stands for tokens that stand for the expression in just that case. -/
theorem Expr.printedAs (width : Nat) : ∀ e : Expr, e.Known → ∀ level,
    e.PrintedAs (e.text width level)
  | .identifier _, h, _ => identifier_printedAs h
  | .literal _, h, _ => literal_printedAs h
  | .call callee arguments, h, level =>
      call_printedAs h.1 (Expr.printedAs width callee h.1 level)
        (Expr.printedAll width arguments h.2 level)
  | .member object _, h, level =>
      member_printedAs h.2 h.1 (Expr.printedAs width object h.1 level)
  | .assign op left right, h, level => by
      obtain ⟨rfl, htarget, hl, hr⟩ := h
      exact assign_printedAs htarget hl (Expr.printedAs width left hl level)
        (Expr.printedAs width right hr level)
  | .unary side op argument, h, level => by
      obtain ⟨rfl, hop, ha⟩ := h
      -- the place behind an operator in front is level with it
      have hlevel : 13 ≤ argument.levelAt beforeStrength :=
        ha.weighed.le_levelAt (k := 13) (by omega) (by omega)
      exact unary_printedAs hop hlevel ((Expr.printedAs width argument ha level).guarded _)
  | .binary op left right, h, level => by
      obtain ⟨o, hop⟩ := exists_operation h.1
      exact binary_printedAs hop h.2.1 h.2.2 (Expr.printedAs width left h.2.1 level)
        (Expr.printedAs width right h.2.2 level)
  | .function parameters body, h, level => by
      obtain ⟨hparameters, rfl⟩ := h
      exact function_printedAs width level hparameters

/-- Arguments are printed one by one, with commas between them. -/
theorem Expr.printedAll (width : Nat) : ∀ es : List Expr, Expr.KnownAll es → ∀ level,
    PrintedAll es (commas (Expr.texts width es level))
  | [], _, _ => by
      refine ⟨[], ?_, standsForAll_nil⟩
      intro rest us _ hus
      exact hus
  | [e], h, level => by
      obtain ⟨-, ts, hs, hstands⟩ := (Expr.printedAs width e h.1 level).guarded assignStrength
      exact ⟨ts, hs, hstands.single.congr (iff_of_eq (and_true _).symm)⟩
  | e :: f :: es, h, level => by
      obtain ⟨-, us, hus, hstands⟩ := (Expr.printedAs width e h.1 level).guarded assignStrength
      obtain ⟨vs, hvs, hstands'⟩ := Expr.printedAll width (f :: es) h.2 level
      refine ⟨us ++ .mark "," :: vs, spells_comma hus hvs, ?_⟩
      exact hstands.more (List.cons_ne_nil _ _) hstands'

end

/-! ## §4. Statements -/

/-- A mark is spelled as the text it takes. -/
theorem mark?_text {t : Token} {chars rest : List Char} (h : mark? chars = some (t, rest)) :
    ∃ m, t = .mark m ∧ chars = m.toList ++ rest := by
  unfold mark? at h
  split at h
  next => exact absurd h (by simp)
  next =>
    split at h
    next => exact absurd h (by simp)
    next =>
      obtain ⟨m, hm, heq⟩ := Option.map_eq_some_iff.1 h
      obtain ⟨rfl, rfl⟩ := Prod.mk.inj heq
      -- the mark that is found starts the text
      have hfound := List.find?_some hm
      obtain ⟨tail, rfl⟩ := List.isPrefixOf_iff_prefix.1 hfound
      exact ⟨m, rfl, by rw [List.drop_left]⟩

theorem numeral?_token {t : Token} {chars rest : List Char}
    (h : numeral? chars = some (t, rest)) : ∃ n, t = .number n := by
  unfold numeral? at h
  dsimp only at h
  split at h
  next => exact absurd h (by simp)
  next =>
    split at h
    next => exact absurd h (by simp)
    next =>
      obtain ⟨rfl, -⟩ := Prod.mk.inj (Option.some.inj h)
      exact ⟨_, rfl⟩

/-- A word or a mark stands in the text as it is. -/
theorem token?_text {t : Token} {chars rest : List Char} (h : token? chars = some (t, rest))
    {text : String} (ht : t = .word text ∨ t = .mark text) : chars = text.toList ++ rest := by
  rw [token?.eq_def] at h
  split at h
  next => exact absurd h (by simp)
  next =>
    -- what starts with a quote is a string
    obtain ⟨_, -, heq⟩ := Option.map_eq_some_iff.1 h
    obtain ⟨rfl, -⟩ := Prod.mk.inj heq
    rcases ht with ht | ht <;> cases ht
  next c cs _ =>
    by_cases hstart : isIdentifierStart c = true
    · rw [if_pos hstart] at h
      obtain ⟨rfl, rfl⟩ := Prod.mk.inj (Option.some.inj h)
      rcases ht with ht | ht
      · injection ht with ht
        subst ht
        rw [String.toList_ofList, List.cons_append, List.takeWhile_append_dropWhile]
      · cases ht
    · rw [if_neg hstart] at h
      by_cases hdigit : c.isDigit = true
      · rw [if_pos hdigit] at h
        -- what starts with a digit is a number
        obtain ⟨_, rfl⟩ := numeral?_token h
        rcases ht with ht | ht <;> cases ht
      · rw [if_neg hdigit] at h
        obtain ⟨m, rfl, hchars⟩ := mark?_text h
        rcases ht with ht | ht
        · cases ht
        · injection ht with ht
          subst ht
          exact hchars

/-- A text whose first token is a word or a mark starts with it. -/
theorem startsWith_of_token {ts : List Token} {t : Token} {start : String}
    (hopens : Opens text) (hs : Spells (Breaks point) text.toList ts) (hhead : ts.head? = some t)
    (ht : t = .word start ∨ t = .mark start) (hstart : ';' ∉ start.toList) :
    startsWith start text = true := by
  obtain ⟨c, cs, htext, -, hlayout⟩ := hopens
  obtain ⟨tail, rfl⟩ : ∃ tail, ts = t :: tail := by
    cases ts with
    | nil => exact absurd hhead (by simp)
    | cons u tail =>
        obtain rfl := Option.some.inj hhead
        exact ⟨tail, rfl⟩
  have htokens := hs [';'] [.mark ";"] (by cases point <;> rfl)
    (.token (token?_bracket (show ";" ∈ brackets by decide) []) .nil)
  rw [htext, List.cons_append, List.cons_append] at htokens
  -- the first character is not skipped, so the first token is taken right there
  cases htokens with
  | layout hc _ => exact absurd hc (by rw [hlayout]; decide)
  | token htoken _ =>
      have hchars := token?_text htoken ht
      unfold startsWith
      rw [List.isPrefixOf_iff_prefix, htext]
      rw [← List.cons_append] at hchars
      rcases List.append_eq_append_iff.1 hchars with ⟨d, hd, hrest⟩ | ⟨d, hd, -⟩
      · rcases List.cons_eq_append_iff.1 hrest with ⟨rfl, -⟩ | ⟨d, rfl, -⟩
        · exact ⟨[], by rw [hd, List.append_nil, List.append_nil]⟩
        · exact absurd (by rw [hd]; simp) hstart
      · exact ⟨d, hd.symm⟩

/-- An expression as a statement starts with neither a function nor a block. -/
theorem statement_placed (h : Placed point k e text) :
    ∃ ts j, Spells (Breaks false) (statementText text).toList ts ∧
      Stands ts e.signed j e.Separable ∧ ts.head? ≠ some (.word "function") ∧
      ts.head? ≠ some (.mark "\x7b") := by
  unfold statementText
  by_cases hstart : (startsWith "function" text || startsWith "\x7b" text) = true
  · -- in parentheses the expression starts with neither of the two
    rw [if_pos hstart]
    obtain ⟨-, ts, hs, hstands⟩ := h
    refine ⟨inParens ts, 15, (spells_parens hs).weaken fun _ _ => trivial, hstands.inParens, ?_, ?_⟩
    · simp [inParens]
    · simp [inParens]
  · rw [if_neg hstart]
    rw [Bool.or_eq_true, not_or] at hstart
    obtain ⟨hopens, ts, hs, hstands⟩ := h
    refine ⟨ts, k, hs.weaken fun _ hrest => hrest.weaken _, hstands, ?_, ?_⟩
    · -- the first token would have stood at the start of the text
      intro hhead
      exact hstart.1 (startsWith_of_token hopens hs hhead (.inl rfl) (by decide))
    · intro hhead
      exact hstart.2 (startsWith_of_token hopens hs hhead (.inr rfl) (by decide))

end Placed

/-- The text of an expression as a statement, and its tokens. -/
theorem print_tokenized (width : Nat) {e : Expr} (h : e.Known) :
    ∃ ts j, Tokenized (print width [.expression e]).toList (ts ++ [.mark ";"]) ∧
      Stands ts e.signed j e.Separable ∧ ts.head? ≠ some (.word "function") ∧
      ts.head? ≠ some (.mark "\x7b") := by
  obtain ⟨ts, j, hs, hstands, hfunction, hblock⟩ := statement_placed (Expr.printedAs width e h 0)
  refine ⟨ts, j, ?_, hstands, hfunction, hblock⟩
  have hstatement := spells_semicolon hs
  have hline : Spells Anything "\n".toList [] := spells_layout rfl
  -- the line consists of the indentation, the statement and its end
  have hall := ((spells_indent width 0).append hstatement fun _ _ => trivial).append hline
    fun _ _ => trivial
  have hend := hall [] [] trivial .nil
  have htext : (print width [.expression e]).toList =
      (indent width 0).toList ++ (statementText (e.text width 0) ++ ";").toList ++ "\n".toList ++
        [] := by
    simp only [print, Stmt.lines, Stmt.text, String.toList_append, List.append_assoc]
    rfl
  rw [htext]
  simpa using hend

/-- The text of an expression is read as the expression exactly if it is separable. -/
theorem reads_signed_iff (width : Nat) {e : Expr} (h : e.Known) :
    Operators.Reads (print width [.expression e]) e.signed ↔ e.Separable := by
  obtain ⟨ts, j, htokens, hstands, hfunction, hblock⟩ := print_tokenized width h
  constructor
  · intro hreads
    obtain ⟨us, hus, -, -, hphrase⟩ := hreads
    obtain rfl := List.append_cancel_right (htokens.unique hus)
    exact ((hstands.phrase_iff _).1 hphrase).2
  · intro hseparable
    exact ⟨ts, htokens, hfunction, hblock,
      (hstands.phrase_iff _).2 ⟨Nat.zero_le j, hseparable⟩⟩

/-- **WHICH EXPRESSIONS ARE READ BACK AS THEY WERE PRINTED**: for every expression that the printer
    knows, its text as a statement is read as the expression and as no other one if and only if
    the expression is separable. -/
theorem print_reads_iff_separable (width : Nat) {e : Expr} (h : e.Known) :
    (∀ e', Operators.Reads (print width [.expression e]) e' ↔ e' = e.signed) ↔ e.Separable := by
  constructor
  · intro hall
    exact (reads_signed_iff width h).1 ((hall e.signed).2 rfl)
  · intro hseparable e'
    have hreads := (reads_signed_iff width h).2 hseparable
    constructor
    · intro hother
      exact hother.unique hreads
    · intro heq
      subst heq
      exact hreads

/-- `function (x) { }(-1) ?? a ** -(-2)`: a function that is called, a negative number behind a
    power, and two signs. -/
def Expr.calledFunction : Expr :=
  .binary "??" (.call (.function ["x"] []) [.literal (.integer (-1))])
    (.binary "**" (.identifier "a") (.unary .before "-" (.literal (.integer (-2)))))

theorem print_reads_iff_separable_calledFunction :
    Expr.calledFunction.Known ∧ Expr.calledFunction.Separable ∧
      ∀ e', Operators.Reads (print 2 [.expression Expr.calledFunction]) e' ↔
        e' = Expr.calledFunction.signed := by
  have hknown : Expr.calledFunction.Known := by
    refine ⟨rfl, ⟨⟨?_, rfl⟩, trivial, trivial⟩, rfl, ⟨by decide, by decide⟩, rfl, by decide,
      trivial⟩
    intro x hx
    obtain rfl := List.mem_singleton.1 hx
    exact ⟨by decide, by decide⟩
  have hseparable : Expr.calledFunction.Separable := by
    simp [Expr.calledFunction, Expr.Separable, Expr.SeparableAll, Separate, Expr.isOperation,
      Expr.isNegative]
  exact ⟨hknown, hseparable, (print_reads_iff_separable 2 hknown).2 hseparable⟩

/-- `a ?? b || c`, with `??` on the left. -/
def Expr.mixedLogic : Expr :=
  .binary "||" (.binary "??" (.identifier "a") (.identifier "b")) (.identifier "c")

/-- The number `-1` to the power of `2`. -/
def Expr.negativePower : Expr := .binary "**" (.literal (.integer (-1))) (.literal (.integer 2))

/-- A call of the number `-1`. -/
def Expr.negativeCall : Expr := .call (.literal (.integer (-1))) []

/-- **THREE GAPS**: neither of these texts is read as the expression that was printed, and the last
    one is read as another expression, the negative of a call. -/
theorem print_misread :
    (Expr.mixedLogic.Known ∧ print 2 [.expression Expr.mixedLogic] = "a ?? b || c;\n" ∧
      ¬ Operators.Reads (print 2 [.expression Expr.mixedLogic]) Expr.mixedLogic.signed) ∧
    (Expr.negativePower.Known ∧ print 2 [.expression Expr.negativePower] = "-1 ** 2;\n" ∧
      ¬ Operators.Reads (print 2 [.expression Expr.negativePower]) Expr.negativePower.signed) ∧
    (Expr.negativeCall.Known ∧ print 2 [.expression Expr.negativeCall] = "-1();\n" ∧
      ¬ Operators.Reads (print 2 [.expression Expr.negativeCall]) Expr.negativeCall.signed ∧
      Operators.Reads (print 2 [.expression Expr.negativeCall])
        (.unary .before "-" (.call (.literal (.integer 1)) []))) := by
  have hmixed : Expr.mixedLogic.Known :=
    ⟨rfl, ⟨rfl, ⟨by decide, by decide⟩, ⟨by decide, by decide⟩⟩, ⟨by decide, by decide⟩⟩
  have hpower : Expr.negativePower.Known := ⟨rfl, trivial, trivial⟩
  have hcall : Expr.negativeCall.Known := ⟨trivial, trivial⟩
  have hother : (Expr.unary .before "-" (.call (.literal (.integer 1)) [])).Known :=
    ⟨rfl, by decide, trivial, trivial⟩
  refine ⟨⟨hmixed, by decide +kernel, ?_⟩, ⟨hpower, by decide +kernel, ?_⟩,
    hcall, by decide +kernel, ?_, ?_⟩
  · rw [reads_signed_iff 2 hmixed]
    simp [Expr.mixedLogic, Expr.Separable, Separate, Expr.isOperation]
  · rw [reads_signed_iff 2 hpower]
    simp [Expr.negativePower, Expr.Separable, Separate, Expr.isNegative]
  · rw [reads_signed_iff 2 hcall]
    simp [Expr.negativeCall, Expr.Separable, Expr.isNegative]
  · -- the call of a negative number is printed as the negation of a call
    have htext : print 2 [.expression Expr.negativeCall] =
        print 2 [.expression (.unary .before "-" (.call (.literal (.integer 1)) []))] := by
      decide +kernel
    rw [htext]
    refine (reads_signed_iff 2 hother).2 ?_
    simp [Expr.Separable, Expr.SeparableAll, Expr.isNegative]

end TinyLang.Script
