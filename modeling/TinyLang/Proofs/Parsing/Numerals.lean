/-
  TinyLang.Proofs.Parsing.Numerals — a numeral keeps its value, up to the greatest literal.

  A numeral is any text of digits, however long and with any zeros in front.  All numerals of
  a number are its shortest one behind zeros:

      text = 0…0 ++ digits of the value of text

  The program that outputs a numeral is compiled exactly if the value is no greater than
  2 ^ 63 - 1.  The script then outputs the shortest numeral of the value; any other numeral is
  an error where its first digit stands.
-/

import Mathlib.Data.List.Induction
import TinyLang.Proofs.Json.Scalars
import TinyLang.Proofs.Lexing.Cut
import TinyLang.Proofs.Lowering.Direct
import TinyLang.Proofs.Parsing.Complete

namespace TinyLang

open Grammar (decimal)

/-! ## §1. Shortest numerals -/

theorem digitChar_of_isDigit {c : Char} (h : c.isDigit = true) : (c.toNat - 48).digitChar = c := by
  have hrange := Lexer.isDigit_range h
  apply Char.toNat_inj.1
  rw [Nat.toNat_digitChar_of_lt_ten (by omega)]
  omega

/-- One digit more makes the value ten times as great and adds the digit. -/
theorem ofDigitChars_concat (text : List Char) (c : Char) :
    Nat.ofDigitChars 10 (text ++ [c]) 0 = 10 * Nat.ofDigitChars 10 text 0 + (c.toNat - 48) := by
  rw [Nat.ofDigitChars_append]
  rfl

/-- Digits are zeros and then the digits of their value. -/
theorem digits_eq_zeros_append {text : List Char} (hne : text ≠ [])
    (hdigits : text.all Char.isDigit = true) :
    ∃ k, text = List.replicate k '0' ++ Nat.toDigits 10 (Nat.ofDigitChars 10 text 0) := by
  -- the last digit is taken off, as `Nat.toDigits` puts it on
  induction text using List.reverseRecOn with
  | nil => exact absurd rfl hne
  | append_singleton text c ih =>
      rw [List.all_append, Bool.and_eq_true, List.all_cons, Bool.and_eq_true] at hdigits
      obtain ⟨htext, hc, -⟩ := hdigits
      have hrange := Lexer.isDigit_range hc
      have hlast : Nat.toDigits 10 (c.toNat - 48) = [c] := by
        rw [Nat.toDigits_of_lt_base (by omega), digitChar_of_isDigit hc]
      rw [ofDigitChars_concat]
      by_cases hnil : text = []
      · subst hnil
        refine ⟨0, ?_⟩
        show [c] = Nat.toDigits 10 (10 * 0 + (c.toNat - 48))
        rw [Nat.mul_zero, Nat.zero_add, hlast]
      · obtain ⟨k, hk⟩ := ih hnil htext
        by_cases hzero : Nat.ofDigitChars 10 text 0 = 0
        · -- all digits so far are zeros, and so is the one that stands for their value
          refine ⟨k + 1, ?_⟩
          rw [hzero] at hk ⊢
          rw [Nat.mul_zero, Nat.zero_add, hlast, List.replicate_succ', hk]
          rfl
        · refine ⟨k, ?_⟩
          rw [← Nat.toDigits_append_toDigits (by omega) (by omega) (by omega), hlast,
            ← List.append_assoc, ← hk]

/-- The shortest numeral of a number: it has the number as its value, starts with a zero only if it
    is `0`, and every other numeral of the number is longer. -/
structure IsShortestNumeral (text : String) (n : Nat) : Prop where
  numeral : IsNumeral text
  value : decimal text = n
  leading : text.toList.head? = some '0' → text = "0"
  shortest : ∀ other, IsNumeral other → decimal other = n →
    other = text ∨ text.length < other.length

/-- The digits of a number are a shortest numeral for it. -/
theorem isShortestNumeral_repr (n : Nat) : IsShortestNumeral n.repr n where
  numeral := by
    have hdigits := Lexer.isNumeral_toDigits n
    rw [← Nat.toList_repr, String.ofList_toList] at hdigits
    exact hdigits
  value := by
    unfold decimal
    rw [Nat.toList_repr, Nat.ofDigitChars_ten_toDigits]
  leading := by
    intro hhead
    rw [Nat.toList_repr] at hhead
    rcases Nat.eq_zero_or_pos n with rfl | hpos
    · rfl
    · obtain ⟨c, cs, hdigits, hc⟩ := Json.toDigits_head n hpos
      rw [hdigits] at hhead
      exact absurd (Option.some.inj hhead) hc
  shortest := by
    rintro other ⟨c, cs, rfl, hc, hcs⟩ hvalue
    have hall : (c :: cs).all Char.isDigit = true := by
      rw [List.all_cons, hc, hcs]
      rfl
    obtain ⟨k, hk⟩ := digits_eq_zeros_append (List.cons_ne_nil c cs) hall
    unfold decimal at hvalue
    rw [String.toList_ofList] at hvalue
    rw [hvalue, ← Nat.toList_repr] at hk
    -- without zeros in front it is the same numeral, with any it is longer
    cases k with
    | zero =>
        left
        rw [hk]
        exact String.ofList_toList
    | succ k =>
        right
        rw [hk, String.length_ofList, List.length_append, List.length_replicate,
          String.length_toList]
        omega

/-! ## §2. The program that outputs a numeral -/

/-- The program that outputs a numeral. -/
def outputSource (digits : String) : String := "\x7b output " ++ digits ++ "; \x7d"

namespace Lexer

/-- The pieces of the program that outputs a numeral. -/
def outputPieces (digits : List Char) : List Piece :=
  [⟨some (.symbol .leftBrace), ['{']⟩, ⟨none, [' ']⟩,
    ⟨some (.keyword .outputKw), ['o', 'u', 't', 'p', 'u', 't']⟩, ⟨none, [' ']⟩,
    ⟨some .number, digits⟩, ⟨some (.symbol .semicolon), [';']⟩, ⟨none, [' ']⟩,
    ⟨some (.symbol .rightBrace), ['}']⟩]

/-- The pieces of a program that outputs a numeral can be cut one after the other. -/
theorem cutAll_outputPieces {c : Char} {text : List Char} (hc : c.isDigit = true)
    (ht : text.all Char.isDigit = true) : CutAll (outputPieces (c :: text)) [] := by
  have hblank : Text.isBlank c = false := isDigit_only hc
  refine ⟨cut_symbol rfl ?_, .blanks rfl rfl rfl,
    @Cut.word 'o' ['u', 't', 'p', 'u', 't'] _ rfl rfl rfl, .blanks rfl rfl ?_, .number hc ht rfl,
    cut_symbol rfl ?_, .blanks rfl rfl rfl, cut_symbol rfl ?_, trivial⟩
  · intro d hd
    obtain rfl : ' ' = d := Option.some.inj hd
    exact ⟨rfl, by decide⟩
  · -- a digit ends the blanks in front of it
    show (!Text.isBlank c) = true
    rw [hblank]
    rfl
  · intro d hd
    obtain rfl : ' ' = d := Option.some.inj hd
    exact ⟨rfl, by decide⟩
  · intro d hd
    exact absurd hd (by simp)

/-- The program that outputs a numeral is cut into the pieces it was put together of. -/
theorem pieces_outputSource {c : Char} {text : List Char} (hc : c.isDigit = true)
    (ht : text.all Char.isDigit = true) :
    pieces (outputSource (String.ofList (c :: text))).toList = outputPieces (c :: text) := by
  have hsource : (outputSource (String.ofList (c :: text))).toList =
      (outputPieces (c :: text)).flatMap Piece.text ++ [] := by
    unfold outputSource
    rw [String.toList_append, String.toList_append, String.toList_ofList]
    simp [outputPieces]
  rw [hsource, (cutAll_outputPieces hc ht).pieces]
  rfl

end Lexer

namespace Parse

/-- A number in front of what is no operator is an expression of its own. -/
theorem expression_number (last stop : Position) (text : String) (place : Location) {u : Token}
    (hu : precedence? u.kind = none) (more : List Token) :
    expression ⟨last, ⟨.number, text, place⟩ :: u :: more, stop⟩ =
      (number ⟨.number, text, place⟩).map fun e => (e, ⟨place.stop, u :: more, stop⟩) := by
  show ((number ⟨.number, text, place⟩ >>= fun e =>
      .ok (e, ⟨place.stop, u :: more, stop⟩)) >>= fun r =>
        operators (operand (more.length + 2)) r.2.tokens.length 1 place.start r.1 r.2) = _
  cases number ⟨.number, text, place⟩ with
  | error e => rfl
  | ok e =>
      refine operators_stop _ ?_
      intro p hp
      exact absurd (hu.symm.trans hp) (by simp)

/-- The statement that outputs a number stands or falls with the number. -/
theorem statement_output (bound : Nat) (last stop : Position) (out text mark : String)
    (l place m : Location) (more : List Token) :
    statement (bound + 1) ⟨last, ⟨.keyword .outputKw, out, l⟩ :: ⟨.number, text, place⟩ ::
        ⟨.symbol .semicolon, mark, m⟩ :: more, stop⟩ =
      (number ⟨.number, text, place⟩).map fun e =>
        (.output ⟨l.start, m.stop⟩ e, ⟨m.stop, more, stop⟩) := by
  show (expression ⟨l.stop, _, stop⟩ >>= _) = _
  rw [expression_number _ _ _ _ rfl]
  cases number ⟨.number, text, place⟩ <;> rfl

/-- A program of a block with one such statement stands or falls with the number, too. -/
theorem program_output (last stop : Position) (opening out text mark closing : String)
    (k l place m n : Location) :
    program ⟨last, [⟨.symbol .leftBrace, opening, k⟩, ⟨.keyword .outputKw, out, l⟩,
        ⟨.number, text, place⟩, ⟨.symbol .semicolon, mark, m⟩,
        ⟨.symbol .rightBrace, closing, n⟩], stop⟩ =
      (number ⟨.number, text, place⟩).map fun e =>
        ⟨⟨k.start, n.stop⟩, [], .block ⟨k.start, n.stop⟩ [.output ⟨l.start, m.stop⟩ e]⟩ := by
  show (((statement 5 ⟨k.stop, _, stop⟩ >>= _) >>= _) >>= _) = _
  rw [statement_output]
  cases number ⟨.number, text, place⟩ <;> rfl

end Parse

/-- The program that outputs a numeral is refused for its numeral only. -/
theorem parse_outputSource {digits : String} (h : IsNumeral digits) :
    ∃ (stop : Position) (whole outer inner : Location),
      Program.parse (outputSource digits) =
        (Parse.number ⟨.number, digits, ⟨⟨9, 1, 10⟩, stop⟩⟩).map fun e =>
          ⟨whole, [], .block outer [.output inner e]⟩ := by
  obtain ⟨c, text, rfl, hc, ht⟩ := h
  unfold Program.parse Lexed.ofSource
  rw [Lexer.pieces_outputSource hc ht]
  exact ⟨_, _, _, _, Parse.program_output _ _ _ _ _ _ _ _ _ _ _ _⟩

/-! ## §3. Its script -/

/-- The script that outputs an argument: it loads the runtime and hands the argument over. -/
def outputText (names : Naming) (argument : String) : String :=
  "var " ++ names.binding ++ " = require(" ++ Script.quote names.path ++ ");\n\x7b\n  " ++
    Script.statementText (names.binding ++ ".output(" ++ argument ++ ")") ++ ";\n\x7d\n"

/-- The statement that loads the runtime stands on one line, at any width. -/
theorem importRuntime_text (names : Naming) (width level : Nat) :
    (Lowering.importRuntime names).text width level =
      "var " ++ names.binding ++ " = require(" ++ Script.quote names.path ++ ");" := by
  show "var" ++ " " ++ (names.binding ++ " = " ++
    ("require" ++ ("(" ++ Script.quote names.path ++ ")"))) ++ ";" = _
  simp only [String.append_assoc]
  rfl

theorem callRuntime_output_text (names : Naming) (n : Int) (width level : Nat) :
    (Lowering.callRuntime names Naming.outputMember [.literal (.integer n)]).text width level =
      names.binding ++ ".output(" ++ n.repr ++ ")" := by
  show (names.binding ++ "." ++ "output") ++ ("(" ++ n.repr ++ ")") = _
  simp only [String.append_assoc]
  rfl

/-- **A numeral is printed as it was read**: between the import and the end stands one call with its
    digits. -/
theorem print_output (names : Naming) (whole outer inner place : Location) (n : Int64) :
    Script.print Script.defaultWidth (Program.toScript names
        ⟨whole, [], .block outer [.output inner (.literal place (.integer n))]⟩) =
      outputText names n.toInt.repr := by
  -- the first statement stands on level 0 and the one in the block on level 1
  show "" ++ (Lowering.importRuntime names).text 2 0 ++ "\n" ++
    ("" ++ ("\x7b\n" ++ ("  " ++ (Script.statementText ((Lowering.callRuntime names
      Naming.outputMember [.literal (.integer n.toInt)]).text 2 1) ++ ";") ++ "\n" ++ "") ++ "" ++
        "\x7d") ++ "\n" ++ "") = _
  rw [importRuntime_text, callRuntime_output_text, outputText]
  simp only [String.append_assoc, String.append_empty, String.empty_append]
  rfl

/-- A numeral in the range of the literals is compiled to its value, and any other is refused. -/
theorem compileSource_outputSource (names : Naming) {digits : String} (h : IsNumeral digits) :
    compileSource names (outputSource digits) =
      if decimal digits ≤ 9223372036854775807 then .ok (outputText names (decimal digits).repr)
      else .error (.syntaxError ⟨.invalidNumber digits, ⟨9, 1, 10⟩⟩) := by
  obtain ⟨stop, whole, outer, inner, hparse⟩ := parse_outputSource h
  by_cases hle : decimal digits ≤ 9223372036854775807
  · rw [if_pos hle]
    have hnumber : Parse.number ⟨.number, digits, ⟨⟨9, 1, 10⟩, stop⟩⟩ =
        .ok (.literal ⟨⟨9, 1, 10⟩, stop⟩ (.integer (.ofNat (decimal digits)))) := if_pos hle
    rw [hnumber] at hparse
    -- the value is in the range of the integers, so it is kept as it is
    have hvalue : (Int64.ofNat (decimal digits)).toInt = decimal digits :=
      Int64.toInt_ofNat_of_lt (by omega)
    rw [compileSource_eq names hparse, print_output, hvalue]
    rfl
  · rw [if_neg hle]
    have hnumber : Parse.number ⟨.number, digits, ⟨⟨9, 1, 10⟩, stop⟩⟩ =
        .error ⟨.invalidNumber digits, ⟨9, 1, 10⟩⟩ := if_neg hle
    rw [hnumber] at hparse
    exact compileSource_eq_error names hparse

/-- **NUMERALS KEEP THEIR VALUE**: under every choice of names, the program that outputs a numeral
    compiles exactly if the value is at most `2 ^ 63 - 1`.  The script then hands over the shortest
    numeral of that value, and otherwise the error carries the numeral and stands at its first
    digit, behind nine characters. -/
theorem compileSource_numeral_iff (names : Naming) {digits : String} (h : IsNumeral digits) :
    ((∃ text, compileSource names (outputSource digits) = .ok text) ↔
        decimal digits ≤ 9223372036854775807) ∧
      (decimal digits ≤ 9223372036854775807 →
        ∃ numeral, IsShortestNumeral numeral (decimal digits) ∧
          compileSource names (outputSource digits) = .ok (outputText names numeral)) ∧
      (9223372036854775807 < decimal digits →
        compileSource names (outputSource digits) =
          .error (.syntaxError ⟨.invalidNumber digits, ⟨9, 1, 10⟩⟩)) := by
  have hcompile := compileSource_outputSource names h
  by_cases hle : decimal digits ≤ 9223372036854775807
  · rw [if_pos hle] at hcompile
    refine ⟨⟨fun _ => hle, fun _ => ⟨_, hcompile⟩⟩, fun _ => ?_, fun hlt => by omega⟩
    exact ⟨(decimal digits).repr, isShortestNumeral_repr _, hcompile⟩
  · rw [if_neg hle] at hcompile
    refine ⟨⟨?_, fun hle' => absurd hle' hle⟩, fun hle' => absurd hle' hle, fun _ => hcompile⟩
    rintro ⟨text, htext⟩
    exact absurd (hcompile.symm.trans htext) (by simp)

/-- The greatest literal behind three zeros, and the first number beyond it. -/
theorem compileSource_numeral_iff_limits :
    IsNumeral "0009223372036854775807" ∧ IsNumeral "9223372036854775808" ∧
      (∃ numeral, IsShortestNumeral numeral 9223372036854775807 ∧
        compileSource .standard (outputSource "0009223372036854775807") =
          .ok (outputText .standard numeral)) ∧
      compileSource .standard (outputSource "9223372036854775808") =
        .error (.syntaxError ⟨.invalidNumber "9223372036854775808", ⟨9, 1, 10⟩⟩) := by
  have hlast : IsNumeral "0009223372036854775807" := ⟨'0', _, rfl, by decide, by decide⟩
  have hbeyond : IsNumeral "9223372036854775808" := ⟨'9', _, rfl, by decide, by decide⟩
  exact ⟨hlast, hbeyond, (compileSource_numeral_iff .standard hlast).2.1 (by decide),
    (compileSource_numeral_iff .standard hbeyond).2.2 (by decide)⟩

end TinyLang
