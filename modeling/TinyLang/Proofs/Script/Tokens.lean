/-
  TinyLang.Proofs.Script.Tokens — the tokens of a script's text.

  A text is read from the left.  Layout is skipped, and at every other place the longest
  token is taken: a word, a numeral, a string or a punctuator of the host language.  What
  lies outside of the part of the language that scripts use (comments, fractions, numerals
  with a leading zero) has no tokens at all.

      Tokenized text tokens        the tokens of a text, of which there is at most one list
-/

import TinyLang.Naming
import TinyLang.Proofs.Json.Scalars
import TinyLang.Script.Literal

namespace TinyLang.Script

open Naming (isIdentifier isIdentifierStart isIdentifierChar)

/-! ## §1. Tokens -/

/-- A token. A word may be reserved or not. -/
inductive Token where
  | word (text : String)
  | number (value : Nat)
  | string (value : String)
  | mark (text : String)
deriving DecidableEq, Repr

/-- The words that no variable may have as its name. -/
def reservedWords : List String :=
  ["await", "break", "case", "catch", "class", "const", "continue", "debugger", "default",
    "delete", "do", "else", "enum", "export", "extends", "false", "finally", "for", "function",
    "if", "import", "in", "instanceof", "new", "null", "return", "super", "switch", "this",
    "throw", "true", "try", "typeof", "var", "void", "while", "with", "yield"]

/-- The punctuators, longer ones first. -/
def punctuators : List String :=
  [">>>=",
    "...", "===", "!==", "**=", "<<=", ">>=", ">>>", "&&=", "||=", "??=",
    "=>", "==", "!=", "<=", ">=", "&&", "||", "??", "?.", "++", "--", "+=", "-=", "*=", "/=",
    "%=", "&=", "|=", "^=", "<<", ">>", "**",
    "\x7b", "\x7d", "(", ")", "[", "]", ".", ";", ",", "<", ">", "+", "-", "*", "/", "%", "&",
    "|", "^", "!", "~", "?", ":", "="]

/-- What starts a comment. -/
def commentStarts : List String := ["//", "/*", "<!--"]

/-- Whether a character is a blank or ends a line. -/
def isLayout (c : Char) : Bool :=
  c ∈ ['\t', '\n', '\x0b', '\x0c', '\r', ' ', '\u00a0', '\ufeff', '\u2028', '\u2029']

/-- The character that a backslash and one more character stand for in a string. -/
def escaped? (c : Char) : Option Char :=
  match c with
  | '"' => some '"'
  | '\x27' => some '\x27'
  | '\\' => some '\\'
  | 'b' => some '\x08'
  | 'f' => some '\x0c'
  | 'n' => some '\n'
  | 'r' => some '\r'
  | 't' => some '\t'
  | 'v' => some '\x0b'
  | _ => none

/-- Reads a string behind its opening quote: its characters, and what stands behind its closing
    quote. -/
def scanString? : List Char → Option (List Char × List Char)
  | [] => none
  | '"' :: rest => some ([], rest)
  | '\\' :: 'u' :: a :: b :: c :: d :: rest => do
    let n ← Json.hexUnit? a b c d
    if n.isValidChar then (scanString? rest).map fun (s, rest) => (Char.ofNat n :: s, rest)
    else none
  | '\\' :: e :: rest => do
    let c ← escaped? e
    (scanString? rest).map fun (s, rest) => (c :: s, rest)
  | c :: rest =>
    if c = '\\' || c = '\n' || c = '\r' then none
    else (scanString? rest).map fun (s, rest) => (c :: s, rest)

/-- Reads a numeral: all its digits, which start with a zero only if there is no other, and behind
    which neither a word nor a fraction starts. -/
def numeral? (text : List Char) : Option (Token × List Char) :=
  let digits := text.takeWhile Char.isDigit
  let rest := text.dropWhile Char.isDigit
  if digits.head? = some '0' ∧ digits.length ≠ 1 then none
  else if rest.head?.any fun c => isIdentifierChar c || c == '.' then none
  else some (.number (Nat.ofDigitChars 10 digits 0), rest)

/-- Reads the longest punctuator, unless a comment or a fraction starts here. -/
def mark? (text : List Char) : Option (Token × List Char) :=
  if commentStarts.any fun p => p.toList.isPrefixOf text then none
  else if text.head? = some '.' ∧ text.tail.head?.any Char.isDigit then none
  else (punctuators.find? fun p => p.toList.isPrefixOf text).map
    fun p => (.mark p, text.drop p.toList.length)

/-- Reads the first token of a text that does not start with layout. -/
def token? : List Char → Option (Token × List Char)
  | [] => none
  | '"' :: text => (scanString? text).map fun (s, rest) => (.string (String.ofList s), rest)
  | c :: text =>
    if isIdentifierStart c then
      some (.word (String.ofList (c :: text.takeWhile isIdentifierChar)),
        text.dropWhile isIdentifierChar)
    else if c.isDigit then numeral? (c :: text)
    else mark? (c :: text)

/-- The tokens of a text. -/
inductive Tokenized : List Char → List Token → Prop
  | nil : Tokenized [] []
  | layout {c : Char} {text : List Char} {ts : List Token} :
      isLayout c = true → Tokenized text ts → Tokenized (c :: text) ts
  | token {text rest : List Char} {t : Token} {ts : List Token} :
      token? text = some (t, rest) → Tokenized rest ts → Tokenized text (t :: ts)

/-- A blank is no token. -/
theorem token?_layout {c : Char} (h : isLayout c = true) (text : List Char) :
    token? (c :: text) = none := by
  simp only [isLayout, List.mem_cons, List.not_mem_nil, or_false, decide_eq_true_eq] at h
  rcases h with rfl | rfl | rfl | rfl | rfl | rfl | rfl | rfl | rfl | rfl <;> rfl

/-- A text has at most one list of tokens. -/
theorem Tokenized.unique {text : List Char} {ts us : List Token} (ht : Tokenized text ts)
    (hu : Tokenized text us) : ts = us := by
  induction ht generalizing us with
  | nil =>
      cases hu with
      | nil => rfl
      | token h _ => exact absurd h (by simp [token?])
  -- no token starts with a character of layout, so both skip it
  | layout hc _ ih =>
      cases hu with
      | layout _ hu => exact ih hu
      | token h _ =>
          rw [token?_layout hc] at h
          exact absurd h (by simp)
  | token h _ ih =>
      cases hu with
      | nil => exact absurd h (by simp [token?])
      | layout hc _ =>
          rw [token?_layout hc] at h
          exact absurd h (by simp)
      -- the first token is computed from the text, and the rest with it
      | token h' hu =>
          rw [h] at h'
          obtain ⟨rfl, rfl⟩ := Prod.mk.inj (Option.some.inj h')
          rw [ih hu]

/-! ## §2. Single tokens -/

/-- What may stand behind a token: nothing that would make it longer. Behind a token that ends like
    a number this includes a point. -/
def Breaks (point : Bool) (rest : List Char) : Prop :=
  rest.head?.all (fun c => !isIdentifierChar c && (point || c != '.')) = true

theorem Breaks.head {point : Bool} {rest : List Char} (h : Breaks point rest) :
    rest.head?.all (fun c => !isIdentifierChar c) = true := by
  cases rest with
  | nil => rfl
  | cons c rest =>
      simp only [Breaks, List.head?_cons, Option.all_some, Bool.and_eq_true] at h ⊢
      exact h.1

/-- What may stand behind a number may stand behind a word. -/
theorem Breaks.weaken {rest : List Char} (h : Breaks false rest) (point : Bool) :
    Breaks point rest := by
  cases rest with
  | nil => rfl
  | cons c rest =>
      simp only [Breaks, List.head?_cons, Option.all_some, Bool.and_eq_true, Bool.false_or] at h ⊢
      exact ⟨h.1, by rw [h.2, Bool.or_true]⟩

/-- A run ends where the next character does not belong to it. -/
theorem takeWhile_append_of_stop {p : Char → Bool} {text rest : List Char}
    (ht : text.all p = true) (hr : rest.head?.all (fun c => !p c) = true) :
    (text ++ rest).takeWhile p = text ∧ (text ++ rest).dropWhile p = rest := by
  have hrest : rest.takeWhile p = [] ∧ rest.dropWhile p = rest := by
    cases rest with
    | nil => exact ⟨rfl, rfl⟩
    | cons c rest =>
        simp only [List.head?_cons, Option.all_some, Bool.not_eq_true'] at hr
        rw [List.takeWhile_cons_of_neg (by simp [hr]), List.dropWhile_cons_of_neg (by simp [hr])]
        exact ⟨rfl, rfl⟩
  have hall : ∀ c ∈ text, p c = true := List.all_eq_true.1 ht
  rw [List.takeWhile_append_of_pos hall, List.dropWhile_append_of_pos hall, hrest.1, hrest.2,
    List.append_nil]
  exact ⟨rfl, rfl⟩

/-- A word is one token in front of what cannot lengthen it. -/
theorem token?_word {name : String} (hn : isIdentifier name = true) {rest : List Char}
    (hr : rest.head?.all (fun c => !isIdentifierChar c) = true) :
    token? (name.toList ++ rest) = some (.word name, rest) := by
  obtain ⟨c, text, htext, hstart, hchars⟩ := Naming.isIdentifier_iff.1 hn
  have hquote : c ≠ '"' := by
    rintro rfl
    exact absurd hstart (by decide)
  -- the word goes as far as its characters do
  have hsplit := takeWhile_append_of_stop hchars hr
  rw [htext, List.cons_append, token?.eq_def]
  split
  next h => exact absurd h (by simp)
  next h => exact absurd (List.cons.inj h).1 hquote
  next h =>
    obtain ⟨rfl, rfl⟩ := List.cons.inj h
    rw [if_pos hstart, hsplit.1, hsplit.2, ← htext, String.ofList_toList]

theorem isDigit_not_start {c : Char} (h : c.isDigit = true) :
    isIdentifierStart c = false ∧ c ≠ '"' := by
  refine ⟨?_, ?_⟩
  · cases hs : isIdentifierStart c with
    | false => rfl
    | true =>
        simp only [isIdentifierStart, Bool.or_eq_true, beq_iff_eq] at hs
        rcases hs with (hs | rfl) | rfl
        · -- Upper and lower case letters both begin above the digits.
          have hdigit : c.val ≤ '9'.val := of_decide_eq_true (Bool.and_eq_true_iff.1 h).2
          have hletter : 'A'.val ≤ c.val ∨ 'a'.val ≤ c.val :=
            (Bool.or_eq_true_iff.1 hs).imp
              (fun hu => (of_decide_eq_true hu).1)
              (fun hl => of_decide_eq_true (Bool.and_eq_true_iff.1 hl).1)
          rcases hletter with hu | hl
          · exact absurd (UInt32.le_trans hu hdigit) (by decide)
          · exact absurd (UInt32.le_trans hl hdigit) (by decide)
        · exact absurd h (by decide)
        · exact absurd h (by decide)
  · rintro rfl
    exact absurd h (by decide)

/-- A number that is not negative is written with its digits only. -/
theorem Literal.text_natural (n : Nat) :
    (Literal.text (.integer n)).toList = Nat.toDigits 10 n := by
  show (Int.repr n).toList = _
  rw [Json.toList_repr]
  unfold Json.integerChars
  simp

/-- The digits of a number are read as the number, if no point and no letter follows. -/
theorem numeral?_toDigits (n : Nat) {rest : List Char} (hr : Breaks false rest) :
    numeral? (Nat.toDigits 10 n ++ rest) = some (.number n, rest) := by
  have hdigits : (Nat.toDigits 10 n).all Char.isDigit = true :=
    List.all_eq_true.2 (Json.isDigit_toDigits n)
  have hstop : rest.head?.all (fun c => !c.isDigit) = true := by
    cases rest with
    | nil => rfl
    | cons c rest =>
        have h := hr.head
        simp only [List.head?_cons, Option.all_some, Bool.not_eq_true', isIdentifierChar,
          Char.isAlphanum, Bool.or_eq_false_iff] at h ⊢
        exact h.1.1.2
  have hsplit := takeWhile_append_of_stop hdigits hstop
  -- only the number zero starts with a zero
  have hzero : ¬ ((Nat.toDigits 10 n).head? = some '0' ∧ (Nat.toDigits 10 n).length ≠ 1) := by
    rintro ⟨hhead, hlength⟩
    cases n with
    | zero => exact hlength rfl
    | succ n =>
        obtain ⟨c, cs, hd, hc⟩ := Json.toDigits_head (n + 1) (by omega)
        rw [hd] at hhead
        exact hc (Option.some.inj hhead)
  have hafter : rest.head?.any (fun c => isIdentifierChar c || c == '.') = false := by
    cases rest with
    | nil => rfl
    | cons c rest =>
        simp only [Breaks, List.head?_cons, Option.all_some, Bool.false_or, Bool.and_eq_true,
          Bool.not_eq_true', bne_iff_ne] at hr
        simp [hr.1, hr.2]
  unfold numeral?
  simp only [hsplit.1, hsplit.2]
  rw [if_neg hzero, hafter, Nat.ofDigitChars_toDigits (by omega) (by omega)]
  rfl

/-- A numeral without a needless zero is one token in front of what cannot lengthen it. -/
theorem token?_number (n : Nat) {rest : List Char} (hr : Breaks false rest) :
    token? (Nat.toDigits 10 n ++ rest) = some (.number n, rest) := by
  obtain ⟨c, cs, hd, hc⟩ := Json.toDigits_eq_cons n
  have hnumeral := numeral?_toDigits n hr
  rw [hd, List.cons_append] at hnumeral ⊢
  rw [token?.eq_def]
  split
  next h => exact absurd h (by simp)
  next h => exact absurd (List.cons.inj h).1 (isDigit_not_start hc).2
  next h =>
    obtain ⟨rfl, rfl⟩ := List.cons.inj h
    rw [(isDigit_not_start hc).1, hc]
    exact hnumeral

/-- A raw character of a string stands for itself. -/
theorem scanString?_raw {c : Char} (h₁ : c ≠ '"') (h₂ : c ≠ '\\') (h₃ : c ≠ '\n') (h₄ : c ≠ '\r')
    (rest : List Char) :
    scanString? (c :: rest) = (scanString? rest).map fun (s, rest) => (c :: s, rest) := by
  rw [scanString?.eq_def]
  split
  next h => exact absurd h (by simp)
  next h => exact absurd (List.cons.inj h).1 h₁
  next h => exact absurd (List.cons.inj h).1 h₂
  next h => exact absurd (List.cons.inj h).1 h₂
  next h =>
    obtain ⟨rfl, rfl⟩ := List.cons.inj h
    rw [if_neg (by simp [h₂, h₃, h₄])]

/-- An escape of one character stands for that character. -/
theorem scanString?_short {e c : Char} (hu : e ≠ 'u') (he : escaped? e = some c)
    (rest : List Char) :
    scanString? ('\\' :: e :: rest) = (scanString? rest).map fun (s, rest) => (c :: s, rest) := by
  rw [scanString?.eq_def]
  -- of the five rules for strings the fourth one applies
  split
  next h => exact absurd h (by simp)
  next h => exact absurd (List.cons.inj h).1 (by decide)
  next h => exact absurd (List.cons.inj (List.cons.inj h).2).1 hu
  next h =>
    obtain ⟨rfl, rfl⟩ := List.cons.inj (List.cons.inj h).2
    rw [he]
    rfl
  next hshort h =>
    obtain ⟨rfl, rfl⟩ := List.cons.inj h
    exact (hshort e rest rfl rfl).elim

/-- The characters of which the number is written are control characters and separators. -/
theorem toNat_lt_of_escaped {c : Char} (h : (isControl c || isSeparator c) = true) :
    c.toNat < 0xd800 := by
  simp only [isControl, isSeparator, Bool.or_eq_true, Bool.and_eq_true, decide_eq_true_eq,
    beq_iff_eq] at h
  omega

/-- Every character is read back from how it stands in a string. -/
theorem scanString?_escapeChar (c : Char) (rest : List Char) :
    scanString? (escapeChar c ++ rest) =
      (scanString? rest).map fun (s, rest) => (c :: s, rest) := by
  unfold escapeChar
  split
  · exact scanString?_short (by decide) rfl rest
  · exact scanString?_short (by decide) rfl rest
  · exact scanString?_short (by decide) rfl rest
  · exact scanString?_short (by decide) rfl rest
  · exact scanString?_short (by decide) rfl rest
  · rename_i h₁ h₂ h₃ h₄ _
    split
    next h =>
      -- only characters below the surrogates are written with four digits, which give them back
      have hlt := toNat_lt_of_escaped h
      obtain ⟨a, b, d, e, hex, hunit⟩ := Json.hexUnit?_hex4 (n := c.toNat) (by omega)
      rw [hex]
      show scanString? ('\\' :: 'u' :: a :: b :: d :: e :: rest) = _
      rw [scanString?, hunit]
      show (if c.toNat.isValidChar then _ else _) = _
      rw [if_pos (.inl (by omega)), Char.ofNat_toNat]
    next => exact scanString?_raw h₁ h₂ h₃ h₄ rest

/-- A string is one token, whatever stands behind it. -/
theorem token?_quote (text : String) (rest : List Char) :
    token? ((quote text).toList ++ rest) = some (.string text, rest) := by
  -- the induction is on the characters of the text, each escaped or not
  have hinside : ∀ chars : List Char,
      scanString? (chars.flatMap escapeChar ++ '"' :: rest) = some (chars, rest) := by
    intro chars
    induction chars with
    | nil => rfl
    | cons c chars ih =>
        rw [List.flatMap_cons, List.append_assoc, scanString?_escapeChar, ih]
        rfl
  rw [quote, String.toList_ofList, List.cons_append, List.cons_append, List.append_assoc]
  show ((scanString? (text.toList.flatMap escapeChar ++ '"' :: rest)).map fun (s, rest) =>
    (Token.string (String.ofList s), rest)) = _
  rw [hinside, Option.map_some]
  dsimp only
  rw [String.ofList_toList]

/-- The marks that no other character lengthens. -/
def brackets : List String := ["(", ")", "\x7b", "\x7d", ";", ","]

/-- A bracket is a token in front of anything. -/
theorem token?_bracket {m : String} (h : m ∈ brackets) (rest : List Char) :
    token? (m.toList ++ rest) = some (.mark m, rest) := by
  simp only [brackets, List.mem_cons, List.not_mem_nil, or_false] at h
  rcases h with rfl | rfl | rfl | rfl | rfl | rfl <;> rfl

/-- The operators that stand between blanks. -/
def spacedMarks : List String :=
  ["=", "||", "&&", "==", "!=", "<", "<=", ">", ">=", "+", "-", "*", "/", "%"]

/-- An operator with a blank behind it is read as a whole. -/
theorem token?_spaced {op : String} (h : op ∈ spacedMarks) (rest : List Char) :
    token? (op.toList ++ ' ' :: rest) = some (.mark op, ' ' :: rest) := by
  simp only [spacedMarks, List.mem_cons, List.not_mem_nil, or_false] at h
  rcases h with rfl | rfl | rfl | rfl | rfl | rfl | rfl | rfl | rfl | rfl | rfl | rfl | rfl | rfl <;>
    rfl

/-- A mark for `not` is a token of its own unless an equals sign follows. -/
theorem token?_bang {c : Char} (h : c ≠ '=') (rest : List Char) :
    token? ('!' :: c :: rest) = some (.mark "!", c :: rest) := by
  show mark? ('!' :: c :: rest) = _
  have hne : ('=' == c) = false := by simpa using Ne.symm h
  have hfind : (punctuators.find? fun p => p.toList.isPrefixOf ('!' :: c :: rest)) = some "!" := by
    simp [punctuators, List.isPrefixOf, hne]
  unfold mark?
  rw [if_neg (by simp [commentStarts, List.isPrefixOf]), if_neg (by simp), hfind]
  rfl

/-- A minus is a token of its own unless another minus or an equals sign follows. -/
theorem token?_minus {c : Char} (h₁ : c ≠ '=') (h₂ : c ≠ '-') (rest : List Char) :
    token? ('-' :: c :: rest) = some (.mark "-", c :: rest) := by
  show mark? ('-' :: c :: rest) = _
  have hne₁ : ('=' == c) = false := by simpa using Ne.symm h₁
  have hne₂ : ('-' == c) = false := by simpa using Ne.symm h₂
  have hfind : (punctuators.find? fun p => p.toList.isPrefixOf ('-' :: c :: rest)) = some "-" := by
    simp [punctuators, List.isPrefixOf, hne₁, hne₂]
  unfold mark?
  rw [if_neg (by simp [commentStarts, List.isPrefixOf]), if_neg (by simp), hfind]
  rfl

theorem token?_point {c : Char} (h : isIdentifierStart c = true) (rest : List Char) :
    token? ('.' :: c :: rest) = some (.mark ".", c :: rest) := by
  show mark? ('.' :: c :: rest) = _
  have hdigit : c.isDigit = false := by
    cases hd : c.isDigit with
    | false => rfl
    | true =>
        rw [(isDigit_not_start hd).1] at h
        exact absurd h (by simp)
  have hne : ('.' == c) = false := by
    rw [beq_eq_false_iff_ne]
    rintro rfl
    exact absurd h (by decide)
  -- a point with a letter behind it is no number, and no longer mark starts with it
  have hfind : (punctuators.find? fun p => p.toList.isPrefixOf ('.' :: c :: rest)) = some "." := by
    simp [punctuators, List.isPrefixOf, hne]
  unfold mark?
  rw [if_neg (by simp [commentStarts, List.isPrefixOf]), if_neg (by simp [hdigit]), hfind]
  rfl

end TinyLang.Script
