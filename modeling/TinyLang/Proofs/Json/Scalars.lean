/-
  TinyLang.Proofs.Json.Scalars — strings and integers read back as written.

  A string is written character by character and read part by part: each character gives one
  part, which joins to the character again.

      stringParts (text.flatMap escapeChar ++ '"' :: rest) = some (parts, rest)
      joinParts parts = some text

  An integer is written with its decimal digits, of which only a lone zero starts with a
  zero, so the reader takes all of them and nothing behind them.
-/

import TinyLang.Json.Reader
import TinyLang.Json.Writer

namespace TinyLang.Json

/-! ## §1. Strings -/

/-- A part of a string literal stands for a character, whatever the parts behind it. -/
def StandsFor (part : StringPart) (c : Char) : Prop :=
  ∀ parts, joinParts (part :: parts) = (joinParts parts).map (c :: ·)

theorem standsFor_char (c : Char) : StandsFor (.char c) c := fun _ => rfl

/-- A unit that is no half of a pair stands for the character with its number. -/
theorem standsFor_unit {n : Nat} (h : n < 0xd800) : StandsFor (.unit n) (Char.ofNat n) := by
  have hlow : ¬ (0xd800 ≤ n ∧ n < 0xdc00) := by omega
  have hhigh : ¬ (0xdc00 ≤ n ∧ n < 0xe000) := by omega
  have hboth : ¬ (0xd800 ≤ n ∧ n < 0xe000) := by omega
  -- a unit that is no half of a pair stands alone, whatever follows it
  intro parts
  cases parts with
  | nil => simp only [joinParts, if_neg hboth]
  | cons part parts =>
      cases part with
      | char c => simp only [joinParts, if_neg hboth]
      | unit m => rw [joinParts, if_neg hlow, if_neg hhigh]

theorem hexDigit?_digitChar : ∀ n < 16, hexDigit? (Nat.digitChar n) = some n := by
  decide

/-- Four digits to the base 16 are read back as the number they were written for. -/
theorem hexUnit?_hex4 {n : Nat} (h : n < 0x10000) :
    ∃ a b c d, Text.hex4 n = [a, b, c, d] ∧ hexUnit? a b c d = some n := by
  refine ⟨_, _, _, _, rfl, ?_⟩
  unfold hexUnit?
  rw [hexDigit?_digitChar _ (by omega), hexDigit?_digitChar _ (by omega),
    hexDigit?_digitChar _ (by omega), hexDigit?_digitChar _ (by omega)]
  show some (((n / 4096 % 16 * 16 + n / 256 % 16) * 16 + n / 16 % 16) * 16 + n % 16) = some n
  congr 1
  omega

/-- A raw character of a string literal is a part of its own. -/
theorem stringParts_raw {c : Char} (h₁ : c ≠ '"') (h₂ : c ≠ '\\') (h₃ : ¬ c.toNat < 0x20)
    (rest : List Char) :
    stringParts (c :: rest) =
      (stringParts rest).map fun (parts, rest) => (.char c :: parts, rest) := by
  rw [stringParts.eq_def]
  split
  next h => exact absurd h (by simp)
  next h => exact absurd (List.cons.inj h).1 h₁
  next h => exact absurd (List.cons.inj h).1 h₂
  next h => exact absurd (List.cons.inj h).1 h₂
  next c' rest' _ _ _ h =>
    obtain ⟨rfl, rfl⟩ := List.cons.inj h
    rw [if_neg (by simp [h₂, h₃])]
    cases stringParts rest <;> rfl

/-- A short escape is a part of its own. -/
theorem stringParts_short {e c : Char} (hu : e ≠ 'u') (he : shortEscape? e = some c)
    (rest : List Char) :
    stringParts ('\\' :: e :: rest) =
      (stringParts rest).map fun (parts, rest) => (.char c :: parts, rest) := by
  rw [stringParts.eq_def]
  split
  next h => exact absurd h (by simp)
  next h => exact absurd (List.cons.inj h).1 (by decide)
  next h => exact absurd (List.cons.inj (List.cons.inj h).2).1 hu
  next h =>
    obtain ⟨rfl, rfl⟩ := List.cons.inj (List.cons.inj h).2
    rw [he]
    cases stringParts rest <;> rfl
  next hne h =>
    obtain ⟨rfl, rfl⟩ := List.cons.inj h
    exact absurd rfl (hne e rest rfl)

/-- A written character is read as one part, which stands for it. -/
theorem stringParts_escapeChar (c : Char) : ∃ part, StandsFor part c ∧ ∀ rest,
    stringParts (escapeChar c ++ rest) =
      (stringParts rest).map fun (parts, rest) => (part :: parts, rest) := by
  unfold escapeChar
  split
  iterate 7
    · exact ⟨_, standsFor_char _, stringParts_short (by decide) rfl⟩
  · rename_i h₁ h₂ h₃ h₄ h₅ h₆ h₇
    -- what has no short escape is a control character with its number, or stands for itself
    by_cases hlow : c.toNat < 0x20
    · refine ⟨.unit c.toNat, ?_, ?_⟩
      · have h := standsFor_unit (show c.toNat < 0xd800 by omega)
        rw [Char.ofNat_toNat] at h
        exact h
      · intro rest
        obtain ⟨x, y, z, w, hhex, hunit⟩ := hexUnit?_hex4 (show c.toNat < 0x10000 by omega)
        rw [if_pos hlow, hhex]
        simp only [List.cons_append, List.nil_append, stringParts, hunit]
        cases stringParts rest <;> rfl
    · refine ⟨.char c, standsFor_char c, ?_⟩
      rw [if_neg hlow]
      exact stringParts_raw h₁ h₂ hlow

/-- **The characters of a text are read back**, whatever was escaped among them. -/
theorem stringParts_flatMap (text rest : List Char) : ∃ parts,
    stringParts (text.flatMap escapeChar ++ '"' :: rest) = some (parts, rest) ∧
      joinParts parts = some text := by
  induction text with
  | nil => exact ⟨[], by simp [stringParts], rfl⟩
  | cons c text ih =>
      obtain ⟨parts, hread, hjoin⟩ := ih
      obtain ⟨part, hpart, hone⟩ := stringParts_escapeChar c
      refine ⟨part :: parts, ?_, ?_⟩
      · rw [List.flatMap_cons, List.append_assoc, hone, hread]
        rfl
      · rw [hpart, hjoin]
        rfl

/-- A written string reads back, whatever follows it. -/
theorem string?_quote (text : String) (rest : List Char) :
    string? (text.toList.flatMap escapeChar ++ '"' :: rest) = some (text, rest) := by
  obtain ⟨parts, hread, hjoin⟩ := stringParts_flatMap text.toList rest
  unfold string?
  rw [hread]
  show (joinParts parts >>= _) = _
  rw [hjoin]
  show some (String.ofList text.toList, rest) = _
  rw [String.ofList_toList]

/-! ## §2. Integers -/

/-- What may follow a number: nothing that could be a further part of it. -/
def EndsNumber : List Char → Prop
  | [] => True
  | c :: _ => c.isDigit = false ∧ c ≠ '.' ∧ c ≠ 'e' ∧ c ≠ 'E'

theorem isDigit_toDigits (n : Nat) : ∀ c ∈ Nat.toDigits 10 n, c.isDigit = true := by
  intro c hc
  exact Nat.isDigit_of_mem_toDigits (by omega) (by omega) hc

theorem toDigits_eq_cons (n : Nat) :
    ∃ c cs, Nat.toDigits 10 n = c :: cs ∧ c.isDigit = true := by
  cases hd : Nat.toDigits 10 n with
  | nil => exact absurd hd Nat.toDigits_ne_nil
  | cons c cs =>
      have hmem : c ∈ Nat.toDigits 10 n := by
        rw [hd]
        exact List.mem_cons_self
      exact ⟨c, cs, rfl, isDigit_toDigits n c hmem⟩

/-- Digits of a number other than zero do not start with a zero. -/
theorem toDigits_head (n : Nat) (h : 0 < n) :
    ∃ c rest, Nat.toDigits 10 n = c :: rest ∧ c ≠ '0' := by
  induction n using Nat.strongRecOn with
  | ind n ih =>
      by_cases hlt : n < 10
      · refine ⟨n.digitChar, [], Nat.toDigits_of_lt_base hlt, ?_⟩
        have hsmall : ∀ m < 10, 0 < m → m.digitChar ≠ '0' := by decide
        exact hsmall n hlt h
      · obtain ⟨c, rest, hd, hc⟩ := ih (n / 10) (by omega) (by omega)
        rw [Nat.toDigits_of_base_le (by omega) (by omega), hd]
        exact ⟨c, rest ++ [(n % 10).digitChar], rfl, hc⟩

/-- Digits are read up to what ends a number. -/
theorem digits?_toDigits (n : Nat) {rest : List Char} (hr : EndsNumber rest) :
    digits? (Nat.toDigits 10 n ++ rest) = some (Nat.toDigits 10 n, rest) := by
  have hall := isDigit_toDigits n
  -- what ends a number is no digit, so the run ends exactly there
  have hnone : rest.takeWhile Char.isDigit = [] ∧ rest.dropWhile Char.isDigit = rest := by
    cases rest with
    | nil => exact ⟨rfl, rfl⟩
    | cons c rest => simp [hr.1]
  unfold digits?
  rw [List.takeWhile_append_of_pos hall, List.dropWhile_append_of_pos hall, hnone.1, hnone.2,
    List.append_nil]
  split
  next h => exact absurd h Nat.toDigits_ne_nil
  next => rfl

/-- The digits of a number are a whole part: only zero starts with a zero. -/
theorem whole?_toDigits (n : Nat) {rest : List Char} (hr : EndsNumber rest) :
    whole? (Nat.toDigits 10 n ++ rest) = some (Nat.toDigits 10 n, rest) := by
  unfold whole?
  rw [digits?_toDigits n hr]
  split
  next c cs r h =>
    injection h with h
    injection h with h _
    -- two digits that start with a zero are the digits of no number
    rcases Nat.eq_zero_or_pos n with rfl | hpos
    · exact absurd h (by simp)
    · obtain ⟨d, ds, hd, hne⟩ := toDigits_head n hpos
      rw [hd] at h
      exact absurd (List.cons.inj h).1 hne
  next => rfl

theorem fraction?_none {rest : List Char} (hr : EndsNumber rest) :
    fraction? rest = some (none, rest) := by
  unfold fraction?
  split
  next => exact absurd rfl hr.2.1
  next => rfl

theorem exponent?_none {rest : List Char} (hr : EndsNumber rest) :
    exponent? rest = some (none, rest) := by
  unfold exponent?
  split
  next c rest =>
    rw [if_neg]
    rintro (h | h)
    · exact hr.2.2.1 h
    · exact hr.2.2.2 h
  next => rfl

/-- The digits of an integer, behind its sign. -/
def integerChars (n : Int) : List Char :=
  (if n < 0 then ['-'] else []) ++ Nat.toDigits 10 n.natAbs

/-- An integer is written with its sign and its digits. -/
theorem toList_repr (n : Int) : n.repr.toList = integerChars n := by
  unfold integerChars
  cases n with
  | ofNat m => simp [Int.repr, Nat.toList_repr]
  | negSucc m =>
      rw [if_pos (Int.negSucc_lt_zero m)]
      simp [Int.repr, Nat.toList_repr]

/-- Decimal digits do not start with a sign. -/
theorem toDigits_append_ne_minus (n : Nat) (rest text : List Char) :
    Nat.toDigits 10 n ++ rest ≠ '-' :: text := by
  intro heq
  obtain ⟨c, cs, hd, hc⟩ := toDigits_eq_cons n
  rw [hd] at heq
  rw [(List.cons.inj heq).1] at hc
  exact absurd hc (by decide)

/-- The spelling of an integer has no fraction and no exponent, so it is not taken for a float. -/
theorem spelling?_integer (n : Int) {rest : List Char} (hr : EndsNumber rest) :
    spelling? (integerChars n ++ rest) =
      some (⟨decide (n < 0), Nat.toDigits 10 n.natAbs, none, none⟩, rest) := by
  unfold spelling?
  split
  next negative text heq =>
    -- digits start with no sign, so a sign is seen only where one was written
    have hsigned : negative = decide (n < 0) ∧ text = Nat.toDigits 10 n.natAbs ++ rest := by
      unfold integerChars at heq
      by_cases hn : n < 0
      · rw [if_pos hn] at heq
        injection heq with hnegative htext
        exact ⟨by rw [← hnegative, decide_eq_true hn], htext.symm⟩
      · rw [if_neg hn, List.nil_append] at heq
        split at heq
        next r h => exact absurd h (toDigits_append_ne_minus _ rest r)
        next =>
          injection heq with hnegative htext
          exact ⟨by rw [← hnegative, decide_eq_false hn], htext.symm⟩
    obtain ⟨rfl, rfl⟩ := hsigned
    rw [whole?_toDigits _ hr]
    -- what ends a number starts neither a fraction nor an exponent
    show (fraction? rest >>= _) = _
    rw [fraction?_none hr]
    show (exponent? rest >>= _) = _
    rw [exponent?_none hr]
    rfl

/-- An integer within the bounds is read as itself. -/
theorem number?_spelling (n : Integer) :
    (⟨decide (n.value < 0), Nat.toDigits 10 n.value.natAbs, none, none⟩ : Spelling).number? =
      some (.integer n) := by
  have hdigits : Nat.ofDigitChars 10 (Nat.toDigits 10 n.value.natAbs ++ []) 0 = n.value.natAbs := by
    rw [List.append_nil]
    exact Nat.ofDigitChars_ten_toDigits
  -- a zero is never written with a sign, which would make a float of it
  have hzero : (decide (n.value < 0) && n.value.natAbs == 0) = false := by
    by_cases hn : n.value < 0
    · have : n.value.natAbs ≠ 0 := by omega
      simp [this]
    · simp [hn]
  have hvalue : (if decide (n.value < 0) = true then -(n.value.natAbs : Int)
      else (n.value.natAbs : Int)) = n.value := by
    split <;> rename_i h <;> simp at h <;> omega
  have hfits : Integer.ofInt? n.value = some n := dif_pos ⟨n.lower, n.upper⟩
  unfold Spelling.number?
  simp only [Option.getD_none, hdigits, hzero, hvalue, hfits]
  rfl

/-- A written integer reads back, if nothing behind it could be a part of it. -/
theorem number?_integer (n : Integer) {rest : List Char} (hr : EndsNumber rest) :
    number? (n.value.repr.toList ++ rest) = some (.integer n, rest) := by
  unfold number?
  rw [toList_repr, spelling?_integer n.value hr]
  show (Spelling.number? _ >>= _) = _
  rw [number?_spelling]
  rfl

end TinyLang.Json
