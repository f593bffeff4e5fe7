/-
  TinyLang.Json.Reader — reading JSON text.

  Each reader takes the characters ahead and gives what it read with the characters
  behind it, or `none` if the text ahead is not of its form.  A value is read with a bound
  on the arrays and objects that may lie inside one another, which is also what its
  recursion runs on; the loops over items and members run on a bound on the characters
  ahead, of which each round takes at least one.

      parse? v.compact = some v

  for values without floats and repeated names that are not nested too deep.
-/

import TinyLang.Json.Basic

namespace TinyLang.Json

/-! ## §1. Blanks and words -/

/-- The characters that may stand between the parts of a JSON text. -/
def isBlank (c : Char) : Bool := c == ' ' || c == '\t' || c == '\n' || c == '\r'

/-- What follows the blanks ahead. -/
def skipBlanks (text : List Char) : List Char := text.dropWhile isBlank

/-! ## §2. Strings -/

/-- A part of a string literal: a character, or a 16-bit unit written as an escape. -/
inductive StringPart where
  | char (c : Char)
  | unit (n : Nat)
deriving DecidableEq, Repr

/-- The value of a digit in base sixteen. -/
def hexDigit? (c : Char) : Option Nat :=
  if '0' ≤ c ∧ c ≤ '9' then some (c.toNat - '0'.toNat)
  else if 'a' ≤ c ∧ c ≤ 'f' then some (c.toNat - 'a'.toNat + 10)
  else if 'A' ≤ c ∧ c ≤ 'F' then some (c.toNat - 'A'.toNat + 10)
  else none

/-- The value of four digits in base sixteen. -/
def hexUnit? (a b c d : Char) : Option Nat := do
  let a ← hexDigit? a
  let b ← hexDigit? b
  let c ← hexDigit? c
  let d ← hexDigit? d
  return ((a * 16 + b) * 16 + c) * 16 + d

/-- The character that a backslash and one more character stand for. -/
def shortEscape? (c : Char) : Option Char :=
  match c with
  | '"' => some '"'
  | '\\' => some '\\'
  | '/' => some '/'
  | 'b' => some '\x08'
  | 'f' => some '\x0c'
  | 'n' => some '\n'
  | 'r' => some '\r'
  | 't' => some '\t'
  | _ => none

/-- The parts of a string literal up to its closing quote. -/
def stringParts : List Char → Option (List StringPart × List Char)
  | [] => none
  | '"' :: rest => some ([], rest)
  | '\\' :: 'u' :: a :: b :: c :: d :: rest => do
    let n ← hexUnit? a b c d
    let (parts, rest) ← stringParts rest
    return (.unit n :: parts, rest)
  | '\\' :: e :: rest => do
    let c ← shortEscape? e
    let (parts, rest) ← stringParts rest
    return (.char c :: parts, rest)
  | c :: rest =>
    if c = '\\' || c.toNat < 0x20 then none
    else do
      let (parts, rest) ← stringParts rest
      return (.char c :: parts, rest)

/-- The characters of a string: a high and a low unit together make one character, and neither
    stands alone. -/
def joinParts : List StringPart → Option (List Char)
  | [] => some []
  | .char c :: parts => (joinParts parts).map (c :: ·)
  | .unit high :: .unit low :: parts =>
    if 0xd800 ≤ high ∧ high < 0xdc00 then
      if 0xdc00 ≤ low ∧ low < 0xe000 then
        (joinParts parts).map
          (Char.ofNat (0x10000 + (high - 0xd800) * 0x400 + (low - 0xdc00)) :: ·)
      else none
    else if 0xdc00 ≤ high ∧ high < 0xe000 then none
    else (joinParts (.unit low :: parts)).map (Char.ofNat high :: ·)
  | .unit n :: parts =>
    if 0xd800 ≤ n ∧ n < 0xe000 then none else (joinParts parts).map (Char.ofNat n :: ·)

/-- A string literal behind its opening quote. -/
def string? (text : List Char) : Option (String × List Char) := do
  let (parts, rest) ← stringParts text
  let chars ← joinParts parts
  return (String.ofList chars, rest)

/-! ## §3. Numbers -/

/-- The spelling of a number: its sign, its digits before and behind the point, and its
    exponent, of which the last two may be missing. -/
structure Spelling where
  negative : Bool
  whole : List Char
  fraction : Option (List Char)
  exponent : Option (Bool × List Char)
deriving DecidableEq, Repr

/-- A run of one or more digits. -/
def digits? (text : List Char) : Option (List Char × List Char) :=
  match text.takeWhile Char.isDigit with
  | [] => none
  | ds => some (ds, text.dropWhile Char.isDigit)

/-- The digits before the point; only a lone zero starts with a zero. -/
def whole? (text : List Char) : Option (List Char × List Char) :=
  match digits? text with
  | some ('0' :: _ :: _, _) => none
  | other => other

/-- A point and the digits behind it, if a point is ahead. -/
def fraction? (text : List Char) : Option (Option (List Char) × List Char) :=
  match text with
  | '.' :: rest => (digits? rest).map fun (ds, rest) => (some ds, rest)
  | _ => some (none, text)

/-- The sign and digits of an exponent, if a letter for one is ahead. -/
def exponent? (text : List Char) : Option (Option (Bool × List Char) × List Char) :=
  match text with
  | c :: rest =>
    if c = 'e' ∨ c = 'E' then
      match rest with
      | '-' :: rest => (digits? rest).map fun (ds, rest) => (some (true, ds), rest)
      | '+' :: rest => (digits? rest).map fun (ds, rest) => (some (false, ds), rest)
      | _ => (digits? rest).map fun (ds, rest) => (some (false, ds), rest)
    else some (none, text)
  | [] => some (none, text)

/-- A number as it is spelled. -/
def spelling? (text : List Char) : Option (Spelling × List Char) := do
  let (negative, text) := match text with
    | '-' :: rest => (true, rest)
    | _ => (false, text)
  let (whole, text) ← whole? text
  let (fraction, text) ← fraction? text
  let (exponent, text) ← exponent? text
  return (⟨negative, whole, fraction, exponent⟩, text)

/-- The finite number `digits · 10 ^ scale`. Magnitudes that are out of reach of the format need
    no power: from `10 ^ 310` up there is no number, and below `10 ^ -330` it is zero. -/
def float? (negative : Bool) (digits : Nat) (scale : Int) : Option Float :=
  let magnitude : Int := (Nat.toDigits 10 digits).length + scale
  if digits = 0 || magnitude < -330 then Float.ofBinary64? (Binary64.ofDecimal negative 0 0)
  else if 310 < magnitude then none
  else Float.ofBinary64? (Binary64.ofDecimal negative digits scale)

/-- The number of a spelling: an integer if it is written as one and fits in a word, the zero with
    a sign apart, and a float otherwise. -/
def Spelling.number? (s : Spelling) : Option Number :=
  let fraction := s.fraction.getD []
  let (down, power) := s.exponent.getD (false, [])
  let power : Nat := Nat.ofDigitChars 10 power 0
  let scale : Int := (if down then -(power : Int) else power) - fraction.length
  let digits := Nat.ofDigitChars 10 (s.whole ++ fraction) 0
  let asFloat := (float? s.negative digits scale).map Number.float
  if s.fraction.isNone && s.exponent.isNone && !(s.negative && digits == 0) then
    let n : Int := if s.negative then -(digits : Int) else digits
    match Integer.ofInt? n with
    | some n => some (.integer n)
    | none => asFloat
  else asFloat

/-- A number. -/
def number? (text : List Char) : Option (Number × List Char) := do
  let (s, rest) ← spelling? text
  let n ← s.number?
  return (n, rest)

/-! ## §4. Values -/

/-- A value that is no array and no object. -/
def scalar? (text : List Char) : Option (Json × List Char) :=
  match text with
  | 'n' :: 'u' :: 'l' :: 'l' :: rest => some (.null, rest)
  | 't' :: 'r' :: 'u' :: 'e' :: rest => some (.bool true, rest)
  | 'f' :: 'a' :: 'l' :: 's' :: 'e' :: rest => some (.bool false, rest)
  | '"' :: rest => (string? rest).map fun (s, rest) => (.string s, rest)
  | _ => (number? text).map fun (n, rest) => (.number n, rest)

variable {α : Type}

/-- What follows the first item of an array: further items, each behind a comma, and the closing
    bracket. `bound` bounds the characters ahead. -/
def items? (item : List Char → Option (α × List Char)) (bound : Nat) (text : List Char) :
    Option (List α × List Char) :=
  match bound, skipBlanks text with
  | _, ']' :: rest => some ([], rest)
  | bound + 1, ',' :: rest => do
    let (x, rest) ← item rest
    let (xs, rest) ← items? item bound rest
    return (x :: xs, rest)
  | _, _ => none

/-- The items of an array behind its opening bracket. -/
def arrayOf? (item : List Char → Option (α × List Char)) (text : List Char) :
    Option (List α × List Char) :=
  match skipBlanks text with
  | ']' :: rest => some ([], rest)
  | text => do
    let (x, rest) ← item text
    let (xs, rest) ← items? item rest.length rest
    return (x :: xs, rest)

/-- How the members of an object are read: the name behind its quote, and the value behind the
    colon, which may depend on the name. -/
structure MemberReader (α : Type) where
  name : List Char → Option (String × List Char)
  value : String → List Char → Option (α × List Char)

/-- One member of an object: a name, a colon and a value. -/
def member? (read : MemberReader α) (text : List Char) : Option ((String × α) × List Char) :=
  match skipBlanks text with
  | '"' :: rest => do
    let (name, rest) ← read.name rest
    match skipBlanks rest with
    | ':' :: rest => do
      let (v, rest) ← read.value name rest
      return ((name, v), rest)
    | _ => none
  | _ => none

/-- What follows the first member of an object: further members, each behind a comma, and the
    closing brace. `bound` bounds the characters ahead. -/
def members? (read : MemberReader α) (bound : Nat) (text : List Char) :
    Option (List (String × α) × List Char) :=
  match bound, skipBlanks text with
  | _, '}' :: rest => some ([], rest)
  | bound + 1, ',' :: rest => do
    let (m, rest) ← member? read rest
    let (ms, rest) ← members? read bound rest
    return (m :: ms, rest)
  | _, _ => none

/-- The members of an object behind its opening brace, as written. -/
def objectOf? (read : MemberReader α) (text : List Char) :
    Option (List (String × α) × List Char) :=
  match skipBlanks text with
  | '}' :: rest => some ([], rest)
  | text => do
    let (m, rest) ← member? read text
    let (ms, rest) ← members? read rest.length rest
    return (m :: ms, rest)

/-- A value in which at most `depth` arrays and objects lie inside one another. -/
def value? : Nat → List Char → Option (Json × List Char)
  | 0, text => scalar? (skipBlanks text)
  | depth + 1, text =>
    match skipBlanks text with
    | '[' :: rest => (arrayOf? (value? depth) rest).map fun (xs, rest) => (.array xs, rest)
    | '{' :: rest =>
      (objectOf? ⟨string?, fun _ => value? depth⟩ rest).map fun (ms, rest) =>
        (.object (Record.ofMembers ms), rest)
    | text => scalar? text

/-- The number of arrays and objects that may lie inside one another. -/
def maxDepth : Nat := 127

/-- Reads with `read` and accepts nothing but blanks behind it. -/
def complete? (read : List Char → Option (α × List Char)) (text : String) : Option α :=
  match read text.toList with
  | some (x, rest) => if (skipBlanks rest).isEmpty then some x else none
  | none => none

/-- The value that a text holds. A repeated name keeps its first place and takes its last value. -/
def parse? (text : String) : Option Json := complete? (value? maxDepth) text

end TinyLang.Json
