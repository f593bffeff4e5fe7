/-
  TinyLang.Number.Binary64 — the double-precision numbers, by their bits.

  A number is its 64-bit word: one sign bit, eleven exponent bits, fifty-two fraction
  bits.  A finite number has the magnitude `significand · 2 ^ exponent`, and
  `Binary64.ofRatio` gives the number nearest to a quotient, a half going to the even
  significand.  All of it is exact arithmetic on naturals.
-/

namespace TinyLang

/-- A double-precision number, as its word. -/
structure Binary64 where
  bits : UInt64
deriving DecidableEq, Repr

namespace Binary64

/-! ## §1. Fields of the word -/

/-- The value of the lowest bit of the exponent field, which is also the significand's leading
    bit. -/
def leadingBit : Nat := 0x10000000000000

/-- The value of the sign bit. -/
def signBit : Nat := 0x8000000000000000

/-- Whether the sign bit is set. -/
def isNegative (x : Binary64) : Bool := signBit ≤ x.bits.toNat

/-- The exponent field. -/
def exponentField (x : Binary64) : Nat := x.bits.toNat / leadingBit % 2048

/-- The fraction field. -/
def fractionField (x : Binary64) : Nat := x.bits.toNat % leadingBit

/-- Whether the word stands for a number, neither infinite nor undefined. -/
def isFinite (x : Binary64) : Bool := x.exponentField != 2047

/-- Whether the word stands for no number at all. -/
def isNaN (x : Binary64) : Bool := x.exponentField == 2047 && x.fractionField != 0

/-- Whether the number is one of the two zeros. -/
def isZero (x : Binary64) : Bool := x.exponentField == 0 && x.fractionField == 0

/-! ## §2. Magnitude -/

/-- The integral factor of a finite magnitude. -/
def significand (x : Binary64) : Nat :=
  if x.exponentField = 0 then x.fractionField else leadingBit + x.fractionField

/-- The power of two in a finite magnitude. -/
def exponent (x : Binary64) : Int :=
  if x.exponentField = 0 then -1074 else (x.exponentField : Int) - 1075

/-! ## §3. Equality of numbers -/

/-- Equality of the numbers that two words stand for: the two zeros are equal, and a word
    for no number equals nothing. -/
def same (x y : Binary64) : Bool :=
  !x.isNaN && !y.isNaN && (x.bits == y.bits || x.isZero && y.isZero)

/-! ## §4. Rounding -/

/-- The word with the given sign and the magnitude `m · 2 ^ e`, for `m ≤ 2 ^ 53` and
    `-1074 ≤ e`; a magnitude too large for the format gives infinity. A significand of
    fifty-four bits carries into the exponent field. -/
def pack (negative : Bool) (m : Nat) (e : Int) : Binary64 :=
  let field := if m < leadingBit then m else (e + 1074).toNat * leadingBit + m
  let word := if field < 2047 * leadingBit then field else 2047 * leadingBit
  ⟨(if negative then signBit + word else word).toUInt64⟩

/-- The quotient `num / den` rounded to a natural, a half to the even neighbour. -/
def roundQuotient (num den : Nat) : Nat :=
  let q := num / den
  let r := num % den
  if 2 * r > den || 2 * r == den && q % 2 == 1 then q + 1 else q

/-- The numerator and denominator of `num / den / 2 ^ e`. -/
def scaled (num den : Nat) (e : Int) : Nat × Nat :=
  if 0 ≤ e then (num, den * Nat.pow 2 e.toNat) else (num * Nat.pow 2 (-e).toNat, den)

/-- The exponent at which `num / den` has a significand of fifty-three bits, but no less than
    that of the smallest numbers. -/
def unitExponent (num den : Nat) : Int :=
  let guess : Int := (num.log2 : Int) - (den.log2 : Int) - 52
  let (n, d) := scaled num den guess
  let e := if n / d < leadingBit then guess - 1 else guess
  if e < -1074 then -1074 else e

/-- The number nearest to `num / den`, a half to the even significand. A quotient of zero
    keeps its sign. -/
def ofRatio (negative : Bool) (num den : Nat) : Binary64 :=
  if num = 0 then pack negative 0 (-1074)
  else
    let e := unitExponent num den
    let (n, d) := scaled num den e
    pack negative (roundQuotient n d) e

/-- The number nearest to the decimal `digits · 10 ^ scale`. -/
def ofDecimal (negative : Bool) (digits : Nat) (scale : Int) : Binary64 :=
  if 0 ≤ scale then ofRatio negative (digits * Nat.pow 10 scale.toNat) 1
  else ofRatio negative digits (Nat.pow 10 (-scale).toNat)

end Binary64

end TinyLang
