/-
  TinyLang.Number.Shortest — the fewest decimal digits that read back.

  Around a finite number lies the interval of the reals that round to it.  The shortest
  decimal of the number is the point of the coarsest decimal grid that meets the
  interval, and of the grid's points the one nearest to the number.  Where two points
  are equally near, `Tie` says which is taken.  `Decimal.positional` and
  `Decimal.scientific` lay the digits out.
-/

import TinyLang.Number.Binary64

namespace TinyLang

/-- A decimal `digits · 10 ^ scale`. -/
structure Decimal where
  digits : Nat
  scale : Int
deriving DecidableEq, Repr

/-- Which of two equally near decimals is taken: the greater, or the one with an even last
    digit. -/
inductive Tie where
  | up
  | even
deriving DecidableEq, Repr

namespace Binary64

/-! ## §1. Choosing the digits -/

/-- The rounding interval of a finite number other than zero, in quarters of the unit
    `2 ^ exponent`: the lower end, the number itself, the upper end. Below a power of two the
    numbers lie twice as close. -/
def interval (x : Binary64) : Nat × Nat × Nat :=
  let m := x.significand
  let below := if x.fractionField = 0 && 1 < x.exponentField then 1 else 2
  (4 * m - below, 4 * m, 4 * m + 2)

/-- The point of the grid `10 ^ scale` that stands for `x`, if one lies in the rounding interval.
    The ends belong to the interval when the significand is even. -/
def onGrid (tie : Tie) (x : Binary64) (scale : Int) : Option Nat :=
  let (low, mid, high) := x.interval
  let quarter := x.exponent - 2
  let grid := Nat.pow 10 scale.toNat * Nat.pow 2 (-quarter).toNat
  let unit := Nat.pow 2 quarter.toNat * Nat.pow 10 (-scale).toNat
  let closed := x.significand % 2 == 0
  let inside (n : Nat) : Bool :=
    if closed then low * unit ≤ n * grid && n * grid ≤ high * unit
    else low * unit < n * grid && n * grid < high * unit
  let lower := mid * unit / grid
  let upper := lower + 1
  match inside lower, inside upper with
  | false, false => none
  | true, false => some lower
  | false, true => some upper
  | true, true =>
    let toLower := mid * unit - lower * grid
    let toUpper := upper * grid - mid * unit
    if toLower < toUpper then some lower
    else if toUpper < toLower then some upper
    else match tie with
      | .up => some upper
      | .even => if lower % 2 == 0 then some lower else some upper

/-- The first hit on the grids `10 ^ scale`, `10 ^ (scale - 1)`, …, at most `steps` of them. -/
def coarsest (tie : Tie) (x : Binary64) : Nat → Int → Decimal
  | 0, _ => ⟨0, 0⟩
  | steps + 1, scale =>
    match x.onGrid tie scale with
    | some digits => ⟨digits, scale⟩
    | none => coarsest tie x steps (scale - 1)

/-- The shortest decimal for the magnitude of a finite number. The search starts on a grid too
    coarse for the number; a grid as fine as its unit always has a hit, at most eighteen steps
    further. -/
def shortest (tie : Tie) (x : Binary64) : Decimal :=
  if x.isZero then ⟨0, 0⟩
  else coarsest tie x 25 ((x.exponent + 54) * 30103 / 100000 + 2)

end Binary64

/-! ## §2. Laying the digits out -/

namespace Decimal

/-- The exponent in the notation with one digit before the point. -/
def magnitude (d : Decimal) : Int := (Nat.toDigits 10 d.digits).length + d.scale - 1

/-- All digits, with zeros up to the point and a point only in front of further digits. -/
def positional (d : Decimal) : String :=
  let ds := Nat.toDigits 10 d.digits
  let point : Int := ds.length + d.scale
  if 0 ≤ d.scale then String.ofList (ds ++ List.replicate d.scale.toNat '0')
  else if 0 < point then
    String.ofList (ds.take point.toNat) ++ "." ++ String.ofList (ds.drop point.toNat)
  else "0." ++ String.ofList (List.replicate (-point).toNat '0' ++ ds)

/-- One digit before the point and a signed exponent. -/
def scientific (d : Decimal) : String :=
  let mantissa := match Nat.toDigits 10 d.digits with
    | first :: second :: more => String.ofList (first :: '.' :: second :: more)
    | ds => String.ofList ds
  let sign := if d.magnitude < 0 then "-" else "+"
  mantissa ++ "e" ++ sign ++ d.magnitude.natAbs.repr

end Decimal

end TinyLang
