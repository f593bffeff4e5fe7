/-
  TinyLang.Json.Basic — JSON values.

  Numbers are of two kinds that never compare equal: integers of a signed or unsigned
  64-bit word, and finite double-precision numbers.  The members of an object stand in the
  order in which they were written, and two objects are the same when each name has the
  same value in both.
-/

import TinyLang.Number.Binary64
import TinyLang.Record

namespace TinyLang

/-! ## §1. Numbers -/

/-- The integers that fit in a signed or in an unsigned 64-bit word. -/
structure Json.Integer where
  value : Int
  lower : -0x8000000000000000 ≤ value
  upper : value ≤ 0xffffffffffffffff
deriving DecidableEq, Repr

/-- The finite double-precision numbers. -/
structure Json.Float where
  value : Binary64
  finite : value.isFinite = true
deriving DecidableEq, Repr

/-- A JSON number. -/
inductive Json.Number where
  | integer (n : Json.Integer)
  | float (x : Json.Float)
deriving DecidableEq, Repr

namespace Json

/-- The integer, if it fits in a word. -/
def Integer.ofInt? (n : Int) : Option Integer :=
  if h : -0x8000000000000000 ≤ n ∧ n ≤ 0xffffffffffffffff then some ⟨n, h.1, h.2⟩ else none

/-- The number, if it is finite. -/
def Float.ofBinary64? (x : Binary64) : Option Float :=
  if h : x.isFinite = true then some ⟨x, h⟩ else none

/-- A signed word. -/
def Integer.ofInt64 (n : Int64) : Integer where
  value := n.toInt
  lower := n.le_toInt
  upper := by have := n.toInt_lt; omega

/-- A count, which stops at the greatest unsigned word. -/
def Integer.ofNat (n : Nat) : Integer :=
  if h : n ≤ 0xffffffffffffffff then ⟨n, by omega, by omega⟩
  else ⟨0xffffffffffffffff, by decide, by decide⟩

end Json

/-! ## §2. Values -/

/-- A JSON value. -/
inductive Json where
  | null
  | bool (b : Bool)
  | number (n : Json.Number)
  | string (s : String)
  | array (items : List Json)
  | object (members : List (String × Json))
deriving Repr, Inhabited

namespace Json

/-! ## §3. Equality -/

/-- Equality of numbers: integers and floats never agree, and the two zeros do. -/
def Number.same : Number → Number → Bool
  | .integer a, .integer b => a.value == b.value
  | .float a, .float b => a.value.same b.value
  | _, _ => false

mutual

/-- Equality of values; the order of an object's members does not matter. -/
def same : Json → Json → Bool
  | .null, .null => true
  | .bool a, .bool b => a == b
  | .number a, .number b => a.same b
  | .string a, .string b => a == b
  | .array as, .array bs => sameItems as bs
  | .object as, .object bs => as.length == bs.length && sameMembers as bs
  | _, _ => false

/-- Whether two lists agree item by item. -/
def sameItems : List Json → List Json → Bool
  | [], [] => true
  | a :: as, b :: bs => a.same b && sameItems as bs
  | _, _ => false

/-- Whether each member of the first object has the same value in the second. -/
def sameMembers : List (String × Json) → List (String × Json) → Bool
  | [], _ => true
  | (n, a) :: as, bs =>
    (match Record.find? n bs with
      | some b => a.same b
      | none => false) && sameMembers as bs

end

/-! ## §4. Small builders -/

/-- A signed word as a value. -/
def ofInt64 (n : Int64) : Json := .number (.integer (.ofInt64 n))

/-- A count as a value. -/
def ofNat (n : Nat) : Json := .number (.integer (.ofNat n))

end Json

end TinyLang
