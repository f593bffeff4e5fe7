/-
  TinyLang.Json.Schema — reading JSON text of a known form.

  A record with fixed names is written as an object with each name once, or as an array of
  the values in the order of the names.  Members with other names are passed over by
  `skip?`, which keeps to the grammar but asks for no meaning: it follows any depth, takes
  numbers of any size and unpaired escapes.
-/

import TinyLang.Json.Reader

namespace TinyLang.Json

/-! ## §1. Passing over a value -/

/-- Passes over a string literal behind its opening quote. -/
def skipString? (text : List Char) : Option (Unit × List Char) :=
  (stringParts text).map fun (_, rest) => ((), rest)

/-- Passes over a value that is no array and no object. -/
def skipScalar? (text : List Char) : Option (Unit × List Char) :=
  match text with
  | 'n' :: 'u' :: 'l' :: 'l' :: rest => some ((), rest)
  | 't' :: 'r' :: 'u' :: 'e' :: rest => some ((), rest)
  | 'f' :: 'a' :: 'l' :: 's' :: 'e' :: rest => some ((), rest)
  | '"' :: rest => skipString? rest
  | _ => (spelling? text).map fun (_, rest) => ((), rest)

/-- Passes over a value; `bound` bounds the characters ahead. -/
def skip? : Nat → List Char → Option (Unit × List Char)
  | 0, _ => none
  | bound + 1, text =>
    match skipBlanks text with
    | '[' :: rest => (arrayOf? (skip? bound) rest).map fun (_, rest) => ((), rest)
    | '{' :: rest =>
      let read : MemberReader Unit :=
        ⟨fun text => (skipString? text).map fun (_, rest) => ("", rest), fun _ => skip? bound⟩
      (objectOf? read rest).map fun (_, rest) => ((), rest)
    | text => skipScalar? text

/-! ## §2. Records with fixed names -/

variable {α : Type}

/-- The value of a name that occurs once. -/
def single? (name : String) (members : List (String × Option α)) : Option α :=
  match members.filter fun (n, _) => n == name with
  | [(_, v)] => v
  | _ => none

/-- A record with the given names, as the list of its values in the order of the names. -/
def fields? (names : List String) (field : List Char → Option (α × List Char))
    (text : List Char) : Option (List α × List Char) :=
  match skipBlanks text with
  | '[' :: rest => do
    let (values, rest) ← arrayOf? field rest
    if values.length = names.length then return (values, rest) else none
  | '{' :: rest => do
    let read : MemberReader (Option α) :=
      ⟨string?, fun name text =>
        if name ∈ names then (field text).map fun (v, rest) => (some v, rest)
        else (skip? text.length text).map fun (_, rest) => (none, rest)⟩
    let (members, rest) ← objectOf? read rest
    let values ← names.mapM fun name => single? name members
    return (values, rest)
  | _ => none

/-- A non-negative integer that fits in a word. -/
def word? (text : List Char) : Option (Nat × List Char) := do
  match ← number? (skipBlanks text) with
  | (.integer n, rest) => if 0 ≤ n.value then return (n.value.toNat, rest) else none
  | (.float _, _) => none

end TinyLang.Json
