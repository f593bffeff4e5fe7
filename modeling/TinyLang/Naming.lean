/-
  TinyLang.Naming — the names that a compiled program uses.

  Each variable of a program is renamed by putting a stem in front of its name, and one
  more variable holds the runtime, which is loaded from a path.  `Naming.make` accepts a
  choice of the three under which the runtime's variable cannot be one of the program's.
-/

import TinyLang.Text.Character

namespace TinyLang

/-- The names that a compiled program uses: the stem of its variables, the variable that holds the
    runtime, and the path that the runtime is loaded from. -/
structure Naming where
  stem : String
  binding : String
  path : String
deriving DecidableEq, Repr

/-- Why a choice of names is refused. -/
inductive NamingError where
  | invalidStem (stem : String)
  | invalidBinding (binding : String)
  | emptyPath
  | shadowedBinding (binding stem : String)
deriving DecidableEq, Repr

/-- The wording of a refusal. -/
def NamingError.message : NamingError → String
  | invalidStem stem => "identifier prefix must be a valid identifier: " ++ Text.quoted stem
  | invalidBinding binding =>
    "runtime binding must be a valid identifier: " ++ Text.quoted binding
  | emptyPath => "runtime module path must not be empty"
  | shadowedBinding binding stem =>
    "runtime binding " ++ Text.quoted binding ++ " starts with identifier prefix " ++
      Text.quoted stem

namespace Naming

/-! ## §1. Identifiers -/

/-- Whether a character can start an identifier. -/
def isIdentifierStart (c : Char) : Bool := c.isAlpha || c == '_' || c == '$'

/-- Whether a character can stand in an identifier. -/
def isIdentifierChar (c : Char) : Bool := c.isAlphanum || c == '_' || c == '$'

/-- Whether a text is an identifier of a script. -/
def isIdentifier (text : String) : Bool :=
  match text.toList with
  | [] => false
  | c :: rest => isIdentifierStart c && rest.all isIdentifierChar

/-- An identifier is a first character and others, each from its own class. -/
theorem isIdentifier_iff {text : String} :
    isIdentifier text = true ↔ ∃ c rest, text.toList = c :: rest ∧ isIdentifierStart c = true ∧
      rest.all isIdentifierChar = true := by
  unfold isIdentifier
  cases text.toList with
  | nil => simp
  | cons c rest =>
      constructor
      · intro h
        rw [Bool.and_eq_true] at h
        exact ⟨c, rest, rfl, h⟩
      · rintro ⟨c', rest', heq, hstart, hrest⟩
        obtain ⟨rfl, rfl⟩ := List.cons.inj heq
        exact Bool.and_eq_true_iff.2 ⟨hstart, hrest⟩

/-! ## §2. Choices of names -/

/-- The choice of names, unless it is refused. The stem is looked at first, then the variable of
    the runtime, then the path. -/
def make (stem binding path : String) : Except NamingError Naming :=
  if !isIdentifier stem then .error (.invalidStem stem)
  else if !isIdentifier binding then .error (.invalidBinding binding)
  else if path.toList.all Text.isBlank then .error .emptyPath
  else if stem.toList.isPrefixOf binding.toList then .error (.shadowedBinding binding stem)
  else .ok ⟨stem, binding, path⟩

/-- The stem, unless another one is asked for. -/
def defaultStem : String := "tiny$"

/-- The choice of names, unless another one is asked for. -/
def standard : Naming := ⟨defaultStem, "runtime", "./runtime"⟩

/-- The name of a program's variable in the script. -/
def rename (names : Naming) (name : String) : String := names.stem ++ name

/-- The function that loads the runtime. -/
def loader : String := "require"

/-- The runtime's member that gives the next input. -/
def readMember : String := "read"

/-- The runtime's member that takes an output. -/
def outputMember : String := "output"

end Naming

end TinyLang
