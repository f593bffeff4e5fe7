/-
  TinyLang.Command.Arguments — the arguments of the command line.

  Each option may be given once, in any order; a value follows its option as the next
  argument or behind an equals sign, and behind a double dash there are only paths.  Only
  the outermost layer reads arguments: what commands do is said of the commands themselves.
-/

import TinyLang.Command.Basic
import TinyLang.Naming
import TinyLang.Record

namespace TinyLang.Command

/-! ## §1. Arguments -/

/-- The arguments that a command takes: flags by name and by letter, options with a value, and a
    number of paths. -/
structure Signature where
  flags : List String
  letters : List (Char × String)
  options : List String
  paths : Nat

/-- The arguments that were given. -/
structure Given where
  flags : List String
  options : List (String × String)
  paths : List String

namespace Given

/-- No arguments. -/
def empty : Given := ⟨[], [], []⟩

/-- A flag more, unless it was given before. -/
def addFlag (g : Given) (flag : String) : Option Given :=
  if flag ∈ g.flags then none else some { g with flags := g.flags ++ [flag] }

/-- A value more, unless its option was given before. -/
def addOption (g : Given) (option value : String) : Option Given :=
  if Record.has option g.options then none
  else some { g with options := g.options ++ [(option, value)] }

/-- A path more, unless it is empty or there are as many as the command takes. -/
def addPath (s : Signature) (g : Given) (path : String) : Option Given :=
  if path = "" || s.paths ≤ g.paths.length then none
  else some { g with paths := g.paths ++ [path] }

/-- The flags of a group of letters more. -/
def addLetters (s : Signature) (g : Given) : List Char → Option Given
  | [] => some g
  | c :: letters =>
    match s.letters.find? fun (letter, _) => letter == c with
    | some (_, flag) =>
      match g.addFlag flag with
      | some g => addLetters s g letters
      | none => none
    | none => none

/-- Paths more. -/
def addPaths (s : Signature) (g : Given) : List String → Option Given
  | [] => some g
  | path :: paths =>
    match addPath s g path with
    | some g => addPaths s g paths
    | none => none

end Given

/-- Whether an argument is read as an option, and not as a value or a path. -/
def isOption (argument : String) : Bool :=
  match argument.toList with
  | '-' :: _ :: _ => true
  | _ => false

/-- The name of an option that starts with two dashes, and the value behind an equals sign. -/
def splitOption (name : List Char) : String × Option String :=
  match name.dropWhile (· != '=') with
  | _ :: value => (String.ofList (name.takeWhile (· != '=')), some (String.ofList value))
  | [] => (String.ofList name, none)

/-- Reads arguments one after the other. -/
def scan (s : Signature) (g : Given) : List String → Option Given
  | [] => some g
  | argument :: rest =>
    match argument.toList with
    | ['-', '-'] => Given.addPaths s g rest
    | '-' :: '-' :: name =>
      match splitOption name with
      | (option, some value) =>
        if option ∈ s.options then do
          let g ← g.addOption option value
          scan s g rest
        else none
      | (option, none) =>
        if option ∈ s.options then
          match rest with
          | value :: rest =>
            if isOption value then none
            else do
              let g ← g.addOption option value
              scan s g rest
          | [] => none
        else if option ∈ s.flags then do
          let g ← g.addFlag option
          scan s g rest
        else none
    | '-' :: c :: letters => do
      let g ← Given.addLetters s g (c :: letters)
      scan s g rest
    | _ => do
      let g ← Given.addPath s g argument
      scan s g rest

/-! ## §2. From arguments to commands -/

/-- The arguments of `parse`. -/
def parseSignature : Signature := ⟨["location"], [('l', "location")], [], 2⟩

/-- The arguments of `compile`. -/
def compileSignature : Signature := ⟨["ast"], [], ["prefix"], 2⟩

/-- The arguments of `exec`. -/
def execSignature : Signature := ⟨[], [], ["node"], 1⟩

/-- The command that arguments ask for, if they ask for one. -/
def ofArguments? : List String → Option Command
  | "parse" :: rest => do
    let g ← scan parseSignature .empty rest
    return .parse g.paths[0]? g.paths[1]? (g.flags.contains "location")
  | "compile" :: rest => do
    let g ← scan compileSignature .empty rest
    let stem := (Record.find? "prefix" g.options).getD Naming.defaultStem
    return .compile g.paths[0]? g.paths[1]? (g.flags.contains "ast") stem
  | "exec" :: rest => do
    let g ← scan execSignature .empty rest
    let interpreter := (Record.find? "node" g.options).getD "node"
    if interpreter = "" then none else some (.exec g.paths[0]? interpreter)
  | _ => none

end TinyLang.Command
