/-
  TinyLang.Compile — from a source text to the text of a script.

  A source text is parsed, its tree becomes a script, and the script is printed; a tree
  written as JSON text goes the same way from the tree on.
-/

import TinyLang.Json.Reader
import TinyLang.Lowering.Rules
import TinyLang.Program.Parser
import TinyLang.Script.Printer

namespace TinyLang

/-- Why a text does not compile. -/
inductive CompileError where
  | syntaxError (e : SyntaxError)
  | notATree (text : String)
  | lowering (e : LoweringError)
deriving DecidableEq, Repr

/-- The wording of a failure, in short. -/
def CompileError.headline : CompileError → String
  | syntaxError e => e.message
  | notATree _ => "input is not a JSON syntax tree"
  | lowering e => e.message

/-- The wording of a failure, with its cause behind a colon if there is one. What is wrong with a
    text that is no JSON is for `fault` to say. -/
def CompileError.message (fault : String → String) (e : CompileError) : String :=
  match e with
  | notATree text => e.headline ++ ": " ++ fault text
  | syntaxError _ | lowering _ => e.headline

/-- The pretty JSON text of the syntax tree of a source text, with a line feed at its end. -/
def parseToJson (source : String) (places : Bool) : Except SyntaxError String :=
  (Tree.parse source places).map fun t => t.pretty ++ "\n"

/-- The text of the script that a tree becomes. -/
def Tree.compile (names : Naming) (t : Tree) : Except CompileError String :=
  match t.lowerProgram names with
  | .ok script => .ok (Script.print Script.defaultWidth script)
  | .error e => .error (.lowering e)

/-- The text of the script that a source text becomes. -/
def compileSource (names : Naming) (source : String) : Except CompileError String :=
  match Tree.parse source false with
  | .ok t => t.compile names
  | .error e => .error (.syntaxError e)

/-- The syntax tree that a JSON text holds. -/
def Tree.ofText? (text : String) : Option Tree := (Json.parse? text).map Tree.ofJson

/-- The text of the script that a tree written as JSON text becomes. -/
def compileJson (names : Naming) (text : String) : Except CompileError String :=
  match Tree.ofText? text with
  | some t => t.compile names
  | none => .error (.notATree text)

end TinyLang
