/-
  TinyLang.Command.Host — what a command does where it runs.

  A host reads and writes texts, makes directories for a while and starts interpreters; each
  may fail, and the host says why.  `Command.perform` goes through its stages in a fixed
  order and stops at the first that fails, before anything is written:

      names, input, program, script, output

  An interpreter is started in a directory of its own, with the script and the runtime in
  it, and whatever comes of that the directory goes away again.
-/

import TinyLang.Command.Basic
import TinyLang.Command.Runtime
import TinyLang.Compile

namespace TinyLang

/-! ## §1. Hosts -/

/-- The ways of a place where commands run. A failure is told by the host's own words. -/
structure Host (m : Type → Type) where
  read : Channel → m (Except String String)
  write : Channel → String → m (Except String Unit)
  /-- Makes a new directory and gives its path. -/
  makeDirectory : m (Except String String)
  /-- Starts a program in a directory, with the path of a script, and gives its exit code, which
      is missing if something else ended it. -/
  start (program directory script : String) : m (Except String (Option Int))
  removeDirectory : String → m Unit

/-! ## §2. Failures -/

/-- Why a command fails. -/
inductive Failure where
  | naming (e : NamingError)
  | reading (channel : Channel) (reason : String)
  | compiling (e : CompileError)
  | writing (channel : Channel) (reason : String)
  | preparing (reason : String)
  | starting (interpreter reason : String)
deriving DecidableEq, Repr

/-- The wording of a failure. What is wrong with a text that is no JSON is for `fault` to say. -/
def Failure.message (fault : String → String) : Failure → String
  | naming e => e.message
  | reading .stream reason => "failed to read standard input: " ++ reason
  | reading (.file path) reason => "failed to read " ++ path ++ ": " ++ reason
  | compiling e => e.message fault
  | writing .stream reason => "failed to write standard output: " ++ reason
  | writing (.file path) reason => "failed to write " ++ path ++ ": " ++ reason
  | preparing reason => "failed to create a temporary directory: " ++ reason
  | starting interpreter reason => "failed to start " ++ interpreter ++ ": " ++ reason

/-! ## §3. Commands -/

namespace Command

variable {m : Type → Type} [Monad m]

/-- Reads the input, works on it and writes the output. -/
def process (host : Host m) (input output : Channel)
    (work : String → Except CompileError String) : m (Except Failure Nat) := do
  match ← host.read input with
  | .error reason => return .error (.reading input reason)
  | .ok text =>
    match work text with
    | .error e => return .error (.compiling e)
    | .ok result =>
      match ← host.write output result with
      | .error reason => return .error (.writing output reason)
      | .ok () => return .ok 0

/-- Puts a script and the runtime into a directory and starts an interpreter there. -/
def startIn (host : Host m) (directory interpreter script : String) :
    m (Except Failure (Option Int)) := do
  let program := directory ++ "/" ++ programFile
  match ← host.write (.file program) script with
  | .error reason => return .error (.writing (.file program) reason)
  | .ok () =>
    let runtime := directory ++ "/" ++ runtimeFile
    match ← host.write (.file runtime) runtimeText with
    | .error reason => return .error (.writing (.file runtime) reason)
    | .ok () =>
      match ← host.start interpreter directory program with
      | .error reason => return .error (.starting interpreter reason)
      | .ok code => return .ok code

/-- Starts an interpreter with a script, in a directory that is there for no longer. -/
def launch (host : Host m) (interpreter script : String) : m (Except Failure (Option Int)) := do
  match ← host.makeDirectory with
  | .error reason => return .error (.preparing reason)
  | .ok directory =>
    let ended ← startIn host directory interpreter script
    host.removeDirectory directory
    return ended

/-- The exit code of a command whose interpreter has ended: the interpreter's, if it fits in a
    byte. -/
def exitCode : Option Int → Nat
  | some code => if 0 ≤ code && code < 256 then code.toNat else 1
  | none => 1

/-- Reads the input, compiles it and starts an interpreter with the script. -/
def execute (host : Host m) (input : Channel) (interpreter : String) : m (Except Failure Nat) := do
  match ← host.read input with
  | .error reason => return .error (.reading input reason)
  | .ok text =>
    match compileSource Naming.standard text with
    | .error e => return .error (.compiling e)
    | .ok script => return (← launch host interpreter script).map exitCode

/-- The work of `parse`. -/
def parseWork (places : Bool) (text : String) : Except CompileError String :=
  match parseToJson text places with
  | .ok json => .ok json
  | .error e => .error (.syntaxError e)

/-- The work of `compile`. -/
def compileWork (fromTree : Bool) (names : Naming) (text : String) : Except CompileError String :=
  if fromTree then compileJson names text else compileSource names text

/-- Carries a command out and gives its exit code, or why it fails. -/
def perform (host : Host m) : Command → m (Except Failure Nat)
  | .parse input output places =>
    process host (Channel.ofPath input) (Channel.ofPath output) (parseWork places)
  | .compile input output fromTree stem =>
    match Naming.make stem Naming.standard.binding Naming.standard.path with
    | .error e => return .error (.naming e)
    | .ok names =>
      process host (Channel.ofPath input) (Channel.ofPath output) (compileWork fromTree names)
  | .exec input interpreter => execute host (Channel.ofPath input) interpreter

end Command

end TinyLang
