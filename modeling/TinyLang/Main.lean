/-
  TinyLang.Main — the command line.

  The commands run on the real standard streams and files.  Interpreters are not started
  from here, so `exec` ends with the system's word for that.
-/

import TinyLang.Command.Arguments
import TinyLang.Command.Host

namespace TinyLang.Main

/-- All that is left of a stream. -/
partial def readAll (stream : IO.FS.Stream) (text : String) : IO String := do
  let line ← stream.getLine
  if line.isEmpty then return text else readAll stream (text ++ line)

/-- The system's wording of an error. -/
def reason (e : IO.Error) : String :=
  match e with
  | .noFileOrDirectory _ code _ => "No such file or directory (os error " ++ code.toNat.repr ++ ")"
  | .permissionDenied _ code _ => "Permission denied (os error " ++ code.toNat.repr ++ ")"
  | .inappropriateType _ code _ => "Is a directory (os error " ++ code.toNat.repr ++ ")"
  | e => e.toString

/-- Runs an action and words its error. -/
def attempt {α : Type} (action : IO α) : IO (Except String α) := do
  try
    let x ← action
    return .ok x
  catch e => return .error (reason e)

/-- The real streams and files. -/
def system : Host IO where
  read
    | .stream => attempt do readAll (← IO.getStdin) ""
    | .file path => attempt (IO.FS.readFile path)
  write
    | .stream, text => attempt do
      let stdout ← IO.getStdout
      stdout.putStr text
      stdout.flush
    | .file path, text => attempt (IO.FS.writeFile path text)
  makeDirectory := attempt do return (← IO.FS.createTempDir).toString
  start _ _ _ := return .error "Operation not permitted (os error 1)"
  removeDirectory path := do
    -- a directory that cannot be removed stays
    let _ ← attempt (IO.FS.removeDirAll path)

/-- What is wrong with a text that is no JSON. The reader does not say where it gave up. -/
def fault (_ : String) : String := "the text is not one JSON value"

end TinyLang.Main

/-- Runs the command line. -/
def main (arguments : List String) : IO UInt32 := do
  match TinyLang.Command.ofArguments? arguments with
  | none =>
    IO.eprintln "usage: parse | compile | exec, with their arguments"
    return 2
  | some command =>
    match ← command.perform TinyLang.Main.system with
    | .ok code => return code.toUInt32
    | .error e =>
      IO.eprintln (e.message TinyLang.Main.fault)
      return 1
