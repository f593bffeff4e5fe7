/-
  TinyLang.Command.Basic — the commands of the compiler.

      parse   [INPUT] [OUTPUT] [-l | --location]
      compile [INPUT] [OUTPUT] [--ast] [--prefix STEM]
      exec    [INPUT] [--node INTERPRETER]

  A path that is left out or is a dash stands for the standard stream.
-/

namespace TinyLang

/-- Where a text comes from or goes to. -/
inductive Channel where
  | stream
  | file (path : String)
deriving DecidableEq, Repr

/-- The channel of a path that may be left out. -/
def Channel.ofPath : Option String → Channel
  | none => .stream
  | some path => if path = "-" then .stream else .file path

/-- A command, with the paths that it was given. -/
inductive Command where
  | parse (input output : Option String) (places : Bool)
  | compile (input output : Option String) (fromTree : Bool) (stem : String)
  | exec (input : Option String) (interpreter : String)
deriving DecidableEq, Repr

end TinyLang
