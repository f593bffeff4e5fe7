/-
  TinyLang.Command.World — a host that is a value.

  A world has a standard input, files, programs that can be started, and what was written
  to the two output streams so far.  Streams and files hold bytes, and what is read has to
  be a text.  `Command.run` gives the exit code, the two output streams and the files
  behind a run of a command.
-/

import TinyLang.Command.Files
import TinyLang.Command.Host

namespace TinyLang

/-! ## §1. Worlds -/

/-- What a program that was started leaves behind: its output, its exit code unless something else
    ended it, and the files. -/
structure Ran where
  stdout : ByteArray
  stderr : ByteArray
  code : Option Int
  files : Files

/-- A program that can be started: what it leaves behind, by the directory that it is started in,
    the path of its script and the files that are there. -/
abbrev Interpreter := String → String → Files → Ran

/-- A world. Where something cannot be done there is the system's word for it instead. -/
structure World where
  /-- What stands in the standard input. -/
  stdin : Except String ByteArray
  /-- Why the standard output takes nothing, if it takes nothing. -/
  blocked : Option String
  /-- Where a new directory would be made. -/
  folder : Except String Folder
  /-- The programs that can be started, by name. -/
  programs : String → Except String Interpreter
  files : Files
  stdout : ByteArray
  stderr : ByteArray

namespace World

/-- The word for bytes that are no text. -/
def notText : String := "stream did not contain valid UTF-8"

/-- The bytes in a channel. -/
def bytes (channel : Channel) (w : World) : Except String ByteArray :=
  match channel with
  | .stream => w.stdin
  | .file path => (w.files.read path).mapError FileError.message

/-- Reads from a channel. -/
def read (channel : Channel) (w : World) : Except String String :=
  match w.bytes channel with
  | .error reason => .error reason
  | .ok bytes =>
    match String.fromUTF8? bytes with
    | some text => .ok text
    | none => .error notText

/-- Writes to a channel. -/
def write (channel : Channel) (text : String) (w : World) : Except String Unit × World :=
  match channel with
  | .stream =>
    match w.blocked with
    | some reason => (.error reason, w)
    | none => (.ok (), { w with stdout := w.stdout ++ text.toUTF8 })
  | .file path =>
    match w.files.write path text.toUTF8 with
    | .ok files => (.ok (), { w with files := files })
    | .error e => (.error e.message, w)

/-- Makes a new directory. -/
def makeDirectory (w : World) : Except String String × World :=
  match w.folder with
  | .error reason => (.error reason, w)
  | .ok folder =>
    match w.files.make folder.toDirectory with
    | .ok files => (.ok folder.path, { w with files := files })
    | .error e => (.error e.message, w)

/-- Starts a program. -/
def start (program directory script : String) (w : World) : Except String (Option Int) × World :=
  match w.programs program with
  | .error reason => (.error reason, w)
  | .ok run =>
    let ran := run directory script w.files
    (.ok ran.code,
      { w with
        stdout := w.stdout ++ ran.stdout
        stderr := w.stderr ++ ran.stderr
        files := ran.files })

/-- Removes a directory. -/
def removeDirectory (directory : String) (w : World) : World :=
  { w with files := w.files.without directory }

/-- A world as a host. -/
def host : Host (StateM World) where
  read channel := fun w => (w.read channel, w)
  write channel text := fun w => w.write channel text
  makeDirectory := fun w => w.makeDirectory
  start program directory script := fun w => w.start program directory script
  removeDirectory directory := fun w => ((), w.removeDirectory directory)

end World

/-! ## §2. Runs -/

/-- What a run of a command leaves behind. -/
structure Outcome where
  code : Nat
  stdout : ByteArray
  stderr : ByteArray
  files : Files

/-- The exit code for arguments that ask for no command. -/
def usageCode : Nat := 2

/-- The exit code of a command that fails. -/
def failureCode : Nat := 1

/-- Carries a command out in a world. What is wrong with a text that is no JSON is for `fault` to
    say. -/
def Command.run (fault : String → String) (c : Command) (w : World) : Outcome :=
  match (c.perform World.host).run w with
  | (.ok code, w) => ⟨code, w.stdout, w.stderr, w.files⟩
  | (.error e, w) =>
    ⟨failureCode, w.stdout, w.stderr ++ (e.message fault ++ "\n").toUTF8, w.files⟩

end TinyLang
