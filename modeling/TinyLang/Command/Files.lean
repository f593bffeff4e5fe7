/-
  TinyLang.Command.Files — files by their paths.

  A path is followed name by name from the root or from the working directory: a dot stays,
  two dots go up, and every name but the last has to be that of a directory.  The
  directories above the working directory exist, and nothing is known of what else they
  hold.  A slash behind the last name asks for a directory, and a file can be created only
  where none is asked for.  A file holds bytes.
-/

import TinyLang.Record

namespace TinyLang

/-! ## §1. Errors -/

/-- Why a file cannot be read or written. -/
inductive FileError where
  | notFound
  | notADirectory
  | isADirectory
  | nameTooLong
  | alreadyThere
deriving DecidableEq, Repr

/-- The system's wording. -/
def FileError.message : FileError → String
  | notFound => "No such file or directory (os error 2)"
  | notADirectory => "Not a directory (os error 20)"
  | isADirectory => "Is a directory (os error 21)"
  | nameTooLong => "File name too long (os error 36)"
  | alreadyThere => "File exists (os error 17)"

/-! ## §2. Paths -/

/-- A path: whether it starts at the root, the names along it, and whether a slash stands behind
    the last of them. -/
structure Path where
  rooted : Bool
  names : List String
  slashed : Bool
deriving DecidableEq, Repr

namespace Path

/-- The texts between the slashes of a text. -/
def pieces : List Char → List (List Char)
  | [] => [[]]
  | c :: text =>
    if c = '/' then [] :: pieces text
    else
      match pieces text with
      | [] => [[c]]
      | piece :: more => (c :: piece) :: more

/-- The path that a text writes. Slashes in a row count as one. -/
def ofString (text : String) : Path where
  rooted := text.toList.head? == some '/'
  names := ((pieces text.toList).filter fun piece => !piece.isEmpty).map String.ofList
  slashed := text.toList.getLast? == some '/'

/-- Whether a text is the name of something in a directory, and no step in place or upwards. -/
def isPlain (name : String) : Bool :=
  name != "" && name != "." && name != ".." && !name.toList.contains '/'

/-- The number of bytes that a path has to stay below. -/
def limit : Nat := 4096

/-- The greatest number of bytes of a name. -/
def nameLimit : Nat := 255

end Path

/-! ## §3. Directories -/

/-- A directory, by the names that lead to it from the root or from the working directory. Two dots
    stand only in front, for the directories above the working directory. -/
structure Directory where
  rooted : Bool
  names : List String
deriving DecidableEq, Repr

namespace Directory

/-- The path of a directory. -/
def path (d : Directory) : String := (if d.rooted then "/" else "") ++ "/".intercalate d.names

/-- The directory that holds a directory. The root holds itself. -/
def parent (d : Directory) : Directory :=
  match d.names.getLast? with
  | none => if d.rooted then d else { d with names := [".."] }
  | some name =>
    if name = ".." then { d with names := d.names ++ [".."] }
    else { d with names := d.names.dropLast }

/-- What has a name in a directory. -/
def child (d : Directory) (name : String) : Directory := { d with names := d.names ++ [name] }

/-- Whether a directory is the root, the working directory or above it. -/
def isGiven (d : Directory) : Bool := d.names.isEmpty || d.names.getLast? == some ".."

end Directory

/-- A directory that has a name of its own, so that its path leads back to it. -/
structure Folder extends Directory where
  ne_nil : names ≠ []
  plain : ∀ name ∈ names, Path.isPlain name = true

/-! ## §4. Files -/

/-- What is stored: directories that were made, and the bytes of files, by their paths from the
    working directory or from the root. -/
structure Files where
  folders : List String
  contents : List (String × ByteArray)

namespace Files

/-- The paths of all that is stored. -/
def paths (files : Files) : List String := files.folders ++ Record.names files.contents

/-- Whether a path is below a directory with a path. -/
def isBelow (directory path : String) : Bool :=
  (directory ++ "/").toList.isPrefixOf path.toList

/-- Whether a path is that of a directory: it was made, or something is below it. -/
def holds (files : Files) (path : String) : Bool :=
  files.folders.contains path || files.paths.any (isBelow path)

/-- Whether there is a directory: it is given, or it is stored. -/
def isDirectory (files : Files) (d : Directory) : Bool := d.isGiven || files.holds d.path

/-- The directory that has a name in a directory. -/
def enter (files : Files) (d : Directory) (name : String) : Except FileError Directory :=
  if name = "." then .ok d
  else if name = ".." then .ok d.parent
  else if Path.nameLimit < name.utf8ByteSize then .error .nameTooLong
  else if Record.has (d.child name).path files.contents then .error .notADirectory
  else if files.isDirectory (d.child name) then .ok (d.child name)
  else .error .notFound

/-- Where a path ends: at a directory that is there, or at a name in one. -/
inductive Ending where
  | directory
  | name (d : Directory) (name : String) (slashed : Bool)
deriving DecidableEq, Repr

/-- Follows a path to its end. -/
def locate (files : Files) (text : String) : Except FileError Ending :=
  if text = "" then .error .notFound
  else if Path.limit ≤ text.utf8ByteSize then .error .nameTooLong
  else
    let path := Path.ofString text
    match path.names.getLast? with
    | none => .ok .directory
    | some name => do
      let d ← path.names.dropLast.foldlM files.enter ⟨path.rooted, []⟩
      if name = "." || name = ".." then .ok .directory else .ok (.name d name path.slashed)

/-- The content of a file. -/
def read (files : Files) (text : String) : Except FileError ByteArray := do
  match ← files.locate text with
  | .directory => .error .isADirectory
  | .name d name slashed =>
    if Path.nameLimit < name.utf8ByteSize then .error .nameTooLong
    else
      match Record.find? (d.child name).path files.contents with
      | some content => if slashed then .error .notADirectory else .ok content
      | none =>
        if files.isDirectory (d.child name) then .error .isADirectory else .error .notFound

/-- The files with a content under a path. -/
def put (files : Files) (path : String) (content : ByteArray) : Files :=
  { files with contents := Record.put path content files.contents }

/-- The files with a content written to a path. -/
def write (files : Files) (text : String) (content : ByteArray) : Except FileError Files := do
  match ← files.locate text with
  | .directory => .error .isADirectory
  | .name d name slashed =>
    if slashed then .error .isADirectory
    else if Path.nameLimit < name.utf8ByteSize then .error .nameTooLong
    else if files.isDirectory (d.child name) then .error .isADirectory
    else .ok (files.put (d.child name).path content)

/-! ## §5. Directories that come and go -/

/-- Whether a path is that of a directory, or below it. -/
def isWithin (directory path : String) : Bool := path == directory || isBelow directory path

/-- The files with a new directory, which has to be new. -/
def make (files : Files) (d : Directory) : Except FileError Files :=
  if !files.isDirectory d.parent then .error .notFound
  else if files.paths.any (isWithin d.path) then .error .alreadyThere
  else .ok { files with folders := files.folders ++ [d.path] }

/-- The files without a directory and all that is in it. -/
def without (files : Files) (directory : String) : Files where
  folders := files.folders.filter fun path => !isWithin directory path
  contents := files.contents.filter fun file => !isWithin directory file.1

/-- The files in the working directory and below. -/
def inside (files : Files) : List (String × ByteArray) :=
  files.contents.filter fun (path, _) => !(Path.ofString path).rooted &&
    (Path.ofString path).names.head? != some ".."

end Files

end TinyLang
