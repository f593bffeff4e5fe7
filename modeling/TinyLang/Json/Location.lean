/-
  TinyLang.Json.Location — points and ranges of a source text as JSON.

  A point is written with the members `offset`, `line` and `column`, a range with the
  members `start` and `end`.
-/

import TinyLang.Json.Schema
import TinyLang.Text.Position

namespace TinyLang

namespace Position

/-- A point as a JSON object. -/
def toJson (p : Position) : Json :=
  .object [("offset", .ofNat p.offset), ("line", .ofNat p.line), ("column", .ofNat p.column)]

/-- Reads a point. -/
def read? (text : List Char) : Option (Position × List Char) := do
  match ← Json.fields? ["offset", "line", "column"] Json.word? text with
  | ([offset, line, column], rest) => return (⟨offset, line, column⟩, rest)
  | _ => none

end Position

namespace Location

/-- A range as a JSON object. -/
def toJson (l : Location) : Json :=
  .object [("start", l.start.toJson), ("end", l.stop.toJson)]

/-- Reads a range. -/
def read? (text : List Char) : Option (Location × List Char) := do
  match ← Json.fields? ["start", "end"] Position.read? text with
  | ([start, stop], rest) => return (⟨start, stop⟩, rest)
  | _ => none

/-- The range that a text holds. -/
def parse? (text : String) : Option Location := Json.complete? read? text

end Location

end TinyLang
