import TinyLang.Text.Position
import TinyLang.Text.Cursor
import TinyLang.Text.Character
import TinyLang.Number.Binary64
import TinyLang.Number.Shortest
import TinyLang.Record
import TinyLang.Json.Basic
import TinyLang.Json.Writer
import TinyLang.Json.Reader
import TinyLang.Json.Schema
import TinyLang.Json.Location
import TinyLang.Tree.Tag
import TinyLang.Tree.Basic
import TinyLang.Tree.Build
import TinyLang.Token.Basic
import TinyLang.Token.Lexer
import TinyLang.Program.Basic
import TinyLang.Program.Tree
import TinyLang.Program.Error
import TinyLang.Program.Parser
import TinyLang.Script.Basic
import TinyLang.Script.Literal
import TinyLang.Script.Printer
import TinyLang.Naming
import TinyLang.Lowering.Suspension
import TinyLang.Lowering.Walk
import TinyLang.Lowering.Error
import TinyLang.Lowering.Fields
import TinyLang.Lowering.Rules
import TinyLang.Compile
import TinyLang.Command.Basic
import TinyLang.Command.Arguments
import TinyLang.Command.Runtime
import TinyLang.Command.Host
import TinyLang.Command.Files
import TinyLang.Command.World
import TinyLang.Main
import TinyLang.Proofs.Parsing.Grammar
import TinyLang.Proofs.Parsing.Places
import TinyLang.Proofs.Parsing.Sound
import TinyLang.Proofs.Parsing.Complete
import TinyLang.Proofs.Json.RoundTrip
import TinyLang.Proofs.Lowering.Direct
import TinyLang.Proofs.Tree.Nodes
import TinyLang.Proofs.Lowering.Checks
import TinyLang.Proofs.Json.Nesting
import TinyLang.Proofs.Tree.Document
import TinyLang.Proofs.Tree.Exchange
import TinyLang.Proofs.Script.Grammar
import TinyLang.Proofs.Lexing.Cut
import TinyLang.Proofs.Lexing.Layout
import TinyLang.Proofs.Lexing.Slices
import TinyLang.Proofs.Parsing.Locations
import TinyLang.Proofs.Script.Printed
import TinyLang.Proofs.Parsing.WellSpelled
import TinyLang.Proofs.Parsing.Failure
import TinyLang.Proofs.Parsing.Viable
import TinyLang.Proofs.Parsing.Blind
import TinyLang.Proofs.Names
import TinyLang.Proofs.Script.Clashes
import TinyLang.Proofs.Script.Compiled
import TinyLang.Proofs.Script.Reread
import TinyLang.Proofs.Semantics.Machine
import TinyLang.Proofs.Semantics.Run
import TinyLang.Proofs.Semantics.Preserved
import TinyLang.Proofs.Command.Filing
import TinyLang.Proofs.Command.Wording
import TinyLang.Proofs.Command.Stages
import TinyLang.Proofs.Command.Runs
import TinyLang.Proofs.Lowering.Language
import TinyLang.Proofs.Lowering.Hygiene
import TinyLang.Proofs.Script.Operators.Grammar
import TinyLang.Proofs.Script.Operators.Unambiguous
import TinyLang.Proofs.Script.Operators.Grouping
import TinyLang.Proofs.Script.Alternates
import TinyLang.Proofs.Lowering.Expansion
import TinyLang.Proofs.Lowering.Decoration
import TinyLang.Proofs.Lexing.Munch
import TinyLang.Proofs.Script.Quoting
import TinyLang.Proofs.Script.Rows
import TinyLang.Proofs.Tree.Equality
import TinyLang.Proofs.Tree.Visits
import TinyLang.Proofs.Lowering.Congruence
import TinyLang.Proofs.Lexing.Reading
import TinyLang.Proofs.Parsing.Numerals
