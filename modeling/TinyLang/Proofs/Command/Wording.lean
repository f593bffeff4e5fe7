/-
  TinyLang.Proofs.Command.Wording — how a failure is told.

  A failure is told by a line of its own, whatever stage it belongs to.  `Failure.Told`
  spells these lines out, one for each cause:

      prefix        identifier prefix must be a valid identifier: "1x"
      input         failed to read PATH: REASON
      parse         Syntax error on line 1, column 9: unexpected token ';', expected statement
      JSON          input is not a JSON syntax tree: FAULT
      transform     IfStatement is missing field `condition`
      output        failed to write PATH: REASON

  and `Failure.message` is a wording in this sense.
-/

import TinyLang.Command.Host

namespace TinyLang

/-! ## §1. Names -/

/-- How a refused choice of names is told. -/
inductive NamingError.Told : NamingError → String → Prop
  | stem (stem : String) : Told (.invalidStem stem)
      ("identifier prefix must be a valid identifier: " ++ Text.quoted stem)
  | binding (binding : String) : Told (.invalidBinding binding)
      ("runtime binding must be a valid identifier: " ++ Text.quoted binding)
  | path : Told .emptyPath "runtime module path must not be empty"
  | shadowed (binding stem : String) : Told (.shadowedBinding binding stem)
      ("runtime binding " ++ Text.quoted binding ++ " starts with identifier prefix " ++
        Text.quoted stem)

/-- What something is called that would have fitted. -/
inductive Expected.Called : Expected → String → Prop
  | statement : Called .statement "statement"
  | expression : Called .expression "expression"
  | number : Called (.token .number) "integer"
  | identifier : Called (.token .identifier) "identifier"
  | keyword (k : Keyword) : Called (.token (.keyword k)) ("'" ++ k.spelling ++ "'")
  | symbol (s : Symbol) : Called (.token (.symbol s)) ("'" ++ s.spelling ++ "'")
  | invalid : Called (.token .invalid) "invalid character"
  | openComment : Called (.token .openComment) "unterminated comment"
  | endOfInput : Called (.token .endOfInput) "end of input"

/-- How the cause of a syntax error is told. -/
inductive SyntaxError.Cause.Told : SyntaxError.Cause → String → Prop
  | unexpectedToken (found : String) {expected : Expected} {name : String} :
      expected.Called name → Told (.unexpectedToken found expected)
        ("unexpected token '" ++ found ++ "', expected " ++ name)
  | unexpectedEnd {expected : Expected} {name : String} : expected.Called name →
      Told (.unexpectedEnd expected) ("unexpected end of input, expected " ++ name)
  | invalidNumber (text : String) : Told (.invalidNumber text)
      ("invalid integer literal '" ++ text ++ "'")
  | invalidCharacter (text : String) : Told (.invalidCharacter text)
      ("unexpected character '" ++ text ++ "'")
  | openComment : Told .openComment "unterminated block comment"

/-- What a shape is called. -/
inductive Shape.Called : Shape → String → Prop
  | text : Called .text "a string"
  | scalar : Called .scalar "a scalar"
  | expression : Called .expression "an expression"
  | statement : Called .statement "a statement"
  | statements : Called .statements "a sequence of statements"
  | identifiers : Called .identifiers "a sequence of identifiers"

/-- How the refusal of a tree is told. -/
inductive LoweringError.Told : LoweringError → String → Prop
  | unknownTag (tag : String) : Told (.unknownTag tag) ("No transformer for node type: " ++ tag)
  | missingField (tag : Tag) (field : String) : Told (.missingField tag field)
      (tag.name ++ " is missing field `" ++ field ++ "`")
  | unexpectedShape (tag : Tag) (field : String) {expected : Shape} {name : String} :
      expected.Called name → Told (.unexpectedShape tag field expected)
        (tag.name ++ "." ++ field ++ " must be " ++ name)
  | unknownType (name : String) : Told (.unknownType name)
      ("unsupported value type `" ++ name ++ "`, expected integer or boolean")
  | emptyDeclaration : Told .emptyDeclaration "declaration lists no identifiers"
  | unexpectedRoot (expected found : String) : Told (.unexpectedRoot expected found)
      ("expected " ++ expected ++ " at the root, found " ++ found)

/-- How a failure is told. What is wrong with a text that is no JSON is for `fault` to say. -/
inductive Failure.Told (fault : String → String) : Failure → String → Prop
  | naming {e : NamingError} {text : String} : e.Told text → Told fault (.naming e) text
  | readingStream (reason : String) : Told fault (.reading .stream reason)
      ("failed to read standard input: " ++ reason)
  | readingFile (path reason : String) : Told fault (.reading (.file path) reason)
      ("failed to read " ++ path ++ ": " ++ reason)
  | syntaxError {cause : SyntaxError.Cause} {text : String} (position : Position) :
      cause.Told text → Told fault (.compiling (.syntaxError ⟨cause, position⟩))
        ("Syntax error on line " ++ position.line.repr ++ ", column " ++ position.column.repr ++
          ": " ++ text)
  | notATree (input : String) : Told fault (.compiling (.notATree input))
      ("input is not a JSON syntax tree: " ++ fault input)
  | lowering {e : LoweringError} {text : String} : e.Told text →
      Told fault (.compiling (.lowering e)) text
  | writingStream (reason : String) : Told fault (.writing .stream reason)
      ("failed to write standard output: " ++ reason)
  | writingFile (path reason : String) : Told fault (.writing (.file path) reason)
      ("failed to write " ++ path ++ ": " ++ reason)
  | preparing (reason : String) : Told fault (.preparing reason)
      ("failed to create a temporary directory: " ++ reason)
  | starting (interpreter reason : String) : Told fault (.starting interpreter reason)
      ("failed to start " ++ interpreter ++ ": " ++ reason)

end TinyLang
