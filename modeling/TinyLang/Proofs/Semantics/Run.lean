/-
  TinyLang.Proofs.Semantics.Run — what programs and scripts do.

  Both languages evaluate operands from left to right and share one interpretation.  A step
  is an expression statement or a test; declarations, blocks and empty statements take none.

  A program has values only.  A script has objects beside them: the loader, which stands in
  a variable from the start, the runtime that it gives for the path of the runtime, and the
  two members through which a script reads and writes.
-/

import TinyLang.Naming
import TinyLang.Program.Basic
import TinyLang.Proofs.Semantics.Machine
import TinyLang.Script.Basic

namespace TinyLang

open Semantics

variable {α V : Type}

/-! ## §1. Programs -/

/-- The value of a literal. -/
def Literal.eval (I : Interpretation V) : Literal → V
  | .null => I.null
  | .bool b => I.bool b
  | .integer n => I.integer n.toInt
  | .string s => I.string s

/-- The value that a variable of a type starts with. -/
def ValueType.initial (I : Interpretation V) : ValueType → V
  | .integer => I.integer 0
  | .boolean => I.bool false

/-- Evaluates an expression. -/
def Expr.eval (I : Interpretation V) : Expr α → Act V V V
  | .name x => load x.name
  | .literal _ value => pure (value.eval I)
  | .read _ => takeInput
  | .unary _ op e => do
    let v ← e.eval I
    demand (I.unary op v)
  | .binary _ op e f => do
    let v ← e.eval I
    match I.decided op v with
    | some result => pure result
    | none => do
      let w ← f.eval I
      demand (I.binary op v w)

/-- Evaluates a test. -/
def Expr.holds (I : Interpretation V) (e : Expr α) : Act V V Bool := do
  let v ← e.eval I
  pure (I.truth v)

mutual

/-- Executes a statement. -/
def Stmt.exec (I : Interpretation V) : Stmt α → Act V V Unit
  | .block _ body => Stmt.execAll I body
  | .assign _ x e => do
    tick
    let v ← e.eval I
    save x.name v
  | .output _ e => do
    tick
    let v ← e.eval I
    emit v
  | .loop _ e s => repeatWhile (e.holds I) (s.exec I)
  | .choice _ e s t => do
    tick
    if ← e.holds I then Stmt.execBranch I s else Stmt.execBranch I t

/-- Executes statements one after the other. -/
def Stmt.execAll (I : Interpretation V) : List (Stmt α) → Act V V Unit
  | [] => pure ()
  | s :: body => do
    s.exec I
    Stmt.execAll I body

/-- Executes a branch. One that is absent does nothing. -/
def Stmt.execBranch (I : Interpretation V) : Option (Stmt α) → Act V V Unit
  | none => pure ()
  | some s => s.exec I

end

/-- Gives the variables of a declaration their first value, one after the other. -/
def initialise (v : V) : List (Identifier α) → Act V V Unit
  | [] => pure ()
  | x :: xs => do
    save x.name v
    initialise v xs

/-- Executes declarations one after the other. -/
def Declaration.execAll (I : Interpretation V) : List (Declaration α) → Act V V Unit
  | [] => pure ()
  | d :: ds => do
    initialise (d.type.initial I) d.names
    Declaration.execAll I ds

/-- Executes a program. -/
def Program.exec (I : Interpretation V) (p : Program α) : Act V V Unit := do
  Declaration.execAll I p.declarations
  p.body.exec I

/-- Runs a program on inputs for at most a number of steps. No variable has a value at first. -/
def Program.run (I : Interpretation V) (p : Program α) (bound : Nat) (inputs : List V) :
    Except Stop Unit × Machine V V :=
  p.exec I ⟨bound, inputs, [], fun _ => none⟩

/-! ## §2. Scripts -/

namespace Script

/-- What a variable of a script can hold. -/
inductive Value (V : Type) where
  | data (v : V)
  | nothing
  | loader
  | runtime
  | reader
  | writer
deriving DecidableEq, Repr

/-- The data that a value is, if it is no object. -/
def Value.data? : Value V → Option V
  | .data v => some v
  | _ => none

/-- A member of an object. -/
def Value.member? : Value V → String → Option (Value V)
  | .runtime, name =>
    if name = Naming.readMember then some .reader
    else if name = Naming.outputMember then some .writer
    else none
  | _, _ => none

/-- The value of a literal. -/
def Literal.eval (I : Interpretation V) : Literal → V
  | .null => I.null
  | .bool b => I.bool b
  | .integer n => I.integer n
  | .number x => I.number x
  | .string s => I.string s

variable [DecidableEq V]

/-- Calls a function. The loader gives the runtime for its path and nothing else. -/
def Value.call (I : Interpretation V) (path : String) :
    Value V → List (Value V) → Act (Value V) V (Value V)
  | .loader, [.data v] => if v = I.string path then pure .runtime else stop .fault
  | .reader, [] => do
    let v ← takeInput
    pure (.data v)
  | .writer, [.data v] => do
    emit v
    pure .nothing
  | _, _ => stop .fault

mutual

/-- Evaluates an expression. What scripts of programs do not hold is a fault. -/
def Expr.eval (I : Interpretation V) (path : String) : Expr → Act (Value V) V (Value V)
  | .identifier name => load name
  | .literal value => pure (.data (value.eval I))
  | .call callee arguments => do
    let f ← callee.eval I path
    let values ← Expr.evalAll I path arguments
    f.call I path values
  | .member object property => do
    let o ← object.eval I path
    demand (o.member? property)
  | .assign "=" (.identifier name) right => do
    let v ← right.eval I path
    save name v
    pure v
  | .unary .before op e => do
    let v ← e.eval I path
    let v ← demand v.data?
    let result ← demand (I.unary op v)
    pure (.data result)
  | .binary op left right => do
    let v ← left.eval I path
    let v ← demand v.data?
    match I.decided op v with
    | some result => pure (.data result)
    | none => do
      let w ← right.eval I path
      let w ← demand w.data?
      let result ← demand (I.binary op v w)
      pure (.data result)
  | _ => stop .fault

/-- Evaluates arguments from left to right. -/
def Expr.evalAll (I : Interpretation V) (path : String) :
    List Expr → Act (Value V) V (List (Value V))
  | [] => pure []
  | e :: es => do
    let v ← e.eval I path
    let vs ← Expr.evalAll I path es
    pure (v :: vs)

end

/-- Evaluates a test. -/
def Expr.holds (I : Interpretation V) (path : String) (e : Expr) : Act (Value V) V Bool := do
  let v ← e.eval I path
  let v ← demand v.data?
  pure (I.truth v)

/-- Gives variables their first values, one after the other. -/
def declareAll (I : Interpretation V) (path : String) :
    List (String × Option Expr) → Act (Value V) V Unit
  | [] => pure ()
  | (_, none) :: ds => declareAll I path ds
  | (name, some e) :: ds => do
    let v ← e.eval I path
    save name v
    declareAll I path ds

mutual

/-- Executes a statement. -/
def Stmt.exec (I : Interpretation V) (path : String) : Stmt → Act (Value V) V Unit
  | .declare .varWord ds => declareAll I path ds
  | .declare _ _ => stop .fault
  | .expression e => do
    tick
    let _ ← e.eval I path
    pure ()
  | .block body => Stmt.execAll I path body
  | .loop test body => repeatWhile (test.holds I path) (body.exec I path)
  | .choice test consequent none => do
    tick
    if ← test.holds I path then consequent.exec I path else pure ()
  | .choice test consequent (some alternate) => do
    tick
    if ← test.holds I path then consequent.exec I path else alternate.exec I path
  | .empty => pure ()

/-- Executes statements one after the other. -/
def Stmt.execAll (I : Interpretation V) (path : String) : List Stmt → Act (Value V) V Unit
  | [] => pure ()
  | s :: body => do
    s.exec I path
    Stmt.execAll I path body

end

/-- Runs a script on inputs for at most a number of steps. At first one variable has a value: the
    loader of the runtime that lies at a path. -/
def run (I : Interpretation V) (path : String) (script : List Stmt) (bound : Nat)
    (inputs : List V) : Except Stop Unit × Machine (Value V) V :=
  Stmt.execAll I path script
    ⟨bound, inputs, [], fun name => if name = Naming.loader then some .loader else none⟩

end Script

end TinyLang
