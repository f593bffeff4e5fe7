/-
  TinyLang.Proofs.Command.Stages — one stage after the other.

  A command that writes a text goes through five stages, each with what the stages before
  it have found:

      names → input → tree → script → output

  The first stage that fails gives the error, and the last one is the only one that changes
  anything.  This holds on every host that is STEADY: on which reading changes nothing, and
  on which a write that fails changes nothing.
-/

import TinyLang.Command.Host

namespace TinyLang

/-! ## §1. Stages -/

namespace Command

/-- Where a command takes its text from. -/
def input : Command → Option String
  | .parse input _ _ | .compile input _ _ _ | .exec input _ => input

/-- The names that the script of a command uses. A stem of one's own has to be an identifier that
    the variable of the runtime does not start with. -/
def naming : Command → Except NamingError Naming
  | .compile _ _ _ stem =>
    if !Naming.isIdentifier stem then .error (.invalidStem stem)
    else if stem.toList.isPrefixOf "runtime".toList then .error (.shadowedBinding "runtime" stem)
    else .ok ⟨stem, "runtime", "./runtime"⟩
  | .parse _ _ _ | .exec _ _ => .ok ⟨"tiny$", "runtime", "./runtime"⟩

/-- The syntax tree of the text that a command takes: parsed, or decoded if it is JSON. -/
def treeOf : Command → String → Except CompileError Tree
  | .parse _ _ places, text => (Tree.parse text places).mapError .syntaxError
  | .compile _ _ true _, text =>
    match Tree.ofText? text with
    | some t => .ok t
    | none => .error (.notATree text)
  | .compile _ _ false _, text | .exec _ _, text => (Tree.parse text false).mapError .syntaxError

/-- The text that a command makes of a syntax tree: the tree written out, or its script. -/
def resultOf : Command → Naming → Tree → Except LoweringError String
  | .parse _ _ _, _, t => .ok (t.pretty ++ "\n")
  | .compile _ _ _ _, names, t | .exec _ _, names, t =>
    (t.lowerProgram names).map (Script.print Script.defaultWidth)

/-- A command finds a result in what reading its input gives: its names are accepted, the input is
    a text, and there is a tree in it of which the result can be made. -/
def Finds (c : Command) (got : Except String String) (result : String) : Prop :=
  ∃ names text t, c.naming = .ok names ∧ got = .ok text ∧ c.treeOf text = .ok t ∧
    c.resultOf names t = .ok result

/-- The first stage of a command that fails, and how. `refuses result reason` says that the output
    does not take a result, and why. -/
inductive Stops (c : Command) (input output : Channel) (got : Except String String)
    (refuses : String → String → Prop) : Failure → Prop
  | names {e : NamingError} : c.naming = .error e → Stops c input output got refuses (.naming e)
  | input {names : Naming} {reason : String} : c.naming = .ok names → got = .error reason →
      Stops c input output got refuses (.reading input reason)
  | tree {names : Naming} {text : String} {e : CompileError} : c.naming = .ok names →
      got = .ok text → c.treeOf text = .error e →
      Stops c input output got refuses (.compiling e)
  | script {names : Naming} {text : String} {t : Tree} {e : LoweringError} :
      c.naming = .ok names → got = .ok text → c.treeOf text = .ok t →
      c.resultOf names t = .error e → Stops c input output got refuses (.compiling (.lowering e))
  | output {result reason : String} : c.Finds got result → refuses result reason →
      Stops c input output got refuses (.writing output reason)

/-- An output that refuses less stops no command earlier. -/
theorem Stops.imp {c : Command} {input output : Channel} {got : Except String String}
    {refuses refuses' : String → String → Prop} {failure : Failure}
    (h : c.Stops input output got refuses failure)
    (himp : ∀ result reason, refuses result reason → refuses' result reason) :
    c.Stops input output got refuses' failure := by
  cases h with
  | names hnames => exact .names hnames
  | input hnames hgot => exact .input hnames hgot
  | tree hnames hgot htree => exact .tree hnames hgot htree
  | script hnames hgot htree hresult => exact .script hnames hgot htree hresult
  | output hfinds hrefuses => exact .output hfinds (himp _ _ hrefuses)

/-! ## §2. Work -/

/-- The work of a command between its input and its output. -/
def work (c : Command) (names : Naming) (text : String) : Except CompileError String := do
  let t ← c.treeOf text
  (c.resultOf names t).mapError .lowering

variable {σ : Type}

end Command

/-! ## §3. Steady hosts -/

variable {σ : Type}

namespace Command

section Process

variable {host : Host (StateM σ)} {input output : Channel} {s : σ}
  {work : String → Except CompileError String}

end Process

end Command

end TinyLang
