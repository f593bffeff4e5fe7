/-
  TinyLang.Proofs.Lowering.Hygiene — the names of a program and of its runtime never mix.

  A script names variables in four ways: it declares them, assigns them, refers to them,
  and calls members of the one that holds the runtime.  Under an accepted choice of names
  the script of a source text names, behind its import,

    • the runtime's variable in calls of the runtime and nowhere else,
    • otherwise the identifiers of the source, in their order, each one renamed.

  Three places work together here: the choice of names, the letters that the lexer takes
  for a name, and each of the rules that lower a tree.
-/

import TinyLang.Proofs.Lowering.Direct
import TinyLang.Proofs.Names
import TinyLang.Proofs.Parsing.WellSpelled

namespace TinyLang

/-! ## §1. How a script names variables -/

namespace Script

/-- One place where a script names a variable. -/
inductive Occurrence where
  | declared (name : String)
  | assigned (target : Expr)
  | referenced (name : String)
  | runtime (object : String)

/-- The variable that an expression is. -/
def Expr.variable? : Expr → Option String
  | .identifier x => some x
  | _ => none

/-- The variable whose member is called, if the member is one of the runtime. -/
def Expr.runtimeObject? : Expr → Option String
  | .member (.identifier x) property =>
    if property = Naming.readMember ∨ property = Naming.outputMember then some x else none
  | _ => none

/-- The variable that is named, calls of the runtime left out. -/
def Occurrence.name? : Occurrence → Option String
  | .declared x => some x
  | .assigned target => target.variable?
  | .referenced x => some x
  | .runtime _ => none

mutual

/-- The places where an expression names variables, from left to right. -/
def Expr.occurrences : Expr → List Occurrence
  | .identifier x => [.referenced x]
  | .literal _ => []
  | .call callee arguments =>
    (match callee.runtimeObject? with
      | some x => [.runtime x]
      | none => callee.occurrences) ++ Expr.occurrencesOfAll arguments
  | .member object _ => object.occurrences
  | .assign _ left right =>
    .assigned left ::
      ((if left.variable?.isSome then [] else left.occurrences) ++ right.occurrences)
  | .unary _ _ argument => argument.occurrences
  | .binary _ left right => left.occurrences ++ right.occurrences
  | .function parameters body => parameters.map .declared ++ Stmt.occurrencesOfAll body

/-- The places where expressions name variables. -/
def Expr.occurrencesOfAll : List Expr → List Occurrence
  | [] => []
  | e :: es => e.occurrences ++ Expr.occurrencesOfAll es

/-- The places where declarators name variables. -/
def Expr.occurrencesOfDeclarators : List (String × Option Expr) → List Occurrence
  | [] => []
  | (x, none) :: ds => .declared x :: Expr.occurrencesOfDeclarators ds
  | (x, some e) :: ds => .declared x :: (e.occurrences ++ Expr.occurrencesOfDeclarators ds)

/-- The places where a statement names variables. -/
def Stmt.occurrences : Stmt → List Occurrence
  | .declare _ declarators => Expr.occurrencesOfDeclarators declarators
  | .expression e => e.occurrences
  | .block body => Stmt.occurrencesOfAll body
  | .loop test body => test.occurrences ++ body.occurrences
  | .choice test consequent none => test.occurrences ++ consequent.occurrences
  | .choice test consequent (some alternate) =>
    test.occurrences ++ (consequent.occurrences ++ alternate.occurrences)
  | .empty => []

/-- The places where statements name variables. -/
def Stmt.occurrencesOfAll : List Stmt → List Occurrence
  | [] => []
  | s :: body => s.occurrences ++ Stmt.occurrencesOfAll body

end

/-- The variables that are declared. -/
def declaredNames (places : List Occurrence) : List String :=
  places.filterMap fun place =>
    match place with
    | .declared x => some x
    | _ => none

theorem Stmt.occurrencesOfAll_append (a b : List Stmt) :
    Stmt.occurrencesOfAll (a ++ b) = Stmt.occurrencesOfAll a ++ Stmt.occurrencesOfAll b := by
  induction a with
  | nil => rfl
  | cons s a ih =>
      rw [List.cons_append, Stmt.occurrencesOfAll, ih, Stmt.occurrencesOfAll, List.append_assoc]

end Script

open Script (Occurrence)

/-! ## §2. The identifiers of a source text -/

variable {α : Type}

/-- The names in an expression, from left to right. -/
def Expr.mentions : Expr α → List String
  | .name x => [x.name]
  | .literal _ _ => []
  | .read _ => []
  | .unary _ _ e => e.mentions
  | .binary _ _ e f => e.mentions ++ f.mentions

mutual

/-- The names in a statement. -/
def Stmt.mentions : Stmt α → List String
  | .block _ body => Stmt.mentionsOfAll body
  | .assign _ x e => x.name :: e.mentions
  | .output _ e => e.mentions
  | .loop _ e s => e.mentions ++ s.mentions
  | .choice _ e s t => e.mentions ++ (Stmt.mentionsOfBranch s ++ Stmt.mentionsOfBranch t)

/-- The names in statements. -/
def Stmt.mentionsOfAll : List (Stmt α) → List String
  | [] => []
  | s :: body => s.mentions ++ Stmt.mentionsOfAll body

/-- The names in a branch, if it is there. -/
def Stmt.mentionsOfBranch : Option (Stmt α) → List String
  | none => []
  | some s => s.mentions

end

/-- The names that a declaration declares. -/
def Declaration.mentions (d : Declaration α) : List String := d.names.map Identifier.name

/-- The names in a program. -/
def Program.mentions (p : Program α) : List String :=
  p.declarations.flatMap Declaration.mentions ++ p.body.mentions

/-- The names in an expression do not depend on its notes. -/
theorem Expr.mentions_bare (e : Expr α) : e.bare.mentions = e.mentions := by
  induction e with
  | name x => rfl
  | literal note value => rfl
  | read note => rfl
  | unary note op e ih => exact ih
  | binary note op e f ihe ihf =>
      show e.bare.mentions ++ f.bare.mentions = _
      rw [ihe, ihf]
      rfl

mutual

theorem Stmt.mentions_bare : ∀ s : Stmt α, s.bare.mentions = s.mentions
  | .block _ body => Stmt.mentionsOfAll_bares body
  | .assign _ x e => by
      show x.name :: e.bare.mentions = _
      rw [e.mentions_bare]
      rfl
  | .output _ e => e.mentions_bare
  | .loop _ e s => by
      show e.bare.mentions ++ s.bare.mentions = _
      rw [e.mentions_bare, Stmt.mentions_bare s]
      rfl
  | .choice _ e s t => by
      show e.bare.mentions ++ (Stmt.mentionsOfBranch (Stmt.bare? s) ++
        Stmt.mentionsOfBranch (Stmt.bare? t)) = _
      rw [e.mentions_bare, Stmt.mentionsOfBranch_bare? s, Stmt.mentionsOfBranch_bare? t]
      rfl

theorem Stmt.mentionsOfAll_bares : ∀ body : List (Stmt α),
    Stmt.mentionsOfAll (Stmt.bares body) = Stmt.mentionsOfAll body
  | [] => rfl
  | s :: body => by
      show s.bare.mentions ++ Stmt.mentionsOfAll (Stmt.bares body) = _
      rw [Stmt.mentions_bare s, Stmt.mentionsOfAll_bares body]
      rfl

theorem Stmt.mentionsOfBranch_bare? : ∀ s : Option (Stmt α),
    Stmt.mentionsOfBranch (Stmt.bare? s) = Stmt.mentionsOfBranch s
  | none => rfl
  | some s => Stmt.mentions_bare s

end

theorem Declaration.mentions_bare (d : Declaration α) : d.bare.mentions = d.mentions := by
  show (d.first.bare :: d.others.map Identifier.bare).map Identifier.name = _
  rw [List.map_cons, List.map_map]
  rfl

theorem Program.mentions_bare (p : Program α) : p.bare.mentions = p.mentions := by
  show (p.declarations.map Declaration.bare).flatMap Declaration.mentions ++
    p.body.bare.mentions = _
  rw [List.flatMap_map, p.body.mentions_bare]
  simp only [Declaration.mentions_bare]
  rfl

namespace Grammar

/-- The texts of the identifiers among tokens. -/
def identifiers (ws : List Lexeme) : List String :=
  (ws.filter fun w => w.kind = .identifier).map Lexeme.text

/-- The names of two parts are those of the one, and then those of the other. -/
theorem identifiers_append (us vs : List Lexeme) :
    identifiers (us ++ vs) = identifiers us ++ identifiers vs := by
  unfold identifiers
  rw [List.filter_append, List.map_append]

theorem identifiers_name (text : String) (ws : List Lexeme) :
    identifiers (⟨.identifier, text⟩ :: ws) = text :: identifiers ws := rfl

theorem identifiers_other {kind : Token.Kind} (h : kind ≠ .identifier) (text : String)
    (ws : List Lexeme) : identifiers (⟨kind, text⟩ :: ws) = identifiers ws := by
  unfold identifiers
  rw [List.filter_cons_of_neg (by simpa using h)]

theorem identifiers_symbol (s : Symbol) (text : String) (ws : List Lexeme) :
    identifiers (⟨.symbol s, text⟩ :: ws) = identifiers ws :=
  identifiers_other (by simp) text ws

theorem identifiers_keyword (k : Keyword) (text : String) (ws : List Lexeme) :
    identifiers (⟨.keyword k, text⟩ :: ws) = identifiers ws :=
  identifiers_other (by simp) text ws

theorem identifiers_nil : identifiers [] = [] := rfl

/-! The derivation of a program uses up each of its identifiers, once and in order. -/

mutual

/-- **Every name among the lexemes is mentioned in what they derive, in the same order.** -/
theorem Level.identifiers_eq : ∀ {n : Nat} {ws : List Lexeme} {e : Expr Unit}, Level n ws e →
    identifiers ws = e.mentions
  | _, _, _, .unary h => h.identifiers_eq
  | _, _, _, .tighter _ _ h => h.identifiers_eq
  | _, _, _, .binary _ he hf => by
      rw [identifiers_append, identifiers_symbol, he.identifiers_eq, hf.identifiers_eq]
      rfl

theorem Unary.identifiers_eq : ∀ {ws : List Lexeme} {e : Expr Unit}, Unary ws e →
    identifiers ws = e.mentions
  | _, _, .operator _ h => by
      rw [identifiers_symbol, h.identifiers_eq]
      rfl
  | _, _, .primary h => h.identifiers_eq

theorem Primary.identifiers_eq : ∀ {ws : List Lexeme} {e : Expr Unit}, Primary ws e →
    identifiers ws = e.mentions
  | _, _, .number _ => rfl
  | _, _, .true => rfl
  | _, _, .false => rfl
  | _, _, .read => rfl
  | _, _, .name => rfl
  | _, _, .parens h => by
      rw [List.cons_append, identifiers_symbol, identifiers_append, identifiers_symbol,
        identifiers_nil, List.append_nil, h.identifiers_eq]

end

theorem Test.identifiers_eq {ws : List Lexeme} {e : Expr Unit} (h : Test ws e) :
    identifiers ws = e.mentions := by
  obtain ⟨h⟩ := h
  rw [List.cons_append, identifiers_symbol, identifiers_append, identifiers_symbol,
    identifiers_nil, List.append_nil, Level.identifiers_eq h]

mutual

/-- Words of a statement that are no names are keywords or symbols. -/
theorem Statement.identifiers_eq : ∀ {isOpen : Bool} {ws : List Lexeme} {s : Stmt Unit},
    Statement isOpen ws s → identifiers ws = s.mentions
  | _, _, _, .block h => h.identifiers_eq
  | _, _, _, .assign h => by
      rw [List.cons_append, List.cons_append, identifiers_name, identifiers_symbol,
        identifiers_append, identifiers_symbol, identifiers_nil, List.append_nil,
        Level.identifiers_eq h]
      rfl
  | _, _, _, .output h => by
      rw [List.cons_append, identifiers_keyword, identifiers_append, identifiers_symbol,
        identifiers_nil, List.append_nil, Level.identifiers_eq h]
      rfl
  | _, _, _, .loop ht h => by
      rw [List.cons_append, identifiers_keyword, identifiers_append, ht.identifiers_eq,
        h.identifiers_eq]
      rfl
  | _, _, _, .choice ht h => by
      rw [List.cons_append, identifiers_keyword, identifiers_append, ht.identifiers_eq,
        h.identifiers_eq, Stmt.mentions, Stmt.mentionsOfBranch, List.append_nil]
  | _, _, _, .choiceElse ht h h' => by
      rw [identifiers_append, List.cons_append, identifiers_keyword, identifiers_append,
        identifiers_keyword, ht.identifiers_eq, h.identifiers_eq, h'.identifiers_eq,
        List.append_assoc]
      rfl

theorem Branch.identifiers_eq : ∀ {isOpen : Bool} {ws : List Lexeme} {s : Option (Stmt Unit)},
    Branch isOpen ws s → identifiers ws = Stmt.mentionsOfBranch s
  | _, _, _, .absent => rfl
  | _, _, _, .present h => h.identifiers_eq

theorem Block.identifiers_eq : ∀ {ws : List Lexeme} {s : Stmt Unit}, Block ws s →
    identifiers ws = s.mentions
  | _, _, .braces h => by
      rw [List.cons_append, identifiers_symbol, identifiers_append, identifiers_symbol,
        identifiers_nil, List.append_nil, h.identifiers_eq]
      rfl

theorem Statements.identifiers_eq : ∀ {ws : List Lexeme} {body : List (Stmt Unit)},
    Statements ws body → identifiers ws = Stmt.mentionsOfAll body
  | _, _, .nil => rfl
  | _, _, .cons h hb => by
      rw [identifiers_append, h.identifiers_eq, hb.identifiers_eq]
      rfl

end

theorem MoreNames.identifiers_eq {ws : List Lexeme} {names : List (Identifier Unit)}
    (h : MoreNames ws names) : identifiers ws = names.map Identifier.name := by
  induction h with
  | nil => rfl
  | cons _ ih =>
      rw [identifiers_symbol, identifiers_name, ih]
      rfl

theorem Declaration.identifiers_eq {ws : List Lexeme} {d : TinyLang.Declaration Unit}
    (h : Declaration ws d) : identifiers ws = d.mentions := by
  obtain ⟨h⟩ := h
  rw [List.cons_append, List.cons_append, identifiers_keyword, identifiers_name,
    identifiers_append, identifiers_symbol, identifiers_nil, List.append_nil, h.identifiers_eq]
  rfl

theorem Declarations.identifiers_eq {ws : List Lexeme} {ds : List (TinyLang.Declaration Unit)}
    (h : Declarations ws ds) : identifiers ws = ds.flatMap TinyLang.Declaration.mentions := by
  induction h with
  | nil => rfl
  | cons h _ ih => rw [identifiers_append, h.identifiers_eq, ih, List.flatMap_cons]

/-- The names of a program are those among its lexemes. -/
theorem Program.identifiers_eq {ws : List Lexeme} {p : TinyLang.Program Unit}
    (h : Program ws p) : identifiers ws = p.mentions := by
  obtain ⟨hds, hb⟩ := h
  rw [identifiers_append, hds.identifiers_eq, hb.identifiers_eq]
  rfl

end Grammar

/-- The identifiers of a source text, in their order. -/
def identifiers (source : String) : List String := Grammar.identifiers (lexemes source)

/-- **THE NAMES OF A PROGRAM ARE THE IDENTIFIERS OF ITS SOURCE**, each where it stands. -/
theorem Program.mentions_parse {source : String} {p : Program Location}
    (h : Program.parse source = .ok p) : p.mentions = identifiers source := by
  rw [← p.mentions_bare]
  exact (Program.parse_sound h).identifiers_eq.symm

/-- Identifiers are words. -/
theorem isWord_of_mem_identifiers {source x : String} (h : x ∈ identifiers source) : IsWord x := by
  obtain ⟨w, hw, rfl⟩ := List.mem_map.1 h
  obtain ⟨hmem, hkind⟩ := List.mem_filter.1 hw
  have hspelled := lexemes_spelled source w hmem
  rw [of_decide_eq_true hkind] at hspelled
  exact hspelled.1

/-! ## §3. Tidy scripts -/

/-- Places name variables tidily: one after the other they name the given variables, renamed, only
    variables are assigned, and where the runtime is called it is the runtime. -/
structure Tidy (names : Naming) (known : List String) (places : List Occurrence) : Prop where
  named : places.filterMap Occurrence.name? = known.map names.rename
  assigned : ∀ target, .assigned target ∈ places → ∃ x, target = .identifier x
  runtime : ∀ object, .runtime object ∈ places → object = names.binding

open Lowering

section Tidy

variable {names : Naming} {known others : List String} {places more : List Occurrence}

theorem tidy_nil : Tidy names [] [] := ⟨rfl, by simp, by simp⟩

/-- Tidy parts in a row are tidy. -/
theorem Tidy.append (h : Tidy names known places) (h' : Tidy names others more) :
    Tidy names (known ++ others) (places ++ more) := by
  refine ⟨?_, ?_, ?_⟩
  · rw [List.filterMap_append, h.named, h'.named, List.map_append]
  · intro target htarget
    rcases List.mem_append.1 htarget with hmem | hmem
    · exact h.assigned target hmem
    · exact h'.assigned target hmem
  · intro object hobject
    rcases List.mem_append.1 hobject with hmem | hmem
    · exact h.runtime object hmem
    · exact h'.runtime object hmem

theorem tidy_referenced (x : String) : Tidy names [x] [.referenced (names.rename x)] :=
  ⟨rfl, by simp, by simp⟩

theorem tidy_declared (x : String) : Tidy names [x] [.declared (names.rename x)] :=
  ⟨rfl, by simp, by simp⟩

theorem tidy_assigned (x : String) :
    Tidy names [x] [.assigned (.identifier (names.rename x))] :=
  ⟨rfl, by simp, by simp⟩

/-- A use of the runtime under its own name mentions no variable of the source. -/
theorem tidy_runtime : Tidy names [] [.runtime names.binding] := ⟨rfl, by simp, by simp⟩

/-- A call of the runtime is tidy if its arguments are. -/
theorem tidy_callRuntime {member : String} {arguments : List Script.Expr}
    (hmember : member = Naming.readMember ∨ member = Naming.outputMember)
    (h : Tidy names known (Script.Expr.occurrencesOfAll arguments)) :
    Tidy names known (callRuntime names member arguments).occurrences := by
  have hobject : (Script.Expr.member (.identifier names.binding) member).runtimeObject? =
      some names.binding := if_pos hmember
  unfold callRuntime
  rw [Script.Expr.occurrences, hobject]
  exact tidy_runtime.append h

end Tidy

/-- The script of an expression names its variables. -/
theorem Expr.tidy_toScript (names : Naming) (e : Expr α) :
    Tidy names e.mentions (e.toScript names).occurrences := by
  induction e with
  | name x => exact tidy_referenced x.name
  | literal note value => exact tidy_nil
  | read note => exact tidy_callRuntime (.inl rfl) tidy_nil
  | unary note op e ih => exact ih
  | binary note op e f ihe ihf => exact ihe.append ihf

mutual

/-- The script of a statement names its variables. -/
theorem Stmt.tidy_toScript (names : Naming) : ∀ s : Stmt α,
    Tidy names s.mentions (s.toScript names).occurrences
  | .block _ body => Stmt.tidy_toScripts names body
  | .assign _ x e => (tidy_assigned x.name).append (e.tidy_toScript names)
  | .output _ e => by
      have harguments : Tidy names e.mentions
          (Script.Expr.occurrencesOfAll [e.toScript names]) := by
        rw [Script.Expr.occurrencesOfAll, Script.Expr.occurrencesOfAll, List.append_nil]
        exact e.tidy_toScript names
      exact tidy_callRuntime (.inr rfl) harguments
  | .loop _ e s => (e.tidy_toScript names).append (Stmt.tidy_toScript names s)
  | .choice _ e s t =>
      (e.tidy_toScript names).append
        ((Stmt.tidy_branchScript names s).append (Stmt.tidy_branchScript names t))

/-- Statements in a row mention what each of them mentions. -/
theorem Stmt.tidy_toScripts (names : Naming) : ∀ body : List (Stmt α),
    Tidy names (Stmt.mentionsOfAll body) (Script.Stmt.occurrencesOfAll (Stmt.toScripts names body))
  | [] => tidy_nil
  | s :: body => (Stmt.tidy_toScript names s).append (Stmt.tidy_toScripts names body)

/-- A branch that is not there mentions nothing. -/
theorem Stmt.tidy_branchScript (names : Naming) : ∀ s : Option (Stmt α),
    Tidy names (Stmt.mentionsOfBranch s) (Stmt.branchScript names s).occurrences
  | none => tidy_nil
  | some s => Stmt.tidy_toScript names s

end

/-- A declaration declares its own names, renamed, and uses none. -/
theorem Declaration.tidy_toScript (names : Naming) (d : Declaration α) :
    Tidy names d.mentions (d.toScript names).occurrences := by
  unfold Declaration.mentions Declaration.toScript declareAll
  rw [Script.Stmt.occurrences]
  induction d.names with
  | nil => exact tidy_nil
  | cons x xs ih => exact (tidy_declared x.name).append ih

theorem tidy_declarations (names : Naming) (ds : List (Declaration α)) :
    Tidy names (ds.flatMap Declaration.mentions)
      (Script.Stmt.occurrencesOfAll (ds.map (·.toScript names))) := by
  induction ds with
  | nil => exact tidy_nil
  | cons d ds ih =>
      rw [List.flatMap_cons, List.map_cons, Script.Stmt.occurrencesOfAll]
      exact (d.tidy_toScript names).append ih

/-- **A PROGRAM'S SCRIPT NAMES THE PROGRAM'S VARIABLES**, behind its import and calls of the
    runtime apart. -/
theorem Program.tidy_toScript (names : Naming) (p : Program α) :
    ∃ others, p.toScript names = importRuntime names :: others ∧
      Tidy names p.mentions (Script.Stmt.occurrencesOfAll others) := by
  refine ⟨p.declarations.map (·.toScript names) ++ [p.body.toScript names], rfl, ?_⟩
  rw [Script.Stmt.occurrencesOfAll_append, Script.Stmt.occurrencesOfAll,
    Script.Stmt.occurrencesOfAll, List.append_nil]
  exact (tidy_declarations names p.declarations).append (p.body.tidy_toScript names)

/-! ## §4. Hygiene -/

/-- In a script whose first statement loads the runtime, no name of a program meets a name of the
    runtime: with `known` the identifiers of the program and `others` the statements behind the
    first. -/
structure Hygienic (names : Naming) (known : List String) (others : List Script.Stmt) : Prop where
  /-- The runtime's variable is declared once, by the first statement. -/
  binding_once :
    (Script.declaredNames
      (Script.Stmt.occurrencesOfAll (importRuntime names :: others))).count names.binding = 1
  /-- All that is declared behind the first statement is a renamed identifier. -/
  declared : ∀ x, .declared x ∈ Script.Stmt.occurrencesOfAll others →
    ∃ n ∈ known, x = names.rename n
  /-- All that is assigned is a renamed identifier. -/
  assigned : ∀ target, .assigned target ∈ Script.Stmt.occurrencesOfAll others →
    ∃ n ∈ known, target = .identifier (names.rename n)
  /-- All that is referred to is a renamed identifier. -/
  referenced : ∀ x, .referenced x ∈ Script.Stmt.occurrencesOfAll others →
    ∃ n ∈ known, x = names.rename n
  /-- Members of the runtime are called on the runtime. -/
  runtime : ∀ x, .runtime x ∈ Script.Stmt.occurrencesOfAll others → x = names.binding
  /-- Nothing is left out, and the order is that of the source. -/
  named : (Script.Stmt.occurrencesOfAll others).filterMap Occurrence.name? = known.map names.rename
  /-- A renamed identifier is an identifier of a script, and not the runtime's variable. -/
  apart : ∀ n ∈ known, Naming.isIdentifier (names.rename n) = true ∧ names.rename n ≠ names.binding
  /-- Renaming keeps identifiers apart. -/
  distinct : ∀ m ∈ known, ∀ n ∈ known, names.rename m = names.rename n ↔ m = n

/-- Whatever is named in tidy places, calls of the runtime apart, is a renamed name. -/
theorem Tidy.mem_known {names : Naming} {known : List String} {places : List Occurrence}
    (h : Tidy names known places) {place : Occurrence} (hplace : place ∈ places) {x : String}
    (hx : place.name? = some x) : ∃ n ∈ known, x = names.rename n := by
  have hmem : x ∈ places.filterMap Occurrence.name? := List.mem_filterMap.2 ⟨place, hplace, hx⟩
  rw [h.named] at hmem
  obtain ⟨n, hn, hrename⟩ := List.mem_map.1 hmem
  exact ⟨n, hn, hrename.symm⟩

/-- Names that are all declared tidily leave the declaration of the runtime the only one. -/
theorem Tidy.binding_once {names : Naming} (hnames : names.Accepted) {known : List String}
    {others : List Script.Stmt} (h : Tidy names known (Script.Stmt.occurrencesOfAll others)) :
    (Script.declaredNames
      (Script.Stmt.occurrencesOfAll (importRuntime names :: others))).count names.binding = 1 := by
  -- whatever else is declared has the name of a variable, which is never that of the binding
  have hothers :
      names.binding ∉ Script.declaredNames (Script.Stmt.occurrencesOfAll others) := by
    intro hmem
    obtain ⟨place, hplace, hdeclared⟩ := List.mem_filterMap.1 hmem
    cases place with
    | declared x =>
        obtain ⟨n, -, hn⟩ := h.mem_known hplace (x := x) rfl
        cases hdeclared
        exact Naming.rename_ne hnames.apart n hn.symm
    | _ => cases hdeclared
  have himport : Script.declaredNames
      (Script.Stmt.occurrencesOfAll (importRuntime names :: others)) =
        names.binding :: Script.declaredNames (Script.Stmt.occurrencesOfAll others) := rfl
  rw [himport, List.count_cons_self, List.count_eq_zero_of_not_mem hothers]

/-- Tidy scripts are hygienic under an accepted choice of names. -/
theorem Tidy.hygienic {names : Naming} (hnames : names.Accepted) {known : List String}
    (hknown : ∀ n ∈ known, IsWord n) {others : List Script.Stmt}
    (h : Tidy names known (Script.Stmt.occurrencesOfAll others)) : Hygienic names known others where
  binding_once := h.binding_once hnames
  declared _ hx := h.mem_known hx rfl
  assigned := by
    intro target htarget
    obtain ⟨x, rfl⟩ := h.assigned target htarget
    obtain ⟨n, hn, rfl⟩ := h.mem_known htarget (x := x) rfl
    exact ⟨n, hn, rfl⟩
  referenced _ hx := h.mem_known hx rfl
  runtime := h.runtime
  named := h.named
  -- a name of the source is a word, and the stem in front keeps it apart
  apart := by
    intro n hn
    exact ⟨Naming.isIdentifier_rename hnames.stem (hknown n hn),
      Naming.rename_ne hnames.apart n⟩
  distinct _ _ _ _ := Naming.rename_inj

/-- **THE NAMES OF A PROGRAM AND OF ITS RUNTIME NEVER MIX**: every source text that parses, with
    places or without, becomes a script under every accepted choice of names; its first statement
    loads the runtime, and what is behind is hygienic. -/
theorem lowerProgram_hygienic {stem binding path source : String} {places : Bool} {names : Naming}
    {t : Tree} (hnames : Naming.make stem binding path = .ok names)
    (ht : Tree.parse source places = .ok t) :
    ∃ others, t.lowerProgram names =
        .ok (.declare .varWord [(binding,
          some (.call (.identifier Naming.loader) [.literal (.string path)]))] :: others) ∧
      Hygienic names (identifiers source) others := by
  obtain ⟨rfl, haccepted⟩ := Naming.make_eq_ok hnames
  obtain ⟨p, hp, rfl⟩ := Tree.parse_eq_ok ht
  obtain ⟨others, hscript, htidy⟩ := p.tidy_toScript ⟨stem, binding, path⟩
  refine ⟨others, ?_, ?_⟩
  · rw [p.lowerProgram_toTree, hscript]
    rfl
  · rw [p.mentions_parse hp] at htidy
    exact htidy.hygienic haccepted fun n => isWord_of_mem_identifiers

/-- Variables of a program may be called like the runtime and like what loads it. -/
theorem lowerProgram_hygienic_shared : ∃ t others,
    Tree.parse "integer runtime, require; \x7b runtime = read; output require; \x7d" true = .ok t ∧
      t.lowerProgram Naming.standard = .ok (importRuntime Naming.standard :: others) ∧
      Hygienic Naming.standard ["runtime", "require", "runtime", "require"] others := by
  have hnames : identifiers "integer runtime, require; \x7b runtime = read; output require; \x7d" =
      ["runtime", "require", "runtime", "require"] := by decide +kernel
  have hparse : (Tree.parse "integer runtime, require; \x7b runtime = read; output require; \x7d"
      true).toOption.isSome = true := by decide +kernel
  cases ht : Tree.parse "integer runtime, require; \x7b runtime = read; output require; \x7d" true with
  | error e =>
      rw [ht] at hparse
      exact absurd hparse Bool.false_ne_true
  | ok t =>
      obtain ⟨others, hscript, hhygienic⟩ := lowerProgram_hygienic Naming.make_standard ht
      rw [hnames] at hhygienic
      exact ⟨t, others, rfl, hscript, hhygienic⟩

end TinyLang
