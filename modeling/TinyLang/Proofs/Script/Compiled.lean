/-
  TinyLang.Proofs.Script.Compiled — compiled programs are read back as their scripts.

  A well-spelled program becomes a plain script when its names do: when the stem starts no
  reserved word and the variable of the runtime is none.  So the text that a program is
  compiled to holds the whole script,

      Reads text q  ↔  q = script

  for the script that the syntax tree of the program is lowered to.
-/

import TinyLang.Proofs.Lowering.Direct
import TinyLang.Proofs.Names
import TinyLang.Proofs.Parsing.WellSpelled
import TinyLang.Proofs.Script.Printed

namespace TinyLang

open Script (IsName reservedWords)

variable {α : Type}

/-! ## §1. Names and operators -/

/-- Names that no reserved word gets in the way of. -/
structure Naming.Readable (names : Naming) : Prop where
  stem : Naming.isIdentifier names.stem = true
  apart : ∀ word ∈ reservedWords, ¬ names.stem.toList <+: word.toList
  binding : IsName names.binding

/-- A renamed variable is a name of a script. -/
theorem Naming.Readable.rename {names : Naming} (h : names.Readable) {x : String} (hx : IsWord x) :
    IsName (names.rename x) :=
  ⟨isIdentifier_rename h.stem hx, fun hmem => rename_ne (h.apart _ hmem) x rfl⟩

/-- A binary operator has the same level in a script. -/
theorem Grammar.operatorsOf_script {n : Nat} {s : Symbol} (hs : s ∈ Grammar.operatorsOf n) :
    s.spelling ∈ Script.Grammar.operatorsOf n := by
  unfold Grammar.operatorsOf at hs
  split at hs <;> simp only [List.mem_cons, List.not_mem_nil, or_false] at hs
  next => subst hs; decide
  next => subst hs; decide
  next => rcases hs with rfl | rfl <;> decide
  next => rcases hs with rfl | rfl | rfl | rfl <;> decide
  next => rcases hs with rfl | rfl <;> decide
  next => rcases hs with rfl | rfl | rfl <;> decide

/-- Every binary operator of programs is one of scripts. -/
theorem IsBinary.script {op : String} (h : IsBinary op) :
    ∃ k, op ∈ Script.Grammar.operatorsOf k := by
  obtain ⟨n, s, hs, rfl⟩ := h
  exact ⟨n, Grammar.operatorsOf_script hs⟩

theorem IsUnary.script {op : String} (h : IsUnary op) : op ∈ Script.Grammar.signs := by
  rcases h with rfl | rfl <;> decide

/-! ## §2. Plain scripts of well-spelled programs -/

theorem Literal.plain {value : Literal} (h : value.WellSpelled) : value.toScript.Plain := by
  cases value with
  | null => exact h.elim
  | bool b => trivial
  | integer n => exact h
  | string s => exact h.elim

/-- A call of a member of the runtime is plain when its arguments are. -/
theorem Lowering.callRuntime_plain {names : Naming} (hn : names.Readable) {member : String}
    (hm : Naming.isIdentifier member = true) {arguments : List Script.Expr}
    (ha : Script.Expr.PlainAll arguments) : (callRuntime names member arguments).Plain :=
  ⟨⟨hn.binding, hm⟩, ha⟩

/-- **The expression of a program is one that the grammar of scripts knows.** -/
theorem Expr.plain {names : Naming} (hn : names.Readable) {e : Expr α} (h : e.WellSpelled) :
    (e.toScript names).Plain := by
  induction e with
  | name x => exact hn.rename h
  | literal note value => exact Literal.plain h
  | read note => exact Lowering.callRuntime_plain hn (by decide) trivial
  | unary note op e ih => exact ⟨rfl, h.1.script, ih h.2⟩
  | binary note op e f ihe ihf => exact ⟨h.1.script, ihe h.2.1, ihf h.2.2⟩

mutual

/-- A statement becomes a plain one that is never open: every choice has an alternate. -/
theorem Stmt.plain {names : Naming} (hn : names.Readable) : ∀ s : Stmt α, s.WellSpelled →
    (s.toScript names).Plain ∧ (s.toScript names).isOpen = false
  | .block _ body, h => ⟨Stmt.plain_body hn body h, rfl⟩
  | .assign _ x e, h => ⟨⟨⟨rfl, rfl, hn.rename h.1, Expr.plain hn h.2⟩, rfl⟩, rfl⟩
  | .output _ e, h =>
      ⟨⟨Lowering.callRuntime_plain hn (by decide) ⟨Expr.plain hn h, trivial⟩, rfl⟩, rfl⟩
  | .loop _ e s, h => by
      obtain ⟨⟨hformed, hsteady⟩, hclosed⟩ := Stmt.plain hn s h.2
      exact ⟨⟨⟨Expr.plain hn h.1, hformed⟩, hsteady⟩, hclosed⟩
  | .choice _ e s t, h => by
      -- an absent branch is an empty statement, so there is an alternate in any case
      obtain ⟨⟨hformed, hsteady⟩, hclosed⟩ := Stmt.plain_branch hn s h.2.1
      obtain ⟨⟨htformed, htsteady⟩, htclosed⟩ := Stmt.plain_branch hn t h.2.2
      refine ⟨⟨⟨Expr.plain hn h.1, hformed, htformed⟩, ?_⟩, htclosed⟩
      show (!_ && _ && _) = true
      rw [hclosed, hsteady, htsteady]
      rfl

theorem Stmt.plain_body {names : Naming} (hn : names.Readable) : ∀ body : List (Stmt α),
    Stmt.WellSpelledAll body → Script.Stmt.PlainAll (Stmt.toScripts names body)
  | [], _ => ⟨trivial, rfl⟩
  | s :: body, h => by
      rw [show Stmt.toScripts names (s :: body) = s.toScript names :: Stmt.toScripts names body
        from rfl, Script.Stmt.plainAll_iff, List.forall_mem_cons, ← Script.Stmt.plainAll_iff]
      exact ⟨(Stmt.plain hn s h.1).1, Stmt.plain_body hn body h.2⟩

/-- A branch is closed, as the one that is not there has become the empty statement. -/
theorem Stmt.plain_branch {names : Naming} (hn : names.Readable) : ∀ s : Option (Stmt α),
    Stmt.WellSpelledBranch s →
      (Stmt.branchScript names s).Plain ∧ (Stmt.branchScript names s).isOpen = false
  | none, _ => ⟨⟨trivial, rfl⟩, rfl⟩
  | some s, h => Stmt.plain hn s h

end

theorem Lowering.initial_plain (type : ValueType) : (initial type).Plain := by
  cases type with
  | integer => exact Int.le_refl 0
  | boolean => trivial

/-- A declaration names at least one variable. -/
theorem Declaration.plain {names : Naming} (hn : names.Readable) {d : Declaration α}
    (h : d.WellSpelled) : (d.toScript names).Plain := by
  refine ⟨⟨rfl, by simp [Declaration.names], ?_⟩, rfl⟩
  intro declarator hd
  obtain ⟨name, hname, rfl⟩ := List.mem_map.1 hd
  obtain ⟨x, hx, rfl⟩ := List.mem_map.1 hname
  refine ⟨hn.rename (h x hx), ?_⟩
  intro e he
  obtain rfl := Option.some.inj he
  exact Lowering.initial_plain d.type

/-- The statement that loads the runtime is one that the grammar knows. -/
theorem Lowering.importRuntime_plain {names : Naming} (hn : names.Readable) :
    (importRuntime names).Plain := by
  refine ⟨⟨rfl, by simp, ?_⟩, rfl⟩
  intro declarator hd
  rw [List.mem_singleton] at hd
  subst hd
  refine ⟨hn.binding, ?_⟩
  intro e he
  obtain rfl := Option.some.inj he
  exact ⟨⟨by decide, by decide⟩, trivial, trivial⟩

/-- The script of a well-spelled program is plain. -/
theorem Program.plain {names : Naming} (hn : names.Readable) {p : Program α}
    (h : p.WellSpelled) : Script.Stmt.PlainAll (p.toScript names) := by
  rw [Script.Stmt.plainAll_iff]
  intro s hs
  unfold Program.toScript at hs
  rcases List.mem_append.1 hs with hs | hs
  · rcases List.mem_cons.1 hs with rfl | hs
    · exact Lowering.importRuntime_plain hn
    · obtain ⟨d, hd, rfl⟩ := List.mem_map.1 hs
      exact Declaration.plain hn (h.1 d hd)
  · rw [List.mem_singleton] at hs
    subst hs
    exact (Stmt.plain hn p.body h.2).1

/-! ## §3. Compiled texts -/

/-- **A COMPILED TEXT HOLDS THE WHOLE SCRIPT**: whatever parses is compiled, under every accepted
    choice of names that keeps clear of the reserved words, to a text that is read as the script
    of its syntax tree and as nothing else. -/
theorem compileSource_reads_iff {stem binding path : String} {names : Naming}
    (hnames : Naming.make stem binding path = .ok names)
    (hstem : ∀ word ∈ reservedWords, ¬ stem.toList <+: word.toList)
    (hbinding : binding ∉ reservedWords) {source : String} {t : Tree}
    (ht : Tree.parse source false = .ok t) :
    ∃ script text, t.lowerProgram names = .ok script ∧ compileSource names source = .ok text ∧
      ∀ q, Script.Reads text q ↔ q = script := by
  obtain ⟨rfl, haccepted⟩ := Naming.make_eq_ok hnames
  have hreadable : (Naming.mk stem binding path).Readable :=
    ⟨haccepted.stem, hstem, haccepted.binding, hbinding⟩
  obtain ⟨p, hp, rfl⟩ := Tree.parse_sound ht
  have hplain := p.plain hreadable (hp.wellSpelled (lexemes_spelled source))
  refine ⟨p.toScript ⟨stem, binding, path⟩, _, p.lowerProgram_toTree _ _, ?_,
    Script.reads_print_iff Script.defaultWidth hplain⟩
  unfold compileSource
  rw [ht]
  exact p.compile_toTree _ _

/-- Under the standard names, a program with a loop, an absent branch and signs next to one
    another is compiled to a text that holds its whole script. -/
theorem compileSource_reads_iff_standard : ∃ t script text,
    Tree.parse "integer n; \x7b n = read; while (n > -3) if (!n) ; else output n - -(-1); \x7d" false =
        .ok t ∧
      t.lowerProgram Naming.standard = .ok script ∧
      compileSource Naming.standard
          "integer n; \x7b n = read; while (n > -3) if (!n) ; else output n - -(-1); \x7d" = .ok text ∧
      ∀ q, Script.Reads text q ↔ q = script := by
  have hstem : ∀ word ∈ reservedWords, ¬ Naming.standard.stem.toList <+: word.toList := by
    decide +kernel
  have hparses : (Tree.parse
      "integer n; \x7b n = read; while (n > -3) if (!n) ; else output n - -(-1); \x7d"
      false).toOption.isSome = true := by
    decide +kernel
  cases ht : Tree.parse
      "integer n; \x7b n = read; while (n > -3) if (!n) ; else output n - -(-1); \x7d" false with
  | error e =>
      rw [ht] at hparses
      exact absurd hparses Bool.false_ne_true
  | ok t =>
      obtain ⟨script, text, hscript, htext, hreads⟩ :=
        compileSource_reads_iff Naming.make_standard hstem (by decide) ht
      exact ⟨t, script, text, rfl, hscript, htext, hreads⟩

end TinyLang
