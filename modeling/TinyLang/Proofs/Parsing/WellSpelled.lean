/-
  TinyLang.Proofs.Parsing.WellSpelled — the names and operators of programs that parse.

  The parser takes names, operators and numerals from tokens, and tokens are spelled as
  their kinds demand.  So in a program that parses every name is a word, every operator is
  one of the language, and every literal is a truth value or a number from 0 on.
-/

import TinyLang.Proofs.Parsing.Complete

namespace TinyLang

variable {α : Type}

/-! ## §1. Well-spelled programs -/

/-- A spelling of a binary operator. -/
def IsBinary (op : String) : Prop := ∃ n, ∃ s ∈ Grammar.operatorsOf n, op = s.spelling

/-- A spelling of an operator in front of its operand. -/
def IsUnary (op : String) : Prop := op = Symbol.bang.spelling ∨ op = Symbol.minus.spelling

/-- A literal that a token stands for. -/
def Literal.WellSpelled : Literal → Prop
  | .bool _ => True
  | .integer n => 0 ≤ n.toInt
  | _ => False

/-- An expression whose names, operators and literals are those of the language. -/
def Expr.WellSpelled : Expr α → Prop
  | .name x => IsWord x.name
  | .literal _ value => value.WellSpelled
  | .read _ => True
  | .unary _ op e => IsUnary op ∧ e.WellSpelled
  | .binary _ op e f => IsBinary op ∧ e.WellSpelled ∧ f.WellSpelled

mutual

/-- A statement whose names, operators and literals are those of the language. -/
def Stmt.WellSpelled : Stmt α → Prop
  | .block _ body => Stmt.WellSpelledAll body
  | .assign _ x e => IsWord x.name ∧ e.WellSpelled
  | .output _ e => e.WellSpelled
  | .loop _ e s => e.WellSpelled ∧ s.WellSpelled
  | .choice _ e s t => e.WellSpelled ∧ Stmt.WellSpelledBranch s ∧ Stmt.WellSpelledBranch t

/-- Statements that are all well spelled. -/
def Stmt.WellSpelledAll : List (Stmt α) → Prop
  | [] => True
  | s :: body => s.WellSpelled ∧ Stmt.WellSpelledAll body

/-- A branch that is well spelled if it is there. -/
def Stmt.WellSpelledBranch : Option (Stmt α) → Prop
  | none => True
  | some s => s.WellSpelled

end

/-- A declaration of words. -/
def Declaration.WellSpelled (d : Declaration α) : Prop := ∀ x ∈ d.names, IsWord x.name

/-- A program whose names, operators and literals are those of the language. -/
def Program.WellSpelled (p : Program α) : Prop :=
  (∀ d ∈ p.declarations, d.WellSpelled) ∧ p.body.WellSpelled

/-! ## §2. Derivations give well-spelled programs -/

namespace Grammar

/-- Tokens that are all spelled as their kinds demand. -/
def SpelledAll (ws : List Lexeme) : Prop := ∀ w ∈ ws, Spelled w.kind w.text

theorem SpelledAll.left {us vs : List Lexeme} (h : SpelledAll (us ++ vs)) : SpelledAll us :=
  fun w hw => h w (List.mem_append_left _ hw)

theorem SpelledAll.right {us vs : List Lexeme} (h : SpelledAll (us ++ vs)) : SpelledAll vs :=
  fun w hw => h w (List.mem_append_right _ hw)

theorem SpelledAll.head {w : Lexeme} {ws : List Lexeme} (h : SpelledAll (w :: ws)) :
    Spelled w.kind w.text :=
  h w List.mem_cons_self

theorem SpelledAll.tail {w : Lexeme} {ws : List Lexeme} (h : SpelledAll (w :: ws)) :
    SpelledAll ws :=
  fun v hv => h v (List.mem_cons_of_mem _ hv)

mutual

/-- **Spelling goes from lexemes to what they derive**: the operators and names of an expression are
    spelled as their lexemes are. -/
theorem Level.wellSpelled : ∀ {n : Nat} {ws : List Lexeme} {e : Expr Unit}, Level n ws e →
    SpelledAll ws → e.WellSpelled
  | _, _, _, .unary h, hs => h.wellSpelled hs
  | _, _, _, .tighter _ _ h, hs => h.wellSpelled hs
  | _, _, _, .binary hop he hf, hs =>
      ⟨⟨_, _, hop, hs.right.head⟩, he.wellSpelled hs.left, hf.wellSpelled hs.right.tail⟩

theorem Unary.wellSpelled : ∀ {ws : List Lexeme} {e : Expr Unit}, Unary ws e →
    SpelledAll ws → e.WellSpelled
  | _, _, .operator (.inl rfl) h, hs => ⟨.inl hs.head, h.wellSpelled hs.tail⟩
  | _, _, .operator (.inr rfl) h, hs => ⟨.inr hs.head, h.wellSpelled hs.tail⟩
  | _, _, .primary h, hs => h.wellSpelled hs

/-- A numeral that is derived is not too large, and a name is a word. -/
theorem Primary.wellSpelled : ∀ {ws : List Lexeme} {e : Expr Unit}, Primary ws e →
    SpelledAll ws → e.WellSpelled
  | _, _, .number h, _ => by
      show 0 ≤ (Int64.ofNat _).toInt
      rw [Int64.toInt_ofNat_of_lt (by omega)]
      exact Int.natCast_nonneg _
  | _, _, .true, _ => trivial
  | _, _, .false, _ => trivial
  | _, _, .read, _ => trivial
  | _, _, .name, hs => hs.head.1
  | _, _, .parens h, hs => h.wellSpelled hs.tail.left

end

theorem Test.wellSpelled {ws : List Lexeme} {e : Expr Unit} (h : Test ws e) (hs : SpelledAll ws) :
    e.WellSpelled := by
  obtain ⟨h⟩ := h
  exact h.wellSpelled hs.tail.left

mutual

/-- The parts of a statement are well spelled if its lexemes are. -/
theorem Statement.wellSpelled : ∀ {isOpen : Bool} {ws : List Lexeme} {s : Stmt Unit},
    Statement isOpen ws s → SpelledAll ws → s.WellSpelled
  | _, _, _, .block h, hs => h.wellSpelled hs
  | _, _, _, .assign h, hs => ⟨hs.head.1, h.wellSpelled hs.tail.tail.left⟩
  | _, _, _, .output h, hs => h.wellSpelled hs.tail.left
  | _, _, _, .loop ht h, hs => ⟨ht.wellSpelled hs.tail.left, h.wellSpelled hs.tail.right⟩
  | _, _, _, .choice ht h, hs =>
      ⟨ht.wellSpelled hs.tail.left, h.wellSpelled hs.tail.right, trivial⟩
  | _, _, _, .choiceElse ht h h', hs =>
      ⟨ht.wellSpelled hs.left.tail.left, h.wellSpelled hs.left.tail.right,
        h'.wellSpelled hs.right.tail⟩

theorem Branch.wellSpelled : ∀ {isOpen : Bool} {ws : List Lexeme} {s : Option (Stmt Unit)},
    Branch isOpen ws s → SpelledAll ws → Stmt.WellSpelledBranch s
  | _, _, _, .absent, _ => trivial
  | _, _, _, .present h, hs => h.wellSpelled hs

theorem Block.wellSpelled : ∀ {ws : List Lexeme} {s : Stmt Unit},
    Block ws s → SpelledAll ws → s.WellSpelled
  | _, _, .braces h, hs => h.wellSpelled hs.tail.left

theorem Statements.wellSpelled : ∀ {ws : List Lexeme} {body : List (Stmt Unit)},
    Statements ws body → SpelledAll ws → Stmt.WellSpelledAll body
  | _, _, .nil, _ => trivial
  | _, _, .cons h hb, hs => ⟨h.wellSpelled hs.left, hb.wellSpelled hs.right⟩

end

theorem MoreNames.wellSpelled {ws : List Lexeme} {names : List (Identifier Unit)}
    (h : MoreNames ws names) (hs : SpelledAll ws) : ∀ x ∈ names, IsWord x.name := by
  induction h with
  | nil => exact fun _ hx => absurd hx List.not_mem_nil
  | cons _ ih => exact List.forall_mem_cons.2 ⟨hs.tail.head.1, ih hs.tail.tail⟩

/-- The names of a declaration are words. -/
theorem Declaration.wellSpelled {ws : List Lexeme} {d : TinyLang.Declaration Unit}
    (h : Declaration ws d) (hs : SpelledAll ws) : d.WellSpelled := by
  obtain ⟨h⟩ := h
  exact List.forall_mem_cons.2 ⟨hs.tail.head.1, h.wellSpelled hs.tail.tail.left⟩

theorem Declarations.wellSpelled {ws : List Lexeme} {ds : List (TinyLang.Declaration Unit)}
    (h : Declarations ws ds) (hs : SpelledAll ws) : ∀ d ∈ ds, d.WellSpelled := by
  induction h with
  | nil => exact fun _ hd => absurd hd List.not_mem_nil
  | cons h _ ih => exact List.forall_mem_cons.2 ⟨h.wellSpelled hs.left, ih hs.right⟩

/-- **A PROGRAM THAT PARSES IS WELL SPELLED.** -/
theorem Program.wellSpelled {ws : List Lexeme} {p : TinyLang.Program Unit} (h : Program ws p)
    (hs : SpelledAll ws) : p.WellSpelled := by
  obtain ⟨hds, hb⟩ := h
  exact ⟨hds.wellSpelled hs.left, hb.wellSpelled hs.right⟩

end Grammar

end TinyLang
