/-
  TinyLang.Proofs.Parsing.Places — the tokens that each node is made of.

  A node SPANS some tokens when its note is their range, from where the first one starts to
  where the last one ends, when the grammar derives the node from them, and when every node
  in it spans tokens of its own among them.  In

      a * (b + c)

  the product spans all seven tokens, and the sum the three between the parentheses, which
  are tokens of the node around them and never of the node inside.
-/

import TinyLang.Proofs.Parsing.Grammar

namespace TinyLang

variable {α : Type}

/-! ## §1. Ranges of tokens -/

namespace Token

/-- The point behind the last of some tokens, which is `last` if there are none. -/
def endOf (last : Position) (ts : List Token) : Position := ts.foldl (fun _ t => t.place.stop) last

/-- The end of two runs of tokens is that of the second, unless it is empty. -/
theorem endOf_append (last : Position) (ts us : List Token) :
    endOf last (ts ++ us) = endOf (endOf last ts) us :=
  List.foldl_append

/-- The range from the first to the last of some tokens. -/
def span : List Token → Location
  | [] => ⟨Position.start, Position.start⟩
  | t :: ts => ⟨t.place.start, endOf t.place.stop ts⟩

end Token

/-- Some tokens, at least one, whose range is a note. -/
structure Marks (note : Location) (ts : List Token) : Prop where
  nonempty : ts ≠ []
  range : note = Token.span ts

theorem marks_token (t : Token) : Marks t.place [t] := ⟨by simp, rfl⟩

/-! ## §2. Expressions -/

/-- The note of an expression. -/
def Expr.note : Expr α → α
  | .name x => x.note
  | .literal note _ => note
  | .read note => note
  | .unary note _ _ => note
  | .binary note _ _ _ => note

/-- An expression is derived from the tokens that its note marks. -/
def Expr.Owns (e : Expr Location) (ts : List Token) : Prop :=
  Marks e.note ts ∧ Grammar.Expression (ts.map Token.lexeme) e.bare

/-- An expression and all operands in it are derived from the tokens that their notes mark, and
    those of an operand are among those of the expression. -/
def Expr.Spans : Expr Location → List Token → Prop
  | .name x, ts => (Expr.name x).Owns ts
  | .literal note value, ts => (Expr.literal note value).Owns ts
  | .read note, ts => (Expr.read note).Owns ts
  | .unary note op e, ts => (Expr.unary note op e).Owns ts ∧ ∃ es, es <:+: ts ∧ e.Spans es
  | .binary note op e f, ts =>
    (Expr.binary note op e f).Owns ts ∧ (∃ es, es <:+: ts ∧ e.Spans es) ∧
      ∃ fs, fs <:+: ts ∧ f.Spans fs

/-- An expression has its tokens among others, such as parentheses around it. -/
def Expr.Within (e : Expr Location) (ts : List Token) : Prop := ∃ es, es <:+: ts ∧ e.Spans es

/-- Tokens further out do not matter to what has its own among them. -/
theorem Expr.Within.mono {e : Expr Location} {ts us : List Token} (h : e.Within ts)
    (hi : ts <:+: us) : e.Within us := by
  obtain ⟨es, hes, hspans⟩ := h
  exact ⟨es, hes.trans hi, hspans⟩

theorem Expr.Spans.within {e : Expr Location} {ts : List Token} (h : e.Spans ts) : e.Within ts :=
  ⟨ts, List.infix_rfl, h⟩

/-! ## §3. Statements -/

/-- The note of a statement. -/
def Stmt.note : Stmt α → α
  | .block note _ => note
  | .assign note _ _ => note
  | .output note _ => note
  | .loop note _ _ => note
  | .choice note _ _ _ => note

/-- A statement is derived from the tokens that its note marks. -/
def Stmt.Owns (s : Stmt Location) (ts : List Token) : Prop :=
  Marks s.note ts ∧ ∃ isOpen, Grammar.Statement isOpen (ts.map Token.lexeme) s.bare

mutual

/-- A statement and all nodes in it are derived from the tokens that their notes mark, and those of
    a node in it are among its own. -/
def Stmt.Spans : Stmt Location → List Token → Prop
  | .block note body, ts =>
    (Stmt.block note body).Owns ts ∧ ∃ bs, bs <:+: ts ∧ Stmt.SpansAll body bs
  | .assign note x e, ts =>
    (Stmt.assign note x e).Owns ts ∧ (Expr.name x).Within ts ∧ e.Within ts
  | .output note e, ts => (Stmt.output note e).Owns ts ∧ e.Within ts
  | .loop note e s, ts =>
    (Stmt.loop note e s).Owns ts ∧ e.Within ts ∧ ∃ ss, ss <:+: ts ∧ s.Spans ss
  | .choice note e s t, ts =>
    (Stmt.choice note e s t).Owns ts ∧ e.Within ts ∧ Stmt.WithinBranch s ts ∧
      Stmt.WithinBranch t ts

/-- Statements span their tokens one behind the other. -/
def Stmt.SpansAll : List (Stmt Location) → List Token → Prop
  | [], _ => True
  | s :: body, ts => ∃ us vs, ts = us ++ vs ∧ s.Spans us ∧ Stmt.SpansAll body vs

/-- A branch has its tokens among others, if it is there. -/
def Stmt.WithinBranch : Option (Stmt Location) → List Token → Prop
  | none, _ => True
  | some s, ts => ∃ ss, ss <:+: ts ∧ s.Spans ss

end

/-- What spans its tokens is derived from them. -/
theorem Stmt.Spans.owns {s : Stmt Location} {ts : List Token} (h : s.Spans ts) : s.Owns ts := by
  cases s with
  | block note body => exact h.1
  | assign note x e => exact h.1
  | output note e => exact h.1
  | loop note e s => exact h.1
  | choice note e s t => exact h.1

theorem Stmt.WithinBranch.mono {s : Option (Stmt Location)} {ts us : List Token}
    (h : Stmt.WithinBranch s ts) (hi : ts <:+: us) : Stmt.WithinBranch s us := by
  cases s with
  | none => trivial
  | some s =>
      obtain ⟨ss, hss, hspans⟩ := h
      exact ⟨ss, hss.trans hi, hspans⟩

/-! ## §4. Programs -/

/-- Things that have their tokens one behind the other, with others between them. -/
def InOrder {β : Type} (Spans : β → List Token → Prop) : List β → List Token → Prop
  | [], _ => True
  | x :: xs, ts => ∃ us vs, ts = us ++ vs ∧ (∃ own, own <:+: us ∧ Spans x own) ∧ InOrder Spans xs vs

/-- A declaration and its names are derived from the tokens that their notes mark. -/
def Declaration.Spans (d : Declaration Location) (ts : List Token) : Prop :=
  Marks d.note ts ∧ Grammar.Declaration (ts.map Token.lexeme) d.bare ∧
    ∃ ns, ns <:+: ts ∧ InOrder (fun x => (Expr.name x).Spans) d.names ns

/-- A program and all nodes in it are derived from the tokens that their notes mark. -/
def Program.Spans (p : Program Location) (ts : List Token) : Prop :=
  Marks p.note ts ∧ Grammar.Program (ts.map Token.lexeme) p.bare ∧
    ∃ us vs, ts = us ++ vs ∧ InOrder Declaration.Spans p.declarations us ∧ p.body.Spans vs

end TinyLang
