/-
  TinyLang.Proofs.Script.Alternates — to which choice an `else` belongs.

  In a tree every alternate has its choice.  In a text there is only the word `else`, and it
  belongs to the nearest choice in front of it that can still take one.  SETTLING a
  statement moves every alternate to the choice at which the text has it:

      (choice test s (some t)).settled = (choice test s.settled none).withElse t.settled

  A statement is STEADY when no consequent that has an alternate behind it is open.  What is
  derived is steady, and a steady statement is settled as it stands.
-/

import TinyLang.Proofs.Script.Grammar

namespace TinyLang.Script

open Grammar

/-! ## §1. Open statements -/

/-- Whether a statement ends in a choice without an alternate. -/
def Stmt.isOpen : Stmt → Bool
  | .loop _ body => body.isOpen
  | .choice _ _ none => true
  | .choice _ _ (some alternate) => alternate.isOpen
  | _ => false

/-- Puts an `else` behind an open statement: the innermost of the choices at its end that have no
    alternate takes it. -/
def Stmt.withElse : Stmt → Stmt → Stmt
  | .loop test body, t => .loop test (body.withElse t)
  | .choice test consequent none, t =>
    if consequent.isOpen then .choice test (consequent.withElse t) none
    else .choice test consequent (some t)
  | .choice test consequent (some alternate), t =>
    .choice test consequent (some (alternate.withElse t))
  | s, _ => s

mutual

/-- A statement as its text has it: every alternate at the nearest choice that can take it. -/
def Stmt.settled : Stmt → Stmt
  | .block body => .block (Stmt.settledAll body)
  | .loop test body => .loop test body.settled
  | .choice test consequent none => .choice test consequent.settled none
  | .choice test consequent (some alternate) =>
    (Stmt.choice test consequent.settled none).withElse alternate.settled
  | .declare word declarators => .declare word declarators
  | .expression e => .expression e
  | .empty => .empty

/-- Statements as their text has them. -/
def Stmt.settledAll : List Stmt → List Stmt
  | [] => []
  | s :: body => s.settled :: Stmt.settledAll body

end

mutual

/-- Whether every alternate stands behind a consequent that cannot take it. -/
def Stmt.isSteady : Stmt → Bool
  | .block body => Stmt.areSteady body
  | .loop _ body => body.isSteady
  | .choice _ consequent none => consequent.isSteady
  | .choice _ consequent (some alternate) =>
    !consequent.isOpen && consequent.isSteady && alternate.isSteady
  | .declare _ _ => true
  | .expression _ => true
  | .empty => true

/-- Whether statements are steady, each of them. -/
def Stmt.areSteady : List Stmt → Bool
  | [] => true
  | s :: body => s.isSteady && Stmt.areSteady body

end

/-! ## §2. Steady statements stay as they are -/

mutual

/-- A statement in which no `else` can go astray settles to itself. -/
theorem Stmt.settled_of_isSteady : ∀ s : Stmt, s.isSteady = true → s.settled = s
  | .block body, h => by
      rw [Stmt.settled, Stmt.settledAll_of_areSteady body h]
  | .loop test body, h => by
      rw [Stmt.settled, Stmt.settled_of_isSteady body h]
  | .choice test consequent none, h => by
      rw [Stmt.settled, Stmt.settled_of_isSteady consequent h]
  | .choice test consequent (some alternate), h => by
      rw [Stmt.isSteady, Bool.and_eq_true, Bool.and_eq_true, Bool.not_eq_true'] at h
      -- the branch in front of the `else` is closed, so the `else` stays where it is
      obtain ⟨⟨hclosed, hconsequent⟩, halternate⟩ := h
      rw [Stmt.settled, Stmt.settled_of_isSteady consequent hconsequent,
        Stmt.settled_of_isSteady alternate halternate, Stmt.withElse, hclosed]
      rfl
  | .declare _ _, _ => rfl
  | .expression _, _ => rfl
  | .empty, _ => rfl

theorem Stmt.settledAll_of_areSteady : ∀ body : List Stmt, Stmt.areSteady body = true →
    Stmt.settledAll body = body
  | [], _ => rfl
  | s :: body, h => by
      rw [Stmt.areSteady, Bool.and_eq_true] at h
      rw [Stmt.settledAll, Stmt.settled_of_isSteady s h.1, Stmt.settledAll_of_areSteady body h.2]

end

/-! ## §3. Derived statements -/

namespace Grammar

/-- A statement is derived as open if and only if it is. -/
theorem Statement.isOpen_eq : ∀ {isOpen : Bool} {ts : List Token} {s : Stmt},
    Statement isOpen ts s → s.isOpen = isOpen
  | _, _, _, .declare _ => rfl
  | _, _, _, .expression _ => rfl
  | _, _, _, .block _ => rfl
  | _, _, _, .loop _ h => h.isOpen_eq
  | _, _, _, .choice _ _ => rfl
  | _, _, _, .choiceElse _ _ h => h.isOpen_eq
  | _, _, _, .empty => rfl

mutual

/-- What is derived is steady: only a closed statement may stand in front of an `else`. -/
theorem Statement.isSteady : ∀ {isOpen : Bool} {ts : List Token} {s : Stmt},
    Statement isOpen ts s → s.isSteady = true
  | _, _, _, .declare _ => rfl
  | _, _, _, .expression _ => rfl
  | _, _, _, .block h => h.areSteady
  | _, _, _, .loop _ h => h.isSteady
  | _, _, _, .choice _ h => h.isSteady
  | _, _, _, .choiceElse _ h h' => by
      rw [Stmt.isSteady, h.isOpen_eq, h.isSteady, h'.isSteady]
      rfl
  | _, _, _, .empty => rfl

/-- What can be derived is steady: the grammar gives every `else` to the nearest choice. -/
theorem Statements.areSteady : ∀ {ts : List Token} {body : List Stmt},
    Statements ts body → Stmt.areSteady body = true
  | _, _, .nil => rfl
  | _, _, .cons h hb => by
      rw [Stmt.areSteady, h.isSteady, hb.areSteady]
      rfl

end

/-- **AN `else` BEHIND AN OPEN STATEMENT** belongs to the innermost choice that can take it. -/
theorem Statement.withElse {o : Bool} {us : List Token} {t : Stmt} (ht : Statement o us t) :
    ∀ {ts : List Token} {s : Stmt}, Statement true ts s →
      Statement (s.withElse t).isOpen (ts ++ .word "else" :: us) (s.withElse t)
  | _, _, .loop htest h => by
      have hloop := Statement.loop htest (ht.withElse h)
      simp only [List.cons_append, List.append_assoc] at hloop ⊢
      exact hloop
  | _, _, @Statement.choice _ _ test s isOpen htest h => by
      rw [Stmt.withElse, h.isOpen_eq]
      -- the consequent goes first: it takes the `else` if it can
      cases isOpen with
      | true =>
          have hchoice := Statement.choice htest (ht.withElse h)
          simp only [List.cons_append, List.append_assoc] at hchoice ⊢
          exact hchoice
      | false =>
          have hchoice := Statement.choiceElse htest h ht
          rw [← ht.isOpen_eq] at hchoice
          exact hchoice
  | _, _, .choiceElse htest h h' => by
      have hchoice := Statement.choiceElse htest h (ht.withElse h')
      simp only [List.cons_append, List.append_assoc] at hchoice ⊢
      exact hchoice

end Grammar

end TinyLang.Script
