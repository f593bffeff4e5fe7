/-
  TinyLang.Proofs.Script.Unambiguous — a text is read as at most one script.

  The reader of expressions is the one for all operators of the host language, since the
  expressions of scripts are among those.  Around it stands a reader of statements, built in
  the same way: it finds whatever is derived, once its bound is large enough,

      Statements ts script  →  statements m ts = some (script, [])        for all large m

  so two derivations of one list of tokens give the same script.  Where a choice can take an
  `else`, the reader gives it one at once; a statement that is not open cannot take it away.
-/

import TinyLang.Proofs.Script.Operators.Unambiguous

namespace TinyLang.Script

namespace Reader

open Grammar
open Operators (phrase_of_script)
open Operators.Reader (phrase Ends ends_mark bound_succ AsPhrase asPhrase_of_phrase)

/-! ## §1. The reader -/

/-- Reads a variable with its first value, if it has one. -/
def declarator (n : Nat) (ts : List Token) : Option ((String × Option Expr) × List Token) :=
  match ts with
  | .word name :: ts =>
    if ts.head? = some (.mark "=") then
      (phrase n ts.tail).map fun (e, ts) => ((name, some e), ts)
    else some ((name, none), ts)
  | _ => none

/-- Reads one or more variables. -/
def declarators : Nat → List Token → Option (List (String × Option Expr) × List Token)
  | 0, _ => none
  | n + 1, ts => do
    let (d, ts) ← declarator n ts
    if ts.head? = some (.mark ",") then do
      let (ds, ts) ← declarators n ts.tail
      some (d :: ds, ts)
    else some ([d], ts)

mutual

/-- Reads a statement. -/
def statement : Nat → List Token → Option (Stmt × List Token)
  | 0, _ => none
  | n + 1, ts =>
    if ts.head? = some (.mark ";") then some (.empty, ts.tail)
    else if ts.head? = some (.mark "\x7b") then do
      let (body, ts) ← statements n ts.tail
      some (.block body, ts.tail)
    else if ts.head? = some (.word "var") then do
      let (ds, ts) ← declarators n ts.tail
      some (.declare .varWord ds, ts.tail)
    else if ts.head? = some (.word "while") then do
      let (test, ts) ← phrase n ts.tail.tail
      let (s, ts) ← statement n ts.tail
      some (.loop test s, ts)
    else if ts.head? = some (.word "if") then do
      let (test, ts) ← phrase n ts.tail.tail
      let (s, ts) ← statement n ts.tail
      if ts.head? = some (.word "else") then do
        let (t, ts) ← statement n ts.tail
        some (.choice test s (some t), ts)
      else some (.choice test s none, ts)
    else do
      let (e, ts) ← phrase n ts
      some (.expression e, ts.tail)

/-- Reads statements up to a closing brace or the end. -/
def statements : Nat → List Token → Option (List Stmt × List Token)
  | 0, _ => none
  | n + 1, ts =>
    if ts = [] ∨ ts.head? = some (.mark "\x7d") then some ([], ts)
    else do
      let (s, ts) ← statement n ts
      let (body, ts) ← statements n ts
      some (s :: body, ts)

end

/-! ## §2. Expressions -/

/-- An expression of a script is found as one of the host language. -/
theorem found_of_phrase {k : Nat} {ts : List Token} {e : Expr} (h : Phrase k ts e) :
    AsPhrase ts e :=
  asPhrase_of_phrase (phrase_of_script h)

/-- The tokens that an expression can start with. -/
def Starts : Token → Prop
  | .word x => x ∉ reservedWords ∨ x = "true" ∨ x = "false"
  | .mark m => m = "(" ∨ m ∈ signs
  | _ => True

/-- The first token of an expression. -/
theorem phrase_head : ∀ {k : Nat} {ts : List Token} {e : Expr}, Phrase k ts e →
    ∃ t tail, ts = t :: tail ∧ Starts t
  | _, _, _, .identifier hx => ⟨_, _, rfl, .inl hx⟩
  | _, _, _, .number => ⟨_, _, rfl, trivial⟩
  | _, _, _, .string => ⟨_, _, rfl, trivial⟩
  | _, _, _, .true => ⟨_, _, rfl, .inr (.inl rfl)⟩
  | _, _, _, .false => ⟨_, _, rfl, .inr (.inr rfl)⟩
  | _, _, _, .parens _ => ⟨_, _, rfl, .inl rfl⟩
  | _, _, _, .unary hop _ => ⟨_, _, rfl, .inr hop⟩
  | _, _, _, .tighter _ h => phrase_head h
  -- an operation starts where its left side starts
  | _, _, _, .assign _ ht _ => by
      obtain ⟨t, tail, rfl, hstart⟩ := phrase_head ht
      exact ⟨t, _, rfl, hstart⟩
  | _, _, _, .binary _ hl _ => by
      obtain ⟨t, tail, rfl, hstart⟩ := phrase_head hl
      exact ⟨t, _, rfl, hstart⟩
  | _, _, _, .member h => by
      obtain ⟨t, tail, rfl, hstart⟩ := phrase_head h
      exact ⟨t, _, rfl, hstart⟩
  | _, _, _, .call hf _ => by
      obtain ⟨t, tail, rfl, hstart⟩ := phrase_head hf
      exact ⟨t, _, rfl, hstart⟩

/-! ## §3. Statements -/

/-- A variable without a value is told from one with a value by the equals sign. -/
theorem found_of_declarator {ts : List Token} {d : String × Option Expr} (h : Declarator ts d) :
    ∃ n, ∀ m, n ≤ m → ∀ rest, Ends rest → declarator m (ts ++ rest) = some (d, rest) := by
  cases h with
  | bare _ =>
      refine ⟨0, fun m _ rest hrest => ?_⟩
      rw [List.singleton_append]
      unfold declarator
      dsimp only
      -- what ends an expression is no `=`, so there is no initial value
      rw [if_neg hrest.head_ne]
  | initial _ h =>
      obtain ⟨n, hn⟩ := found_of_phrase h
      refine ⟨n, fun m hm rest hrest => ?_⟩
      rw [List.cons_append, List.cons_append]
      unfold declarator
      dsimp only
      rw [List.head?_cons, if_pos rfl, List.tail_cons, hn m hm rest hrest]
      rfl

/-- The reader finds all derived variables, up to the semicolon. -/
theorem found_of_declarators {ts : List Token} {ds : List (String × Option Expr)}
    (h : Declarators ts ds) :
    ∃ n, ∀ m, n ≤ m → ∀ rest,
      declarators m (ts ++ .mark ";" :: rest) = some (ds, .mark ";" :: rest) := by
  induction h with
  | last h =>
      obtain ⟨n, hn⟩ := found_of_declarator h
      refine bound_succ n fun j hj rest => ?_
      unfold declarators
      rw [hn j (by omega) (.mark ";" :: rest) (ends_mark (by simp) rest)]
      rfl
  | @more us vs d ds h _ ih =>
      obtain ⟨n, hn⟩ := found_of_declarator h
      obtain ⟨n', hn'⟩ := ih
      refine bound_succ (n + n') fun j hj rest => ?_
      rw [List.append_assoc, List.cons_append]
      unfold declarators
      rw [hn j (by omega) (.mark "," :: (vs ++ .mark ";" :: rest)) (ends_mark (by simp) _)]
      show (declarators j (vs ++ .mark ";" :: rest) >>= _) = _
      rw [hn' j (by omega)]
      rfl

/-- The reader finds a statement, which an `else` must not follow if it is open. -/
def FoundStatement (isOpen : Bool) (ts : List Token) (s : Stmt) : Prop :=
  ∃ n, ∀ m, n ≤ m → ∀ rest, (isOpen = true → rest.head? ≠ some (.word "else")) →
    statement m (ts ++ rest) = some (s, rest)

/-- The reader finds statements up to a closing brace or the end. -/
def FoundStatements (ts : List Token) (body : List Stmt) : Prop :=
  ∃ n, ∀ m, n ≤ m → ∀ rest, rest = [] ∨ rest.head? = some (.mark "\x7d") →
    statements m (ts ++ rest) = some (body, rest)

/-- What an expression starts with starts no other statement and ends none. -/
theorem Starts.ne {t : Token} (h : Starts t) : t ≠ .mark ";" ∧ t ≠ .mark "\x7b" ∧
    t ≠ .mark "\x7d" ∧ t ≠ .word "var" ∧ t ≠ .word "while" ∧ t ≠ .word "if" ∧ t ≠ .word "else" := by
  -- a parenthesis or a sign is no mark of a statement
  have hmark : ∀ m, m = "(" ∨ m ∈ signs → m ≠ ";" ∧ m ≠ "\x7b" ∧ m ≠ "\x7d" := by
    rintro m (rfl | hm)
    · decide
    · simp only [signs, List.mem_cons, List.not_mem_nil, or_false] at hm
      rcases hm with rfl | rfl <;> decide
  -- and a name or a truth value is no word of one
  have hword : ∀ x, x ∉ reservedWords ∨ x = "true" ∨ x = "false" →
      x ≠ "var" ∧ x ≠ "while" ∧ x ≠ "if" ∧ x ≠ "else" := by
    rintro x (hx | rfl | rfl)
    · refine ⟨?_, ?_, ?_, ?_⟩ <;> rintro rfl <;> exact hx (by decide)
    · decide
    · decide
  cases t with
  | mark m => simpa using hmark m h
  | word x => simpa using hword x h
  | number n => simp
  | string s => simp

/-- A statement starts with no `else` and no closing brace, so neither can be part of one. -/
theorem statement_head {isOpen : Bool} {ts : List Token} {s : Stmt} (h : Statement isOpen ts s) :
    ∃ t tail, ts = t :: tail ∧ t ≠ .word "else" ∧ t ≠ .mark "\x7d" := by
  cases h with
  | expression h =>
      obtain ⟨t, tail, rfl, hstart⟩ := phrase_head h
      exact ⟨t, _, rfl, hstart.ne.2.2.2.2.2.2, hstart.ne.2.2.1⟩
  | declare _ => exact ⟨_, _, rfl, by decide, by decide⟩
  | block _ => exact ⟨_, _, rfl, by decide, by decide⟩
  | loop _ _ => exact ⟨_, _, rfl, by decide, by decide⟩
  | choice _ _ => exact ⟨_, _, rfl, by decide, by decide⟩
  | choiceElse _ _ _ => exact ⟨_, _, rfl, by decide, by decide⟩
  | empty => exact ⟨_, _, rfl, by decide, by decide⟩

/-- What starts like an expression is read as one, and as no other statement. -/
theorem found_expression {ts : List Token} {e : Expr} (h : Phrase 0 ts e) :
    FoundStatement false (ts ++ [.mark ";"]) (.expression e) := by
  obtain ⟨t, tail, rfl, hstart⟩ := phrase_head h
  obtain ⟨n, hn⟩ := found_of_phrase h
  refine bound_succ n fun j hj rest _ => ?_
  have hphrase := hn j (by omega) (.mark ";" :: rest) (ends_mark (by simp) rest)
  obtain ⟨h₁, h₂, -, h₃, h₄, h₅, -⟩ := hstart.ne
  have hhead : ∀ u, t ≠ u → (t :: (tail ++ .mark ";" :: rest)).head? ≠ some u :=
    fun u hu heq => hu (Option.some.inj heq)
  rw [List.append_assoc, List.singleton_append, List.cons_append]
  unfold statement
  -- none of the other statements starts as an expression does
  rw [if_neg (hhead _ h₁), if_neg (hhead _ h₂), if_neg (hhead _ h₃), if_neg (hhead _ h₄),
    if_neg (hhead _ h₅), ← List.cons_append, hphrase]
  rfl

theorem found_declare {ts : List Token} {ds : List (String × Option Expr)}
    (h : Declarators ts ds) :
    FoundStatement false (.word "var" :: ts ++ [.mark ";"]) (.declare .varWord ds) := by
  obtain ⟨n, hn⟩ := found_of_declarators h
  refine bound_succ n fun j hj rest _ => ?_
  rw [List.cons_append, List.cons_append, List.append_assoc, List.singleton_append]
  show (declarators j (ts ++ .mark ";" :: rest) >>= _) = _
  rw [hn j (by omega)]
  rfl

theorem found_block {ts : List Token} {body : List Stmt} (h : FoundStatements ts body) :
    FoundStatement false (.mark "\x7b" :: ts ++ [.mark "\x7d"]) (.block body) := by
  obtain ⟨n, hn⟩ := h
  refine bound_succ n fun j hj rest _ => ?_
  rw [List.cons_append, List.cons_append, List.append_assoc, List.singleton_append]
  show (statements j (ts ++ .mark "\x7d" :: rest) >>= _) = _
  rw [hn j (by omega) (.mark "\x7d" :: rest) (.inr rfl)]
  rfl

/-- A loop is open if its body is. -/
theorem found_loop {us vs : List Token} {test : Expr} {s : Stmt} {isOpen : Bool}
    (ht : Phrase 0 us test) (h : FoundStatement isOpen vs s) :
    FoundStatement isOpen (.word "while" :: .mark "(" :: us ++ .mark ")" :: vs) (.loop test s) := by
  obtain ⟨n, hn⟩ := found_of_phrase ht
  obtain ⟨n', hn'⟩ := h
  refine bound_succ (n + n') fun j hj rest hrest => ?_
  have htest := hn j (by omega) (.mark ")" :: (vs ++ rest)) (ends_mark (by simp) _)
  simp only [List.cons_append, List.append_assoc]
  show (phrase j (us ++ .mark ")" :: (vs ++ rest)) >>= _) = _
  rw [htest]
  show (statement j (vs ++ rest) >>= _) = _
  rw [hn' j (by omega) rest hrest]
  rfl

/-- A choice without an `else` is found where none follows. -/
theorem found_choice {us vs : List Token} {test : Expr} {s : Stmt} {isOpen : Bool}
    (ht : Phrase 0 us test) (h : FoundStatement isOpen vs s) :
    FoundStatement true (.word "if" :: .mark "(" :: us ++ .mark ")" :: vs)
      (.choice test s none) := by
  obtain ⟨n, hn⟩ := found_of_phrase ht
  obtain ⟨n', hn'⟩ := h
  refine bound_succ (n + n') fun j hj rest hrest => ?_
  have htest := hn j (by omega) (.mark ")" :: (vs ++ rest)) (ends_mark (by simp) _)
  simp only [List.cons_append, List.append_assoc]
  show (phrase j (us ++ .mark ")" :: (vs ++ rest)) >>= _) = _
  rw [htest]
  show (statement j (vs ++ rest) >>= _) = _
  -- without an `else` of its own the choice is open, so none stands behind its branch
  rw [hn' j (by omega) rest (fun _ => hrest rfl)]
  show (if rest.head? = some (.word "else") then _ else some (Stmt.choice test s none, rest)) = _
  rw [if_neg (hrest rfl)]

/-- A choice with an `else` is found: its first branch is closed, so the `else` is not taken by it.
    -/
theorem found_choiceElse {us vs ws : List Token} {test : Expr} {s t : Stmt} {isOpen : Bool}
    (htest : Phrase 0 us test) (hs : FoundStatement false vs s) (ht : FoundStatement isOpen ws t) :
    FoundStatement isOpen
      (.word "if" :: .mark "(" :: us ++ .mark ")" :: vs ++ .word "else" :: ws)
      (.choice test s (some t)) := by
  obtain ⟨n, hn⟩ := found_of_phrase htest
  obtain ⟨n₁, hn₁⟩ := hs
  obtain ⟨n₂, hn₂⟩ := ht
  refine bound_succ (n + n₁ + n₂) fun j hj rest hrest => ?_
  have htest := hn j (by omega) (.mark ")" :: (vs ++ .word "else" :: (ws ++ rest)))
    (ends_mark (by simp) _)
  simp only [List.cons_append, List.append_assoc]
  show (phrase j (us ++ .mark ")" :: (vs ++ .word "else" :: (ws ++ rest))) >>= _) = _
  rw [htest]
  show (statement j (vs ++ .word "else" :: (ws ++ rest)) >>= _) = _
  -- the first branch is closed: the `else` behind it belongs to this choice
  rw [hn₁ j (by omega) (.word "else" :: (ws ++ rest)) (fun h => absurd h (by decide))]
  show (statement j (ws ++ rest) >>= _) = _
  rw [hn₂ j (by omega) rest hrest]
  rfl

/-- A statement in front of others: nothing that follows is an `else`. -/
theorem found_cons {us vs : List Token} {s : Stmt} {body : List Stmt} {isOpen : Bool}
    (hs : Statement isOpen us s) (hbody : Statements vs body) (h : FoundStatement isOpen us s)
    (hb : FoundStatements vs body) : FoundStatements (us ++ vs) (s :: body) := by
  obtain ⟨n, hn⟩ := h
  obtain ⟨n', hn'⟩ := hb
  refine bound_succ (n + n') fun j hj rest hrest => ?_
  -- neither a statement nor the end of a block starts with `else`
  have hfollow : (vs ++ rest).head? ≠ some (.word "else") := by
    cases hbody with
    | nil =>
        rcases hrest with rfl | hrest
        · simp
        · rw [List.nil_append, hrest]
          decide
    | cons hs' _ =>
        obtain ⟨t, tail, rfl, ht, -⟩ := statement_head hs'
        intro heq
        exact ht (Option.some.inj heq)
  have hfirst := hn j (by omega) (vs ++ rest) (fun _ => hfollow)
  have hmore := hn' j (by omega) rest hrest
  obtain ⟨t, tail, rfl, -, hclose⟩ := statement_head hs
  rw [List.append_assoc]
  unfold statements
  rw [if_neg (by simp [hclose]), hfirst]
  show (statements j (vs ++ rest) >>= _) = _
  rw [hmore]
  rfl

mutual

/-- **THE READER FINDS EVERY DERIVED STATEMENT.** -/
theorem found_of_statement : ∀ {isOpen : Bool} {ts : List Token} {s : Stmt},
    Statement isOpen ts s → FoundStatement isOpen ts s
  | _, _, _, .declare h => found_declare h
  | _, _, _, .expression h => found_expression h
  | _, _, _, .block h => found_block (found_of_statements h)
  | _, _, _, .loop ht h => found_loop ht (found_of_statement h)
  | _, _, _, .choice ht h => found_choice ht (found_of_statement h)
  | _, _, _, .choiceElse ht h h' =>
      found_choiceElse ht (found_of_statement h) (found_of_statement h')
  | _, _, _, .empty => bound_succ 0 fun _ _ _ _ => rfl

/-- The reader finds all derived statements, up to a closing brace or the end. -/
theorem found_of_statements : ∀ {ts : List Token} {body : List Stmt},
    Statements ts body → FoundStatements ts body
  | _, _, .nil => bound_succ 0 fun j _ rest hrest => by
      rw [List.nil_append]
      unfold statements
      rw [if_pos hrest]
  | _, _, .cons h hb => found_cons h hb (found_of_statement h) (found_of_statements hb)

end

end Reader

/-! ## §4. At most one script -/

/-- A script that is one expression is read as that expression of the host language. -/
theorem Reads.expression {text : String} {e : Expr} (h : Reads text [.expression e]) :
    Operators.Reads text e := by
  obtain ⟨ts, hts, hscript⟩ := h
  cases hscript with
  | cons hstatement hrest =>
      cases hrest
      cases hstatement with
      | @expression ts _ hphrase =>
          rw [List.append_nil] at hts
          obtain ⟨t, tail, rfl, hstart⟩ := Reader.phrase_head hphrase
          obtain ⟨-, hbrace, -⟩ := hstart.ne
          refine ⟨t :: tail, hts, ?_, ?_, Operators.phrase_of_script hphrase⟩
          -- `function` is reserved, so no expression of a script starts with it
          · intro hhead
            obtain rfl := Option.some.inj hhead
            rcases hstart with hword | hword
            · exact hword (by decide)
            · exact absurd hword (by decide)
          · intro hhead
            exact hbrace (Option.some.inj hhead)

/-- Tokens derive at most one script. -/
theorem Grammar.Statements.unique {ts : List Token} {a b : List Stmt} (ha : Statements ts a)
    (hb : Statements ts b) : a = b := by
  obtain ⟨n, hn⟩ := Reader.found_of_statements ha
  obtain ⟨n', hn'⟩ := Reader.found_of_statements hb
  have h := hn (n + n') (by omega) [] (.inl rfl)
  rw [hn' (n + n') (by omega) [] (.inl rfl)] at h
  exact (Prod.mk.inj (Option.some.inj h)).1.symm

/-- **A TEXT IS READ AS AT MOST ONE SCRIPT.** -/
theorem Reads.unique {text : String} {a b : List Stmt} (ha : Reads text a) (hb : Reads text b) :
    a = b := by
  obtain ⟨ts, hts, ha⟩ := ha
  obtain ⟨us, hus, hb⟩ := hb
  obtain rfl := hts.unique hus
  exact ha.unique hb

end TinyLang.Script
