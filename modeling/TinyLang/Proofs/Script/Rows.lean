/-
  TinyLang.Proofs.Script.Rows — a printed script, row by row.

  What a printer decides is a list of ROWS, each with a depth and a text.  The width of the
  indentation has no part in it, and comes in only when the rows are written down:

      print width script  =  rowsText width 0 (Stmt.rows script)

      Stmt.rows (a ++ b)        =  Stmt.rows a ++ Stmt.rows b
      Stmt.rows [.block body]   =  (0, "{") :: deepen (Stmt.rows body) ++ [(0, "}")]

  Functions stand inside of expressions, so the text of an expression can go over many rows
  too.  A FLOW is such a text: it starts within a row, and its other rows are as deep as they
  are below the level of that row.  Where the printer looks back at what it has written (a
  sign in front of a sign, a statement that starts like a function) it sees no further than
  the first row, so that the width does not matter there either.
-/

import TinyLang.Proofs.Script.Parts
import TinyLang.Proofs.Script.Quoting
import TinyLang.Script.Printer

namespace TinyLang.Script

/-! ## §1. Rows and flows -/

/-- A row of a printed script: its depth, and its text without the indentation. -/
abbrev Row := Nat × String

/-- Rows one level deeper. -/
def deepen (rows : List Row) : List Row := rows.map fun row => (row.1 + 1, row.2)

/-- The text of rows at a level: each with its indentation, and a line feed behind it. -/
def rowsText (width level : Nat) : List Row → String
  | [] => ""
  | (depth, text) :: rows =>
    indent width (level + depth) ++ text ++ "\n" ++ rowsText width level rows

/-- A text that starts within a row, and the rows below it. -/
structure Flow where
  first : String
  below : List Row

namespace Flow

/-- A text within a row. -/
def ofText (text : String) : Flow := ⟨text, []⟩

/-- A flow behind a text and the rows below it: it starts in the last of them. -/
def behind (flow : Flow) : String → List Row → Flow
  | first, [] => ⟨first ++ flow.first, flow.below⟩
  | first, (depth, text) :: rows =>
    ⟨first, (depth, (flow.behind text rows).first) :: (flow.behind text rows).below⟩

instance : Append Flow := ⟨fun a b => b.behind a.first a.below⟩

/-- All rows of a flow, the one in which it starts included. -/
def rows (flow : Flow) : List Row := (0, flow.first) :: flow.below

/-- The text of rows below another one. -/
def textBelow (width level : Nat) : List Row → String
  | [] => ""
  | (depth, text) :: rows =>
    "\n" ++ indent width (level + depth) ++ text ++ textBelow width level rows

/-- The text of a flow that starts in a row of a level. -/
def text (width level : Nat) (flow : Flow) : String :=
  flow.first ++ textBelow width level flow.below

/-! What the printer does with texts, done with flows. -/

def parens (flow : Flow) : Flow := ofText "(" ++ flow ++ ofText ")"

/-- The flow of an expression at a place that asks for a least strength. -/
def guarded (least : Nat) (e : Expr) (flow : Flow) : Flow :=
  if e.strength < least then flow.parens else flow

/-- Flows with commas between them. -/
def commas : List Flow → Flow
  | [] => ofText ""
  | [flow] => flow
  | flow :: next :: more => flow ++ ofText ", " ++ commas (next :: more)

/-- A unary operator in front of the flow of its operand. -/
def unary (operator : String) (flow : Flow) : Flow :=
  if (operator == "-" || operator == "+") &&
      (startsWith "-" flow.first || startsWith "+" flow.first) then
    ofText operator ++ flow.parens
  else if operator.toList.getLast?.any Text.isLetter then ofText (operator ++ " ") ++ flow
  else ofText operator ++ flow

/-- The flow of an expression as a statement. -/
def asStatement (flow : Flow) : Flow :=
  if startsWith "function" flow.first || startsWith "\x7b" flow.first then flow.parens else flow

/-- Rows between braces, one level deeper. -/
def block (rows : List Row) : Flow := ⟨"\x7b", deepen rows ++ [(0, "\x7d")]⟩

/-- A flow that starts in a row of its own, one level deeper. -/
def indented (flow : Flow) : Flow := ⟨"", deepen flow.rows⟩

/-- The flow of a clause behind its head. -/
def clause (s : Stmt) (flow : Flow) : Flow :=
  match s with
  | .block _ => ofText " " ++ flow
  | .empty => ofText ";"
  | _ => flow.indented

/-- What stands between the two clauses of a choice. -/
def elseOf (consequent : Stmt) : Flow :=
  if consequent.isInline then ofText " else" else ⟨"", [(0, "else")]⟩

end Flow

mutual

/-- The flow of an expression. -/
def Expr.flow : Expr → Flow
  | .identifier name => .ofText name
  | .literal value => .ofText value.text
  | .call callee arguments =>
    callee.flow.guarded callStrength callee ++ (Flow.commas (Expr.flows arguments)).parens
  | .member object property =>
    (if object.isNumeric then object.flow.parens else object.flow.guarded callStrength object) ++
      .ofText ("." ++ property)
  | .assign operator left right =>
    left.flow.guarded callStrength left ++ .ofText (" " ++ operator ++ " ") ++
      right.flow.guarded assignStrength right
  | .unary .before operator argument =>
    (argument.flow.guarded beforeStrength argument).unary operator
  | .unary .behind operator argument =>
    argument.flow.guarded behindStrength argument ++ .ofText operator
  | .binary operator left right =>
    left.flow.guarded (operandStrengths operator).1 left ++ .ofText (" " ++ operator ++ " ") ++
      right.flow.guarded (operandStrengths operator).2 right
  | .function parameters body =>
    .ofText ("function " ++ parens (commas parameters) ++ " ") ++ .block (Stmt.rows body)

/-- The flows of arguments. -/
def Expr.flows : List Expr → List Flow
  | [] => []
  | e :: arguments => e.flow.guarded assignStrength e :: Expr.flows arguments

/-- The flows of declarators. -/
def Expr.declaratorFlows : List (String × Option Expr) → List Flow
  | [] => []
  | (name, none) :: more => .ofText name :: Expr.declaratorFlows more
  | (name, some e) :: more =>
    (.ofText (name ++ " = ") ++ e.flow.guarded assignStrength e) :: Expr.declaratorFlows more

/-- The flow of a statement, which starts at the head of a row. -/
def Stmt.flow : Stmt → Flow
  | .declare word declarators =>
    .ofText (word.spelling ++ " ") ++ .commas (Expr.declaratorFlows declarators) ++ .ofText ";"
  | .expression e => e.flow.asStatement ++ .ofText ";"
  | .block body => .block (Stmt.rows body)
  | .loop test body => .ofText "while " ++ test.flow.parens ++ body.flow.clause body
  | .choice test consequent none =>
    .ofText "if " ++ test.flow.parens ++ consequent.flow.clause consequent
  | .choice test consequent (some alternate) =>
    .ofText "if " ++ test.flow.parens ++ consequent.flow.clause consequent ++
      .elseOf consequent ++ alternate.flow.clause alternate
  | .empty => .ofText ";"

/-- **The rows of a list of statements.** -/
def Stmt.rows : List Stmt → List Row
  | [] => []
  | s :: body => s.flow.rows ++ Stmt.rows body

end

/-! ## §2. Texts of flows -/

/-- The text of rows is that of one part behind the other. -/
theorem rowsText_append (width level : Nat) (a b : List Row) :
    rowsText width level (a ++ b) = rowsText width level a ++ rowsText width level b := by
  induction a with
  | nil => simp [rowsText]
  | cons row a ih =>
      obtain ⟨depth, text⟩ := row
      simp only [List.cons_append, rowsText, ih, String.append_assoc]

/-- One level deeper is the same as at a deeper level. -/
theorem rowsText_deepen (width level : Nat) (rows : List Row) :
    rowsText width level (deepen rows) = rowsText width (level + 1) rows := by
  induction rows with
  | nil => rfl
  | cons row rows ih =>
      obtain ⟨depth, text⟩ := row
      have hlevel : level + (depth + 1) = level + 1 + depth := by omega
      show indent width (level + (depth + 1)) ++ text ++ "\n" ++
        rowsText width level (deepen rows) = _
      rw [ih, hlevel, rowsText]

namespace Flow

theorem textBelow_append (width level : Nat) (a b : List Row) :
    textBelow width level (a ++ b) = textBelow width level a ++ textBelow width level b := by
  induction a with
  | nil => simp [textBelow]
  | cons row a ih =>
      obtain ⟨depth, text⟩ := row
      simp only [List.cons_append, textBelow, ih, String.append_assoc]

/-- The line feed may be counted with the row in front of it or with the row behind it. -/
theorem textBelow_eq_rowsText (width level : Nat) (rows : List Row) :
    textBelow width level rows ++ "\n" = "\n" ++ rowsText width level rows := by
  induction rows with
  | nil => rfl
  | cons row rows ih =>
      obtain ⟨depth, text⟩ := row
      simp only [textBelow, rowsText, String.append_assoc, ih]

/-- A flow on a line of its own is the text of its rows. -/
theorem text_rows (width level : Nat) (flow : Flow) :
    indent width level ++ flow.text width level ++ "\n" = rowsText width level flow.rows := by
  simp only [text, rows, rowsText, String.append_assoc, textBelow_eq_rowsText, Nat.add_zero]

@[simp] theorem text_ofText (width level : Nat) (t : String) :
    (ofText t).text width level = t :=
  String.append_empty

/-- **Flows are written one behind the other.** -/
@[simp] theorem text_append (width level : Nat) (a b : Flow) :
    (a ++ b).text width level = a.text width level ++ b.text width level := by
  obtain ⟨first, below⟩ := a
  show (b.behind first below).text width level = _
  induction below generalizing first with
  | nil => simp only [behind, text, textBelow, String.append_empty, String.append_assoc]
  | cons row below ih =>
      obtain ⟨depth, t⟩ := row
      have hrest := ih t
      simp only [text] at hrest
      simp only [behind, text, textBelow, String.append_assoc, hrest]

@[simp] theorem text_parens (width level : Nat) (flow : Flow) :
    flow.parens.text width level = Script.parens (flow.text width level) := by
  simp only [parens, text_append, text_ofText, Script.parens]

@[simp] theorem text_guarded (width level least : Nat) (e : Expr) (flow : Flow) :
    (flow.guarded least e).text width level =
      Script.guarded least e (flow.text width level) := by
  unfold guarded Script.guarded
  split
  · exact text_parens width level flow
  · rfl

/-- Flows with commas between them are texts with commas between them. -/
@[simp] theorem text_commas (width level : Nat) : ∀ flows : List Flow,
    (commas flows).text width level = Script.commas (flows.map (·.text width level))
  | [] => text_ofText width level ""
  | [_] => rfl
  | flow :: next :: more => by
      simp only [commas, text_append, text_ofText, text_commas width level (next :: more),
        List.map_cons, Script.commas]

/-- Whether a text starts with another of one line is seen on its first line. -/
theorem isPrefixOf_lineFeed {p : List Char} (hp : '\n' ∉ p) (t rest : List Char) :
    p.isPrefixOf (t ++ '\n' :: rest) = p.isPrefixOf t := by
  induction p generalizing t with
  | nil => rfl
  | cons c p ih =>
      rw [List.mem_cons, not_or] at hp
      cases t with
      -- the line feed would have to be matched by a character that is none
      | nil =>
          have hne : (c == '\n') = false := beq_false_of_ne (Ne.symm hp.1)
          show (c == '\n' && _) = false
          rw [hne, Bool.false_and]
      | cons d t =>
          show (c == d && p.isPrefixOf (t ++ '\n' :: rest)) = (c == d && p.isPrefixOf t)
          rw [ih hp.2 t]

/-- A text without a line feed is found at the start of a flow if and only if it is found at the
    start of its first row. -/
theorem startsWith_text {start : String} (h : '\n' ∉ start.toList) (width level : Nat)
    (flow : Flow) : startsWith start (flow.text width level) = startsWith start flow.first := by
  obtain ⟨first, below⟩ := flow
  cases below with
  | nil => rw [text, textBelow, String.append_empty]
  | cons row below =>
      obtain ⟨depth, t⟩ := row
      unfold startsWith
      simp only [text, textBelow, String.toList_append, List.append_assoc]
      exact isPrefixOf_lineFeed h _ _

/-- What an operator looks at stands on the first line of its operand. -/
@[simp] theorem text_unary (width level : Nat) (operator : String) (flow : Flow) :
    (flow.unary operator).text width level = unaryText operator (flow.text width level) := by
  unfold unary unaryText
  rw [startsWith_text (by decide), startsWith_text (by decide), apply_ite (text width level),
    apply_ite (text width level)]
  simp only [text_append, text_ofText, text_parens]

/-- What a statement looks at stands on the first line of its expression. -/
@[simp] theorem text_asStatement (width level : Nat) (flow : Flow) :
    flow.asStatement.text width level = statementText (flow.text width level) := by
  unfold asStatement statementText
  rw [startsWith_text (by decide), startsWith_text (by decide)]
  split
  · exact text_parens width level flow
  · rfl

/-- Rows between braces, the closing one on the level of the opening one. -/
@[simp] theorem text_block (width level : Nat) (rows : List Row) :
    (block rows).text width level =
      "\x7b\n" ++ rowsText width (level + 1) rows ++ indent width level ++ "\x7d" := by
  have hclose : textBelow width level [(0, "\x7d")] = "\n" ++ (indent width level ++ "\x7d") := by
    simp only [textBelow, String.append_assoc, String.append_empty, Nat.add_zero]
  calc (block rows).text width level
      = "\x7b" ++ (textBelow width level (deepen rows) ++ "\n") ++
          (indent width level ++ "\x7d") := by
        simp only [block, text, textBelow_append, hclose, String.append_assoc]
    _ = "\x7b" ++ ("\n" ++ rowsText width (level + 1) rows) ++
          (indent width level ++ "\x7d") := by
        rw [textBelow_eq_rowsText, rowsText_deepen]
    _ = ("\x7b" ++ "\n") ++ rowsText width (level + 1) rows ++ indent width level ++ "\x7d" := by
        simp only [String.append_assoc]

/-- Rows that are indented by one more are the rows of the next level. -/
theorem textBelow_deepen (width level : Nat) (rows : List Row) :
    textBelow width level (deepen rows) = textBelow width (level + 1) rows := by
  induction rows with
  | nil => rfl
  | cons row rows ih =>
      obtain ⟨depth, t⟩ := row
      have hlevel : level + (depth + 1) = level + 1 + depth := by omega
      show "\n" ++ indent width (level + (depth + 1)) ++ t ++
        textBelow width level (deepen rows) = _
      rw [ih, hlevel, textBelow]

/-- An indented flow starts on a line of its own, one level deeper. -/
@[simp] theorem text_indented (width level : Nat) (flow : Flow) :
    flow.indented.text width level =
      "\n" ++ indent width (level + 1) ++ flow.text width (level + 1) := by
  simp only [indented, text, textBelow_deepen, rows, textBelow, String.empty_append, String.append_assoc,
    Nat.add_zero]

theorem text_clause (width level : Nat) (s : Stmt) (flow : Flow) :
    (flow.clause s).text width level =
      Script.clause width level s fun level => flow.text width level := by
  cases s with
  | block body => simp only [clause, Script.clause, text_append, text_ofText]
  | empty => exact text_ofText width level ";"
  | _ => exact text_indented width level flow

@[simp] theorem text_elseOf (width level : Nat) (consequent : Stmt) :
    (elseOf consequent).text width level = elseText width level consequent := by
  unfold elseOf elseText
  split
  · exact text_ofText width level " else"
  · simp only [text, textBelow, String.empty_append, String.append_empty, Nat.add_zero]

end Flow

/-! ## §3. The printer writes flows -/

mutual

/-- **The text of an expression is that of its flow**, at every width and level. -/
theorem Expr.text_eq_flow (width : Nat) : ∀ (e : Expr) (level : Nat),
    e.text width level = e.flow.text width level
  | .identifier name, level => (Flow.text_ofText width level name).symm
  | .literal value, level => (Flow.text_ofText width level value.text).symm
  | .call callee arguments, level => by
      simp only [Expr.text, Expr.flow, Flow.text_append, Flow.text_guarded, Flow.text_parens,
        Flow.text_commas, Expr.text_eq_flow width callee level,
        Expr.texts_eq_flows width arguments level]
  | .member object property, level => by
      rw [Expr.text, Expr.flow, Flow.text_append, Flow.text_ofText,
        Expr.text_eq_flow width object level]
      split
      · simp only [Flow.text_parens, String.append_assoc]
      · simp only [Flow.text_guarded, String.append_assoc]
  | .assign operator left right, level => by
      simp only [Expr.text, Expr.flow, Flow.text_append, Flow.text_guarded, Flow.text_ofText,
        Expr.text_eq_flow width left level, Expr.text_eq_flow width right level,
        String.append_assoc]
  | .unary .before operator argument, level => by
      rw [Expr.text, Expr.flow, Flow.text_unary, Flow.text_guarded,
        Expr.text_eq_flow width argument level]
  | .unary .behind operator argument, level => by
      rw [Expr.text, Expr.flow, Flow.text_append, Flow.text_guarded, Flow.text_ofText,
        Expr.text_eq_flow width argument level]
  | .binary operator left right, level => by
      simp only [Expr.text, Expr.flow, Flow.text_append, Flow.text_guarded, Flow.text_ofText,
        Expr.text_eq_flow width left level, Expr.text_eq_flow width right level,
        String.append_assoc]
  | .function parameters body, level => by
      -- the brace ends the line of the head, and the body follows in rows of its own
      have hopen : (" \x7b\n" : String) = " " ++ "\x7b\n" := rfl
      simp only [Expr.text, Expr.flow, Flow.text_append, Flow.text_ofText, Flow.text_block,
        Stmt.lines_eq_rows width body (level + 1), hopen, String.append_assoc]

/-- Arguments are printed flow by flow. -/
theorem Expr.texts_eq_flows (width : Nat) : ∀ (arguments : List Expr) (level : Nat),
    Expr.texts width arguments level = (Expr.flows arguments).map (·.text width level)
  | [], _ => rfl
  | e :: arguments, level => by
      rw [Expr.texts, Expr.flows, List.map_cons, Flow.text_guarded,
        Expr.text_eq_flow width e level, Expr.texts_eq_flows width arguments level]

theorem Expr.declarators_eq_flows (width : Nat) :
    ∀ (declarators : List (String × Option Expr)) (level : Nat),
      Expr.declarators width declarators level =
        (Expr.declaratorFlows declarators).map (·.text width level)
  | [], _ => rfl
  | (name, none) :: more, level => by
      rw [Expr.declarators, Expr.declaratorFlows, List.map_cons, Flow.text_ofText,
        Expr.declarators_eq_flows width more level]
  | (name, some e) :: more, level => by
      rw [Expr.declarators, Expr.declaratorFlows, List.map_cons, Flow.text_append,
        Flow.text_ofText, Flow.text_guarded, Expr.text_eq_flow width e level,
        Expr.declarators_eq_flows width more level]

/-- **The text of a statement is that of its flow**, at every width and level. -/
theorem Stmt.text_eq_flow (width : Nat) : ∀ (s : Stmt) (level : Nat),
    s.text width level = s.flow.text width level
  | .declare word declarators, level => by
      simp only [Stmt.text, Stmt.flow, Flow.text_append, Flow.text_ofText, Flow.text_commas,
        Expr.declarators_eq_flows width declarators level]
  | .expression e, level => by
      rw [Stmt.text, Stmt.flow, Flow.text_append, Flow.text_asStatement, Flow.text_ofText,
        Expr.text_eq_flow width e level]
  | .block body, level => by
      rw [Stmt.text, Stmt.flow, Flow.text_block, Stmt.lines_eq_rows width body (level + 1)]
  | .loop test body, level => by
      have hbody : body.text width = fun level => body.flow.text width level :=
        funext (Stmt.text_eq_flow width body)
      rw [Stmt.text, Stmt.flow, Flow.text_append, Flow.text_append, Flow.text_ofText,
        Flow.text_parens, Flow.text_clause, hbody, Expr.text_eq_flow width test level]
  | .choice test consequent none, level => by
      have hconsequent : consequent.text width = fun level => consequent.flow.text width level :=
        funext (Stmt.text_eq_flow width consequent)
      rw [Stmt.text, Stmt.flow, Flow.text_append, Flow.text_append, Flow.text_ofText,
        Flow.text_parens, Flow.text_clause, hconsequent, Expr.text_eq_flow width test level]
  | .choice test consequent (some alternate), level => by
      have hconsequent : consequent.text width = fun level => consequent.flow.text width level :=
        funext (Stmt.text_eq_flow width consequent)
      have halternate : alternate.text width = fun level => alternate.flow.text width level :=
        funext (Stmt.text_eq_flow width alternate)
      simp only [Stmt.text, Stmt.flow, Flow.text_append, Flow.text_ofText, Flow.text_parens,
        Flow.text_clause, Flow.text_elseOf, hconsequent, halternate,
        Expr.text_eq_flow width test level]
  | .empty, level => (Flow.text_ofText width level ";").symm

/-- **Statements are printed as their rows.** -/
theorem Stmt.lines_eq_rows (width : Nat) : ∀ (body : List Stmt) (level : Nat),
    Stmt.lines width body level = rowsText width level (Stmt.rows body)
  | [], _ => rfl
  | s :: body, level => by
      rw [Stmt.lines, Stmt.rows, rowsText_append, ← Flow.text_rows,
        Stmt.text_eq_flow width s level, Stmt.lines_eq_rows width body level]

end

/-- The rows of statements are those of each in turn. -/
theorem Stmt.rows_append (a b : List Stmt) : Stmt.rows (a ++ b) = Stmt.rows a ++ Stmt.rows b := by
  induction a with
  | nil => rfl
  | cons s a ih => rw [List.cons_append, Stmt.rows, Stmt.rows, ih, List.append_assoc]

/-! ## §4. No row holds a line feed -/

/-- A text without line feeds. -/
def OneLine (text : String) : Prop := '\n' ∉ text.toList

instance (text : String) : Decidable (OneLine text) :=
  inferInstanceAs (Decidable ('\n' ∉ text.toList))

/-- The names and the operator of a part are texts without line feeds. -/
def Part.OneLine : Part → Prop
  | .expression (.identifier x) => Script.OneLine x
  | .expression (.member _ property) => Script.OneLine property
  | .expression (.assign operator _ _) => Script.OneLine operator
  | .expression (.unary _ operator _) => Script.OneLine operator
  | .expression (.binary operator _ _) => Script.OneLine operator
  | .expression (.function parameters _) => ∀ x ∈ parameters, Script.OneLine x
  | .statement (.declare _ declarators) => ∀ d ∈ declarators, Script.OneLine d.1
  | _ => True

/-- Two texts are on one line if each of them is. -/
theorem oneLine_append {a b : String} : OneLine (a ++ b) ↔ OneLine a ∧ OneLine b := by
  unfold OneLine
  rw [String.toList_append, List.mem_append, not_or]

/-- Texts on one line with commas between them are on one line. -/
theorem oneLine_commas : ∀ texts : List String, (∀ text ∈ texts, OneLine text) →
    OneLine (commas texts)
  | [], _ => by decide
  | [text], h => h text List.mem_cons_self
  | text :: next :: more, h => by
      rw [List.forall_mem_cons] at h
      rw [commas, oneLine_append, oneLine_append]
      exact ⟨⟨h.1, by decide⟩, oneLine_commas (next :: more) h.2⟩

theorem lineFeed_notMem_toDigits (n : Nat) : '\n' ∉ Nat.toDigits 10 n := by
  intro h
  exact absurd (Json.isDigit_toDigits n _ h) (by decide)

theorem oneLine_positional (d : Decimal) : OneLine d.positional := by
  have hdigits := lineFeed_notMem_toDigits d.digits
  have hzeros : ∀ n, '\n' ∉ List.replicate n '0' := by
    intro n h
    exact absurd (List.eq_of_mem_replicate h) (by decide)
  unfold Decimal.positional
  dsimp only
  -- the point comes behind the digits, between them or in front of them
  split
  · unfold OneLine
    rw [String.toList_ofList, List.mem_append, not_or]
    exact ⟨hdigits, hzeros _⟩
  · split
    · rw [oneLine_append, oneLine_append]
      refine ⟨⟨?_, by decide⟩, ?_⟩
      · unfold OneLine
        rw [String.toList_ofList]
        exact fun h => hdigits (List.mem_of_mem_take h)
      · unfold OneLine
        rw [String.toList_ofList]
        exact fun h => hdigits (List.mem_of_mem_drop h)
    · rw [oneLine_append]
      refine ⟨by decide, ?_⟩
      unfold OneLine
      rw [String.toList_ofList, List.mem_append, not_or]
      exact ⟨hzeros _, hdigits⟩

/-- A number is written on one line. -/
theorem oneLine_number (x : Binary64) : OneLine (numberText x) := by
  have hsign : OneLine (if x.isNegative then "-" else "") := by
    split <;> decide
  unfold numberText
  split
  · decide
  · dsimp only
    split
    · exact oneLine_append.2 ⟨hsign, oneLine_positional _⟩
    · exact oneLine_append.2 ⟨hsign, by decide⟩

/-- Whatever a literal holds, it stands on one line. -/
theorem Literal.oneLine : ∀ value : Literal, OneLine value.text
  | .null => by decide
  | .bool true => by decide
  | .bool false => by decide
  | .integer n => by
      show '\n' ∉ n.repr.toList
      rw [Json.toList_repr]
      unfold Json.integerChars
      split
      · rw [List.mem_append, not_or]
        exact ⟨by decide, lineFeed_notMem_toDigits _⟩
      · exact lineFeed_notMem_toDigits _
  | .number x => oneLine_number x
  -- a line feed in a string is escaped
  | .string s => fun h => absurd (standsRaw_quote s '\n' h) (by decide)

namespace Flow

/-- No row of a flow holds a line feed. -/
def Unbroken (flow : Flow) : Prop := OneLine flow.first ∧ ∀ row ∈ flow.below, OneLine row.2

theorem unbroken_ofText {t : String} (h : OneLine t) : (ofText t).Unbroken :=
  ⟨h, fun _ hrow => absurd hrow List.not_mem_nil⟩

/-- Two unbroken flows make an unbroken one: the last row of the first goes on as the first of the
    second. -/
theorem Unbroken.append {a b : Flow} (ha : a.Unbroken) (hb : b.Unbroken) : (a ++ b).Unbroken := by
  obtain ⟨first, below⟩ := a
  obtain ⟨hfirst, hbelow⟩ := ha
  -- the induction is on the lines of the first part, the last of which is joined with the second
  show (b.behind first below).Unbroken
  induction below generalizing first with
  | nil => exact ⟨oneLine_append.2 ⟨hfirst, hb.1⟩, hb.2⟩
  | cons row below ih =>
      obtain ⟨depth, t⟩ := row
      rw [List.forall_mem_cons] at hbelow
      obtain ⟨hlast, hrest⟩ := ih t hbelow.1 hbelow.2
      refine ⟨hfirst, ?_⟩
      show ∀ row ∈ (depth, (b.behind t below).first) :: (b.behind t below).below, OneLine row.2
      rw [List.forall_mem_cons]
      exact ⟨hlast, hrest⟩

theorem Unbroken.parens {flow : Flow} (h : flow.Unbroken) : flow.parens.Unbroken :=
  ((unbroken_ofText (by decide)).append h).append (unbroken_ofText (by decide))

/-- Parentheses break no line. -/
theorem Unbroken.guarded {flow : Flow} (h : flow.Unbroken) (least : Nat) (e : Expr) :
    (flow.guarded least e).Unbroken := by
  unfold Flow.guarded
  split
  · exact h.parens
  · exact h

theorem unbroken_commas : ∀ flows : List Flow, (∀ flow ∈ flows, flow.Unbroken) →
    (commas flows).Unbroken
  | [], _ => unbroken_ofText (by decide)
  | [flow], h => h flow List.mem_cons_self
  | flow :: next :: more, h => by
      rw [List.forall_mem_cons] at h
      exact (h.1.append (unbroken_ofText (by decide))).append (unbroken_commas (next :: more) h.2)

theorem Unbroken.unary {flow : Flow} (h : flow.Unbroken) {operator : String}
    (ho : OneLine operator) : (flow.unary operator).Unbroken := by
  unfold Flow.unary
  split
  · exact (unbroken_ofText ho).append h.parens
  · split
    · exact (unbroken_ofText (oneLine_append.2 ⟨ho, by decide⟩)).append h
    · exact (unbroken_ofText ho).append h

theorem Unbroken.asStatement {flow : Flow} (h : flow.Unbroken) : flow.asStatement.Unbroken := by
  unfold Flow.asStatement
  split
  · exact h.parens
  · exact h

theorem oneLine_deepen {rows : List Row} (h : ∀ row ∈ rows, OneLine row.2) :
    ∀ row ∈ deepen rows, OneLine row.2 := by
  intro row hrow
  obtain ⟨shallow, hmem, rfl⟩ := List.mem_map.1 hrow
  exact h shallow hmem

/-- A block is unbroken if its rows are single lines. -/
theorem unbroken_block {rows : List Row} (h : ∀ row ∈ rows, OneLine row.2) :
    (block rows).Unbroken := by
  have hopen : OneLine "\x7b" := by decide
  refine ⟨hopen, ?_⟩
  intro row hrow
  rcases List.mem_append.1 hrow with hinside | hlast
  · exact oneLine_deepen h row hinside
  · obtain rfl := List.mem_singleton.1 hlast
    decide

/-- All rows of an unbroken flow are single lines. -/
theorem Unbroken.rows {flow : Flow} (h : flow.Unbroken) : ∀ row ∈ flow.rows, OneLine row.2 :=
  List.forall_mem_cons.2 h

theorem Unbroken.clause {flow : Flow} (h : flow.Unbroken) (s : Stmt) :
    (flow.clause s).Unbroken := by
  cases s with
  | block body => exact (unbroken_ofText (by decide)).append h
  | empty => exact unbroken_ofText (by decide)
  | _ => exact ⟨show OneLine "" by decide, oneLine_deepen h.rows⟩

theorem unbroken_elseOf (consequent : Stmt) : (elseOf consequent).Unbroken := by
  unfold elseOf
  split
  · exact unbroken_ofText (by decide)
  · exact ⟨by decide, by decide⟩

end Flow

theorem Binding.oneLine (word : Binding) : OneLine word.spelling := by
  cases word <;> decide

/-- An operator with blanks around it. -/
theorem oneLine_spaced {operator : String} (h : OneLine operator) :
    OneLine (" " ++ operator ++ " ") := by
  rw [oneLine_append, oneLine_append]
  exact ⟨⟨by decide, h⟩, by decide⟩

mutual

/-- The rows of an expression hold no line feed if its names and operators hold none. -/
theorem Expr.unbroken : ∀ e : Expr, e.Everywhere Part.OneLine → e.flow.Unbroken
  | .identifier _, h => Flow.unbroken_ofText (Expr.everywhere_identifier.1 h)
  | .literal value, _ => Flow.unbroken_ofText value.oneLine
  | .call callee arguments, h => by
      obtain ⟨-, hcallee, harguments⟩ := Expr.everywhere_call.1 h
      exact ((Expr.unbroken callee hcallee).guarded _ _).append
        (Flow.unbroken_commas _ (Expr.unbroken_flows arguments harguments)).parens
  | .member object property, h => by
      obtain ⟨hproperty, hobject⟩ := Expr.everywhere_member.1 h
      have ih := Expr.unbroken object hobject
      rw [Expr.flow]
      refine Flow.Unbroken.append ?_ (Flow.unbroken_ofText ?_)
      · split
        · exact ih.parens
        · exact ih.guarded _ _
      · exact oneLine_append.2 ⟨by decide, hproperty⟩
  | .assign _ left right, h => by
      obtain ⟨hoperator, hleft, hright⟩ := Expr.everywhere_assign.1 h
      exact (((Expr.unbroken left hleft).guarded _ _).append
        (Flow.unbroken_ofText (oneLine_spaced hoperator))).append
          ((Expr.unbroken right hright).guarded _ _)
  | .unary .before _ argument, h => by
      obtain ⟨hoperator, hargument⟩ := Expr.everywhere_unary.1 h
      exact ((Expr.unbroken argument hargument).guarded _ _).unary hoperator
  | .unary .behind _ argument, h => by
      obtain ⟨hoperator, hargument⟩ := Expr.everywhere_unary.1 h
      exact ((Expr.unbroken argument hargument).guarded _ _).append
        (Flow.unbroken_ofText hoperator)
  | .binary _ left right, h => by
      obtain ⟨hoperator, hleft, hright⟩ := Expr.everywhere_binary.1 h
      exact (((Expr.unbroken left hleft).guarded _ _).append
        (Flow.unbroken_ofText (oneLine_spaced hoperator))).append
          ((Expr.unbroken right hright).guarded _ _)
  | .function parameters body, h => by
      obtain ⟨hparameters, hbody⟩ := Expr.everywhere_function.1 h
      -- only the body of a function has lines of its own
      have hhead : OneLine ("function " ++ parens (commas parameters) ++ " ") := by
        simp only [parens, oneLine_append]
        exact ⟨⟨by decide, ⟨by decide, oneLine_commas parameters hparameters⟩, by decide⟩, by decide⟩
      exact (Flow.unbroken_ofText hhead).append (Flow.unbroken_block (Stmt.oneLine_rows body hbody))

/-- Arguments are unbroken if all parts of them are on one line. -/
theorem Expr.unbroken_flows : ∀ arguments : List Expr,
    (∀ e ∈ arguments, e.Everywhere Part.OneLine) → ∀ flow ∈ Expr.flows arguments, flow.Unbroken
  | [], _ => fun _ hflow => absurd hflow List.not_mem_nil
  | e :: arguments, h => by
      rw [List.forall_mem_cons] at h
      rw [Expr.flows, List.forall_mem_cons]
      exact ⟨(Expr.unbroken e h.1).guarded _ _, Expr.unbroken_flows arguments h.2⟩

theorem Expr.unbroken_declaratorFlows : ∀ declarators : List (String × Option Expr),
    (∀ d ∈ declarators, OneLine d.1) → (∀ d ∈ declarators, ∀ e ∈ d.2, e.Everywhere Part.OneLine) →
      ∀ flow ∈ Expr.declaratorFlows declarators, flow.Unbroken
  | [], _, _ => fun _ hflow => absurd hflow List.not_mem_nil
  | (name, none) :: more, hnames, h => by
      rw [List.forall_mem_cons] at hnames h
      rw [Expr.declaratorFlows, List.forall_mem_cons]
      exact ⟨Flow.unbroken_ofText hnames.1, Expr.unbroken_declaratorFlows more hnames.2 h.2⟩
  | (name, some e) :: more, hnames, h => by
      rw [List.forall_mem_cons] at hnames h
      have hname : OneLine (name ++ " = ") := oneLine_append.2 ⟨hnames.1, by decide⟩
      rw [Expr.declaratorFlows, List.forall_mem_cons]
      exact ⟨(Flow.unbroken_ofText hname).append ((Expr.unbroken e (h.1 e rfl)).guarded _ _),
        Expr.unbroken_declaratorFlows more hnames.2 h.2⟩

/-- **A row is a line**: nothing that a statement is made of breaks one. -/
theorem Stmt.unbroken : ∀ s : Stmt, s.Everywhere Part.OneLine → s.flow.Unbroken
  | .declare word declarators, h => by
      obtain ⟨hnames, hdeclarators⟩ := Stmt.everywhere_declare.1 h
      have hword : OneLine (word.spelling ++ " ") := oneLine_append.2 ⟨word.oneLine, by decide⟩
      exact ((Flow.unbroken_ofText hword).append (Flow.unbroken_commas _
        (Expr.unbroken_declaratorFlows declarators hnames hdeclarators))).append
          (Flow.unbroken_ofText (by decide))
  | .expression e, h => by
      obtain ⟨-, he⟩ := Stmt.everywhere_expression.1 h
      exact (Expr.unbroken e he).asStatement.append (Flow.unbroken_ofText (by decide))
  | .block body, h => by
      obtain ⟨-, hbody⟩ := Stmt.everywhere_block.1 h
      exact Flow.unbroken_block (Stmt.oneLine_rows body hbody)
  | .loop test body, h => by
      obtain ⟨-, htest, hbody⟩ := Stmt.everywhere_loop.1 h
      exact ((Flow.unbroken_ofText (by decide)).append (Expr.unbroken test htest).parens).append
        ((Stmt.unbroken body hbody).clause _)
  | .choice test consequent none, h => by
      obtain ⟨-, htest, hconsequent⟩ := Stmt.everywhere_choice_none.1 h
      exact ((Flow.unbroken_ofText (by decide)).append (Expr.unbroken test htest).parens).append
        ((Stmt.unbroken consequent hconsequent).clause _)
  | .choice test consequent (some alternate), h => by
      obtain ⟨-, htest, hconsequent, halternate⟩ := Stmt.everywhere_choice.1 h
      exact ((((Flow.unbroken_ofText (by decide)).append (Expr.unbroken test htest).parens).append
        ((Stmt.unbroken consequent hconsequent).clause _)).append
          (Flow.unbroken_elseOf consequent)).append ((Stmt.unbroken alternate halternate).clause _)
  | .empty, _ => Flow.unbroken_ofText (by decide)

/-- The rows of statements are single lines. -/
theorem Stmt.oneLine_rows : ∀ body : List Stmt, (∀ s ∈ body, s.Everywhere Part.OneLine) →
    ∀ row ∈ Stmt.rows body, OneLine row.2
  | [], _ => fun _ hrow => absurd hrow List.not_mem_nil
  | s :: body, h => by
      rw [List.forall_mem_cons] at h
      rw [Stmt.rows, List.forall_mem_append]
      exact ⟨(Stmt.unbroken s h.1).rows, Stmt.oneLine_rows body h.2⟩

end

/-! ## §5. The rows are those of the text -/

/-- Two texts agree up to their first line feeds and behind them. -/
theorem lineFeed_inj {a b : List Char} (ha : '\n' ∉ a) (hb : '\n' ∉ b) {x y : List Char}
    (h : a ++ '\n' :: x = b ++ '\n' :: y) : a = b ∧ x = y := by
  induction a generalizing b with
  -- both lines end at the first line feed
  | nil =>
      cases b with
      | nil => exact ⟨rfl, (List.cons.inj h).2⟩
      | cons c b => exact absurd ((List.cons.inj h).1 ▸ List.mem_cons_self) hb
  | cons c a ih =>
      rw [List.mem_cons, not_or] at ha
      cases b with
      | nil => exact absurd (List.cons.inj h).1.symm ha.1
      | cons d b =>
          rw [List.mem_cons, not_or] at hb
          obtain ⟨rfl, htail⟩ := List.cons.inj h
          obtain ⟨rfl, rfl⟩ := ih ha.2 hb.2 htail
          exact ⟨rfl, rfl⟩

/-- A row with its indentation. -/
def Row.indented (width : Nat) (row : Row) : List Char :=
  List.replicate (row.1 * width) ' ' ++ row.2.toList

/-- Indentation breaks no line. -/
theorem Row.lineFeed_notMem_indented {row : Row} (h : OneLine row.2) (width : Nat) :
    '\n' ∉ row.indented width := by
  intro hmem
  rcases List.mem_append.1 hmem with hblank | htext
  · exact absurd (List.eq_of_mem_replicate hblank) (by decide)
  · exact h htext

/-- A row is known by what it looks like at every width: without indentation it shows its text, and
    at width one its depth. -/
theorem Row.eq_of_indented {a b : Row} (h : ∀ width, a.indented width = b.indented width) :
    a = b := by
  -- without indentation only the text is left
  have htext : a.2 = b.2 := by
    have hzero := h 0
    unfold Row.indented at hzero
    rw [Nat.mul_zero, Nat.mul_zero] at hzero
    exact String.toList_inj.1 hzero
  -- with one blank for each level the depth is the difference in length
  have hdepth : a.1 = b.1 := by
    have hlength := congrArg List.length (h 1)
    unfold Row.indented at hlength
    rw [htext, List.length_append, List.length_append, List.length_replicate,
      List.length_replicate] at hlength
    omega
  exact Prod.ext hdepth htext

theorem toList_rowsText_cons (width : Nat) (row : Row) (rows : List Row) :
    (rowsText width 0 (row :: rows)).toList =
      row.indented width ++ '\n' :: (rowsText width 0 rows).toList := by
  obtain ⟨depth, text⟩ := row
  have hfeed : "\n".toList = ['\n'] := rfl
  simp only [rowsText, indent, Row.indented, String.toList_append, String.toList_ofList,
    Nat.zero_add, hfeed, List.append_assoc, List.singleton_append]

theorem rowsText_cons_ne (width : Nat) (row : Row) (rows : List Row) :
    rowsText width 0 (row :: rows) ≠ "" := by
  intro h
  have htext := congrArg String.toList h
  rw [toList_rowsText_cons] at htext
  exact absurd htext (by simp)

/-- **Texts at all widths have one list of rows.** -/
theorem rows_unique {a b : List Row} (ha : ∀ row ∈ a, OneLine row.2)
    (hb : ∀ row ∈ b, OneLine row.2) (h : ∀ width, rowsText width 0 a = rowsText width 0 b) :
    a = b := by
  induction a generalizing b with
  | nil =>
      cases b with
      | nil => rfl
      | cons other b => exact absurd (h 0).symm (rowsText_cons_ne 0 other b)
  | cons row a ih =>
      cases b with
      | nil => exact absurd (h 0) (rowsText_cons_ne 0 row a)
      | cons other b =>
          rw [List.forall_mem_cons] at ha hb
          -- up to the first line feed stands the first row, and behind it the others
          have hsplit : ∀ width, row.indented width = other.indented width ∧
              (rowsText width 0 a).toList = (rowsText width 0 b).toList := by
            intro width
            have htext := congrArg String.toList (h width)
            rw [toList_rowsText_cons, toList_rowsText_cons] at htext
            exact lineFeed_inj (Row.lineFeed_notMem_indented ha.1 width)
              (Row.lineFeed_notMem_indented hb.1 width) htext
          have hfirst : row = other := Row.eq_of_indented fun width => (hsplit width).1
          have hrest : a = b := ih ha.2 hb.2 fun width => String.toList_inj.1 (hsplit width).2
          rw [hfirst, hrest]

/-- **PRINTING GOES ROW BY ROW**: a script whose names and operators hold no line feed has one list
    of rows without line feeds that gives its text at every width; the rows of two scripts in a row
    are those of the first and then those of the second; and the rows of a block are those of its
    statements, one level deeper, between two braces. -/
theorem print_by_rows :
    (∀ script : List Stmt, (∀ s ∈ script, s.Everywhere Part.OneLine) →
      (∀ row ∈ Stmt.rows script, OneLine row.2) ∧
      (∀ width, print width script = rowsText width 0 (Stmt.rows script)) ∧
      ∀ rows : List Row, (∀ row ∈ rows, OneLine row.2) →
        (∀ width, print width script = rowsText width 0 rows) → rows = Stmt.rows script) ∧
    (∀ a b : List Stmt, Stmt.rows (a ++ b) = Stmt.rows a ++ Stmt.rows b) ∧
    ∀ body : List Stmt,
      Stmt.rows [.block body] = (0, "\x7b") :: deepen (Stmt.rows body) ++ [(0, "\x7d")] := by
  refine ⟨?_, Stmt.rows_append, ?_⟩
  · intro script hscript
    have hrows := Stmt.oneLine_rows script hscript
    refine ⟨hrows, fun width => Stmt.lines_eq_rows width script 0, ?_⟩
    intro rows hone hprint
    -- rows that give the same text at every width are the same
    apply rows_unique hone hrows
    intro width
    rw [← hprint width]
    exact Stmt.lines_eq_rows width script 0
  · intro body
    show (Flow.block (Stmt.rows body)).rows ++ [] = _
    rw [List.append_nil]
    rfl

/-- A function that is handed over: its body is deeper than the call, and so is a clause in it. -/
theorem print_by_rows_callback : ∃ script : List Stmt,
    script = [.expression (.call (.identifier "wait")
      [.function ["x"] [.choice (.identifier "x") (.expression (.identifier "y")) none]])] ∧
    (∀ s ∈ script, s.Everywhere Part.OneLine) ∧
    ∀ width, print width script = rowsText width 0
      [(0, "wait(function (x) \x7b"), (1, "if (x)"), (2, "y;"), (0, "\x7d);")] := by
  refine ⟨_, rfl, ?_⟩
  have hnames : ∀ s ∈ [Stmt.expression (.call (.identifier "wait")
      [.function ["x"] [.choice (.identifier "x") (.expression (.identifier "y")) none]])],
      s.Everywhere Part.OneLine := by
    intro s hs p hp
    obtain rfl := List.mem_singleton.1 hs
    simp only [Stmt.parts, Expr.parts, Expr.partsOfAll, Stmt.partsOfAll, List.mem_cons,
      List.mem_append, List.not_mem_nil, or_false] at hp
    rcases hp with rfl | rfl | rfl | rfl | rfl | rfl | rfl | rfl <;> simp [Part.OneLine, OneLine]
  exact ⟨hnames, (print_by_rows.1 _ hnames).2.1⟩

end TinyLang.Script
