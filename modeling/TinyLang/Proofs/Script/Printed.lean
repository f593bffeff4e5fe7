/-
  TinyLang.Proofs.Script.Printed — printed scripts are read back.

  A script is PLAIN when its names are words that are not reserved, its operators are those
  of the grammar, and no `else` could be taken away from the choice it belongs to.  Printing
  then puts parentheses and blanks just where the grammar needs them:

      Reads (print width script) script                for every plain script

  Where an `else` can be taken away the text is read as another script, the one with its
  alternates settled, and nothing else is lost:

      Reads (print width script) (settledAll script)   for every formed script

  An expression printed at a place derives on the level that the place asks for, so the
  strengths of the printer and the levels of the grammar are two counts of one order
  (`levelOfStrength`).
-/

import TinyLang.Proofs.Script.Alternates
import TinyLang.Proofs.Script.Unambiguous
import TinyLang.Script.Printer

namespace TinyLang.Script

open Grammar
open Naming (isIdentifier isIdentifierStart isIdentifierChar)

/-! ## §1. Plain scripts -/

/-- A name that a variable may have. -/
def IsName (name : String) : Prop := isIdentifier name = true ∧ name ∉ reservedWords

instance (name : String) : Decidable (IsName name) := inferInstanceAs (Decidable (_ ∧ _))

/-- A literal that is one token. -/
def Literal.Plain : Literal → Prop
  | .integer n => 0 ≤ n
  | .bool _ | .string _ => True
  | _ => False

mutual

/-- An expression of the grammar. -/
def Expr.Plain : Expr → Prop
  | .identifier name => IsName name
  | .literal value => value.Plain
  | .call callee arguments => callee.Plain ∧ Expr.PlainAll arguments
  | .member object property => object.Plain ∧ isIdentifier property = true
  | .assign operator left right =>
    operator = "=" ∧ isTarget left = true ∧ left.Plain ∧ right.Plain
  | .unary side operator argument => side = .before ∧ operator ∈ signs ∧ argument.Plain
  | .binary operator left right => (∃ k, operator ∈ operatorsOf k) ∧ left.Plain ∧ right.Plain
  | .function _ _ => False

/-- Expressions of the grammar. -/
def Expr.PlainAll : List Expr → Prop
  | [] => True
  | e :: es => e.Plain ∧ Expr.PlainAll es

end

/-- A variable and its first value, if it has one. -/
def PlainDeclarator (d : String × Option Expr) : Prop := IsName d.1 ∧ ∀ e ∈ d.2, e.Plain

mutual

/-- A statement made of what the grammar has, whether or not its alternates can be told from the
    text. -/
def Stmt.Formed : Stmt → Prop
  | .declare word declarators =>
    word = .varWord ∧ declarators ≠ [] ∧ ∀ d ∈ declarators, PlainDeclarator d
  | .expression e => e.Plain
  | .block body => Stmt.FormedAll body
  | .loop test body => test.Plain ∧ body.Formed
  | .choice test consequent none => test.Plain ∧ consequent.Formed
  | .choice test consequent (some alternate) =>
    test.Plain ∧ consequent.Formed ∧ alternate.Formed
  | .empty => True

/-- Statements made of what the grammar has. -/
def Stmt.FormedAll : List Stmt → Prop
  | [] => True
  | s :: body => s.Formed ∧ Stmt.FormedAll body

end

/-- A statement of the grammar: it is formed, and its alternates can be told from the text. -/
def Stmt.Plain (s : Stmt) : Prop := s.Formed ∧ s.isSteady = true

/-- Statements of the grammar. -/
def Stmt.PlainAll (body : List Stmt) : Prop := Stmt.FormedAll body ∧ Stmt.areSteady body = true

/-- Statements are plain if each of them is. -/
theorem Stmt.plainAll_iff (body : List Stmt) : Stmt.PlainAll body ↔ ∀ s ∈ body, s.Plain := by
  induction body with
  | nil => simp [Stmt.PlainAll, Stmt.FormedAll, Stmt.areSteady]
  | cons s body ih =>
      rw [List.forall_mem_cons, ← ih]
      simp only [Stmt.PlainAll, Stmt.Plain, Stmt.FormedAll, Stmt.areSteady, Bool.and_eq_true]
      exact and_and_and_comm

/-! ## §2. Texts and their tokens -/

/-- A text stands for tokens in front of everything that may follow it. -/
def Spells (Follow : List Char → Prop) (text : List Char) (ts : List Token) : Prop :=
  ∀ rest us, Follow rest → Tokenized rest us → Tokenized (text ++ rest) (ts ++ us)

/-- Anything may follow. -/
def Anything : List Char → Prop := fun _ => True

/-- Texts in a row spell their tokens in a row, if the second starts with what may follow the first.
    -/
theorem Spells.append {F G : List Char → Prop} {a b : List Char} {us vs : List Token}
    (ha : Spells F a us) (hb : Spells G b vs) (h : ∀ rest, G rest → F (b ++ rest)) :
    Spells G (a ++ b) (us ++ vs) := by
  intro rest ws hrest hws
  rw [List.append_assoc, List.append_assoc]
  exact ha _ _ (h rest hrest) (hb rest ws hrest hws)

theorem Spells.weaken {F G : List Char → Prop} {text : List Char} {ts : List Token}
    (h : Spells F text ts) (hfg : ∀ rest, G rest → F rest) : Spells G text ts :=
  fun rest us hrest hus => h rest us (hfg rest hrest) hus

theorem spells_token {F : List Char → Prop} {text : List Char} {t : Token}
    (h : ∀ rest, F rest → token? (text ++ rest) = some (t, rest)) : Spells F text [t] :=
  fun rest _ hrest hus => .token (h rest hrest) hus

/-- Blanks and line ends spell no token. -/
theorem spells_layout {text : List Char} (h : text.all isLayout = true) :
    Spells Anything text [] := by
  intro rest us _ hus
  induction text with
  | nil => exact hus
  | cons c text ih =>
      rw [List.all_cons, Bool.and_eq_true] at h
      exact .layout h.1 (ih h.2)

/-- A word spells itself in front of what does not go on with it. -/
theorem spells_word {name : String} (h : isIdentifier name = true) :
    Spells (Breaks true) name.toList [.word name] :=
  spells_token fun _ hrest => token?_word h hrest.head

theorem spells_bracket {m : String} (h : m ∈ brackets) : Spells Anything m.toList [.mark m] :=
  spells_token fun rest _ => token?_bracket h rest

theorem spells_blank : Spells Anything " ".toList [] := spells_layout rfl

/-- An operator between blanks. -/
theorem spells_spaced {op : String} (h : op ∈ spacedMarks) :
    Spells Anything (" " ++ op ++ " ").toList [.mark op] := by
  intro rest us _ hus
  rw [String.toList_append, String.toList_append, List.append_assoc, List.append_assoc]
  refine .layout rfl (.token (token?_spaced h rest) ?_)
  exact .layout rfl hus

theorem breaks_spaced (op : String) (rest : List Char) :
    Breaks false ((" " ++ op ++ " ").toList ++ rest) := by
  rw [String.toList_append, String.toList_append]
  rfl

/-- Two texts around an operator between blanks. -/
theorem spells_operation {F : List Char → Prop} {point : Bool} {op a b : String}
    {us vs : List Token} (hop : op ∈ spacedMarks) (ha : Spells (Breaks point) a.toList us)
    (hb : Spells F b.toList vs) :
    Spells F (a ++ " " ++ op ++ " " ++ b).toList (us ++ .mark op :: vs) := by
  have hmiddle := (spells_spaced hop).append hb fun _ _ => trivial
  have hall := ha.append hmiddle fun rest _ => by
    rw [List.append_assoc]
    exact (breaks_spaced op _).weaken point
  rw [← String.toList_append, ← String.toList_append] at hall
  simp only [String.append_assoc] at hall ⊢
  exact hall

/-- An indentation spells no token, at any width and level. -/
theorem spells_indent (width level : Nat) : Spells Anything (indent width level).toList [] := by
  refine spells_layout ?_
  rw [indent, String.toList_ofList, List.all_replicate]
  simp [isLayout]

/-- A new line and its indentation. -/
theorem spells_newLine (width level : Nat) :
    Spells Anything ("\n" ++ indent width level).toList [] := by
  have hline : Spells Anything "\n".toList [] := spells_layout rfl
  rw [String.toList_append]
  exact hline.append (spells_indent width level) fun _ _ => trivial

theorem toList_parens (text : String) : (parens text).toList = '(' :: (text ++ ")").toList := by
  rw [parens, String.append_assoc, String.toList_append]
  rfl

/-- Parentheses around a text are tokens around its tokens. -/
theorem spells_parens {point : Bool} {text : String} {ts : List Token}
    (h : Spells (Breaks point) text.toList ts) :
    Spells Anything (parens text).toList (.mark "(" :: ts ++ [.mark ")"]) := by
  have hopen : Spells Anything "(".toList [.mark "("] := spells_bracket (by decide)
  have hclose : Spells Anything ")".toList [.mark ")"] := spells_bracket (by decide)
  have hinside := h.append hclose fun rest _ => by cases point <;> rfl
  rw [parens, String.toList_append, String.toList_append, List.append_assoc]
  exact hopen.append hinside fun _ _ => trivial

/-! ## §3. Strengths and levels -/

/-- The greatest strength of each level but the tightest. -/
def greatestStrengths : List Nat := [3, 4, 5, 9, 10, 12, 13, 15, 18]

/-- The level of the grammar that a place with a least strength asks for. -/
def levelOfStrength (strength : Nat) : Nat := greatestStrengths.countP (· < strength)

/-- What is printed as stronger is derived as tighter. -/
theorem levelOfStrength_mono {a b : Nat} (h : a ≤ b) : levelOfStrength a ≤ levelOfStrength b := by
  refine List.countP_mono_left fun x _ hx => ?_
  rw [decide_eq_true_eq] at hx ⊢
  omega

theorem levelOfStrength_le (a : Nat) : levelOfStrength a ≤ 9 := List.countP_le_length

/-- A binary operator of the grammar, as the printer sees it. -/
theorem binary_strengths {k : Nat} {op : String} (h : op ∈ operatorsOf k) :
    ∃ strength, binaryStrength? op = some strength ∧ operandStrengths op = (strength, strength + 1) ∧
      levelOfStrength strength = k ∧ levelOfStrength (strength + 1) = k + 1 ∧ op ∈ spacedMarks := by
  unfold operatorsOf at h
  split at h <;> simp only [List.mem_cons, List.not_mem_nil, or_false] at h
  next => subst h; exact ⟨4, rfl, rfl, rfl, rfl, by decide⟩
  next => subst h; exact ⟨5, rfl, rfl, rfl, rfl, by decide⟩
  next => rcases h with rfl | rfl <;> exact ⟨9, rfl, rfl, rfl, rfl, by decide⟩
  next => rcases h with rfl | rfl | rfl | rfl <;> exact ⟨10, rfl, rfl, rfl, rfl, by decide⟩
  next => rcases h with rfl | rfl <;> exact ⟨12, rfl, rfl, rfl, rfl, by decide⟩
  next => rcases h with rfl | rfl | rfl <;> exact ⟨13, rfl, rfl, rfl, rfl, by decide⟩

/-- Whether the text of an expression ends in a token that a point does not lengthen. -/
def Expr.endsTight : Expr → Bool
  | .identifier _ | .call _ _ | .member _ _ => true
  | .literal value => !value.isNumeric
  | _ => false

/-- An expression is printed as tokens that derive it on the level of its strength. -/
def Expr.Printed (e : Expr) (text : String) : Prop :=
  ∃ ts, Spells (Breaks e.endsTight) text.toList ts ∧ Phrase (levelOfStrength e.strength) ts e

/-- A text that stands for an expression at a place of a level, in front of what breaks tokens. -/
def Fits (point : Bool) (k : Nat) (e : Expr) (text : String) : Prop :=
  ∃ ts, Spells (Breaks point) text.toList ts ∧ Phrase k ts e

/-- An expression fits where its level is tight enough. -/
theorem Expr.Printed.fits {e : Expr} {text : String} {k : Nat} (h : e.Printed text)
    (hk : k ≤ levelOfStrength e.strength) : Fits false k e text := by
  obtain ⟨ts, hs, hp⟩ := h
  exact ⟨ts, hs.weaken fun rest hrest => hrest.weaken _, hp.mono hk (levelOfStrength_le _)⟩

/-- Parentheses make an expression fit everywhere. -/
theorem fits_parens {e : Expr} {text : String} (h : Fits false 0 e text) (point : Bool) (k : Nat)
    (hk : k ≤ 9) : Fits point k e (parens text) := by
  obtain ⟨ts, hs, hp⟩ := h
  exact ⟨_, (spells_parens hs).weaken fun _ _ => trivial, (Phrase.parens hp).mono hk (by omega)⟩

/-- **Parentheses where an expression is too weak for its place, and nowhere else.** -/
theorem guarded_fits {e : Expr} {text : String} (h : e.Printed text) (least : Nat) :
    Fits false (levelOfStrength least) e (guarded least e text) := by
  unfold guarded
  split
  next => exact fits_parens (h.fits (Nat.zero_le _)) false _ (levelOfStrength_le _)
  next hle => exact h.fits (levelOfStrength_mono (by omega))

/-! ## §4. Expressions -/

/-- What the text of an expression can start with. -/
def StartsText (text : String) : Prop :=
  ∃ c cs, text.toList = c :: cs ∧
    (isIdentifierStart c = true ∨ c.isDigit = true ∨ c ∈ ['(', '"', '!', '-'])

theorem StartsText.append {a : String} (h : StartsText a) (b : String) : StartsText (a ++ b) := by
  obtain ⟨c, cs, ha, hc⟩ := h
  refine ⟨c, cs ++ b.toList, ?_, hc⟩
  rw [String.toList_append, ha, List.cons_append]

theorem startsText_parens (text : String) : StartsText (parens text) := by
  exact ⟨'(', (text ++ ")").toList, toList_parens text, .inr (.inr (by simp))⟩

/-- Parentheses or not, what is printed starts like an expression. -/
theorem startsText_guarded {e : Expr} {text : String} (h : StartsText text) (least : Nat) :
    StartsText (guarded least e text) := by
  unfold guarded
  split
  · exact startsText_parens text
  · exact h

theorem startsText_name {name : String} (h : isIdentifier name = true) : StartsText name := by
  obtain ⟨c, cs, hname, hstart, -⟩ := Naming.isIdentifier_iff.1 h
  exact ⟨c, cs, hname, .inl hstart⟩

theorem startsText_sign {op : String} (hop : op ∈ signs) (text : String) :
    StartsText (op ++ text) := by
  simp only [signs, List.mem_cons, List.not_mem_nil, or_false] at hop
  rcases hop with rfl | rfl
  · exact ⟨'!', text.toList, by rw [String.toList_append]; rfl, .inr (.inr (by simp))⟩
  · exact ⟨'-', text.toList, by rw [String.toList_append]; rfl, .inr (.inr (by simp))⟩

/-- Nothing that is printed starts with an equals sign, which would join the sign in front of it. -/
theorem StartsText.ne_equal {text : String} (h : StartsText text) :
    ∃ c cs, text.toList = c :: cs ∧ c ≠ '=' := by
  obtain ⟨c, cs, htext, hc⟩ := h
  refine ⟨c, cs, htext, ?_⟩
  rintro rfl
  rcases hc with hc | hc | hc <;> exact absurd hc (by decide)

/-- A literal is one token. -/
theorem literal_printed {value : Literal} (h : value.Plain) :
    (Expr.literal value).Printed value.text ∧ StartsText value.text := by
  cases value with
  | null => exact h.elim
  | number x => exact h.elim
  | bool b =>
      cases b with
      | true => exact ⟨⟨_, spells_word (by decide), .true⟩, startsText_name (by decide)⟩
      | false => exact ⟨⟨_, spells_word (by decide), .false⟩, startsText_name (by decide)⟩
  | string s =>
      refine ⟨⟨[.string s], spells_token fun rest _ => token?_quote s rest, .string⟩, ?_⟩
      refine ⟨'"', s.toList.flatMap escapeChar ++ ['"'], ?_, .inr (.inr (by simp))⟩
      show (quote s).toList = _
      rw [quote, String.toList_ofList]
      rfl
  | integer n =>
      -- an integer without a sign is one token
      obtain ⟨k, rfl⟩ := Int.eq_ofNat_of_zero_le h
      have htext := Literal.text_natural k
      refine ⟨⟨[.number k], ?_, .number⟩, ?_⟩
      · rw [htext]
        exact spells_token fun rest hrest => token?_number k hrest
      · obtain ⟨c, cs, hd, hc⟩ := Json.toDigits_eq_cons k
        exact ⟨c, cs, htext.trans hd, .inr (.inl hc)⟩

/-- What fits a tight place fits a looser one. -/
theorem Fits.loosen {point : Bool} {j k : Nat} {e : Expr} {text : String} (h : Fits point k e text)
    (hjk : j ≤ k) (hk : k ≤ 9) : Fits point j e text := by
  obtain ⟨ts, hs, hp⟩ := h
  exact ⟨ts, hs, hp.mono hjk hk⟩

/-- A sign in front of an operand, if the two are separate tokens. -/
theorem fits_sign {op : String} (hop : op ∈ signs) {e : Expr} {text : String} {c : Char}
    {cs : List Char} (htext : text.toList = c :: cs)
    (htoken : ∀ rest, token? (op.toList ++ c :: rest) = some (.mark op, c :: rest))
    (h : Fits false 7 e text) : Fits false 7 (.unary .before op e) (op ++ text) := by
  obtain ⟨ts, hs, hp⟩ := h
  refine ⟨.mark op :: ts, ?_, .unary hop hp⟩
  intro rest us hrest hus
  have hinside := hs rest us hrest hus
  rw [htext, List.cons_append] at hinside
  rw [String.toList_append, htext, List.append_assoc, List.cons_append]
  exact .token (htoken (cs ++ rest)) hinside

theorem unaryText_bang (text : String) : unaryText "!" text = "!" ++ text := by
  have hletter : "!".toList.getLast?.any Text.isLetter = false := by decide +kernel
  unfold unaryText
  rw [hletter]
  rfl

/-- A minus keeps its distance from another sign by parentheses. -/
theorem unaryText_minus (text : String) : unaryText "-" text =
    if startsWith "-" text || startsWith "+" text then "-" ++ parens text else "-" ++ text := by
  have hletter : "-".toList.getLast?.any Text.isLetter = false := by decide +kernel
  unfold unaryText
  rw [hletter]
  rfl

/-- A sign in front of an operand that fits it. Two signs never run into one token. -/
theorem unary_printed {op : String} (hop : op ∈ signs) {e : Expr} {text : String}
    (h : Fits false 7 e text) (hstart : StartsText text) :
    (Expr.unary .before op e).Printed (unaryText op text) ∧ StartsText (unaryText op text) := by
  obtain ⟨c, cs, htext, hequal⟩ := hstart.ne_equal
  simp only [signs, List.mem_cons, List.not_mem_nil, or_false] at hop
  rcases hop with rfl | rfl
  · rw [unaryText_bang]
    refine ⟨fits_sign (by decide) htext (fun rest => token?_bang hequal rest) h, ?_⟩
    exact startsText_sign (by decide) text
  · -- two signs next to one another would be one token, so the operand goes into parentheses
    by_cases hsign : (startsWith "-" text || startsWith "+" text) = true
    · rw [unaryText_minus, if_pos hsign]
      refine ⟨fits_sign (by decide) (toList_parens text)
        (fun rest => token?_minus (by decide) (by decide) rest)
        (fits_parens (h.loosen (by omega) (by omega)) false 7 (by omega)), ?_⟩
      exact startsText_sign (by decide) (parens text)
    · have hminus : c ≠ '-' := by
        rintro rfl
        refine hsign ?_
        have hstarts : startsWith "-" text = true := by
          unfold startsWith
          rw [htext]
          rfl
        rw [hstarts, Bool.true_or]
      rw [unaryText_minus, if_neg hsign]
      refine ⟨fits_sign (by decide) htext (fun rest => token?_minus hequal hminus rest) h, ?_⟩
      exact startsText_sign (by decide) text

/-- An operator between two operands that fit it. -/
theorem binary_printed {k : Nat} {op : String} (hop : op ∈ operatorsOf k) {left right : Expr}
    {leftText rightText : String} (hl : left.Printed leftText) (hr : right.Printed rightText) :
    (Expr.binary op left right).Printed
      (guarded (operandStrengths op).1 left leftText ++ " " ++ op ++ " " ++
        guarded (operandStrengths op).2 right rightText) := by
  obtain ⟨strength, hs, ho, hk, hk', hspaced⟩ := binary_strengths hop
  rw [ho]
  obtain ⟨us, hus, hleft⟩ := guarded_fits hl strength
  obtain ⟨vs, hvs, hright⟩ := guarded_fits hr (strength + 1)
  rw [hk] at hleft
  rw [hk'] at hright
  refine ⟨us ++ .mark op :: vs, spells_operation hspaced hus hvs, ?_⟩
  show Phrase (levelOfStrength ((binaryStrength? op).getD assignStrength)) _ _
  rw [hs, Option.getD_some, hk]
  exact .binary hop hleft hright

/-- A call of an expression with arguments whose texts stand for them. -/
theorem call_printed {callee : Expr} {arguments : List Expr} {calleeText argumentsText : String}
    (hf : callee.Printed calleeText)
    (ha : ∃ ts, Spells (Breaks false) argumentsText.toList ts ∧ Arguments ts arguments) :
    (Expr.call callee arguments).Printed
      (guarded callStrength callee calleeText ++ parens argumentsText) := by
  obtain ⟨us, hus, hcallee⟩ := guarded_fits hf callStrength
  obtain ⟨vs, hvs, harguments⟩ := ha
  refine ⟨us ++ .mark "(" :: vs ++ [.mark ")"], ?_, ?_⟩
  · have hall := hus.append (spells_parens hvs) fun rest _ => by
      rw [toList_parens]
      rfl
    rw [String.toList_append, List.append_assoc]
    exact hall.weaken fun _ _ => trivial
  · show Phrase 8 _ _
    exact .call hcallee harguments

/-- What is strong enough to be called or to have members ends in a bracket or a word. -/
theorem endsTight_of_strength {e : Expr} (hs : callStrength ≤ e.strength)
    (hn : e.isNumeric = false) (hp : e.Plain) : e.endsTight = true := by
  cases e with
  | identifier name => rfl
  | literal value =>
      show (!value.isNumeric) = true
      rw [show value.isNumeric = false from hn]
      rfl
  | call callee arguments => rfl
  | member object property => rfl
  | assign operator left right => exact absurd hs (by show ¬ (18 ≤ 3); omega)
  | unary side operator argument =>
      obtain ⟨rfl, -, -⟩ := hp
      exact absurd hs (by show ¬ (18 ≤ 15); omega)
  | binary operator left right =>
      obtain ⟨⟨k, hop⟩, -, -⟩ := hp
      obtain ⟨strength, hstrength, -, hlevel, -, -⟩ := binary_strengths hop
      have hs' : callStrength ≤ (binaryStrength? operator).getD assignStrength := hs
      rw [hstrength, Option.getD_some] at hs'
      -- a binary operator is on one of the levels 1 to 6, and calls ask for level 8
      have hcall : levelOfStrength callStrength = 8 := rfl
      have hmono := levelOfStrength_mono hs'
      have hk := Grammar.operatorsOf_level hop
      omega
  | function parameters body => exact hp.elim

/-- A member of an object. A number as object is kept from the point by parentheses. -/
theorem member_printed {object : Expr} {property text : String} (hp : isIdentifier property = true)
    (hplain : object.Plain) (h : object.Printed text) :
    (Expr.member object property).Printed
      ((if object.isNumeric then parens text else guarded callStrength object text) ++ "." ++
        property) := by
  have hobject : Fits true 8 object
      (if object.isNumeric then parens text else guarded callStrength object text) := by
    -- only a number would take the point for its own, and it stands in parentheses
    split
    next => exact fits_parens (h.fits (Nat.zero_le _)) true 8 (by omega)
    next hnumeric =>
      unfold guarded
      split
      next => exact fits_parens (h.fits (Nat.zero_le _)) true 8 (by omega)
      next hstrong =>
        obtain ⟨ts, hs, hphrase⟩ := h
        rw [endsTight_of_strength (Nat.le_of_not_lt hstrong) (by simpa using hnumeric) hplain] at hs
        exact ⟨ts, hs, hphrase.mono (levelOfStrength_mono (Nat.le_of_not_lt hstrong))
          (levelOfStrength_le _)⟩
  obtain ⟨ts, hs, hphrase⟩ := hobject
  refine ⟨ts ++ [.mark ".", .word property], ?_, ?_⟩
  · obtain ⟨c, cs, hproperty, hc, -⟩ := Naming.isIdentifier_iff.1 hp
    intro rest us hrest hus
    have hword := spells_word hp rest us hrest hus
    have hpoint : Tokenized ('.' :: (property.toList ++ rest))
        (.mark "." :: .word property :: us) := by
      refine .token ?_ hword
      rw [hproperty, List.cons_append]
      exact token?_point hc (cs ++ rest)
    have hall := hs ('.' :: (property.toList ++ rest)) _ rfl hpoint
    simp only [String.toList_append, List.append_assoc]
    exact hall
  · show Phrase 8 _ _
    exact .member hphrase

/-- An assignment to a target. -/
theorem assign_printed {target value : Expr} (ht : isTarget target = true)
    {targetText valueText : String} (hl : target.Printed targetText)
    (hr : value.Printed valueText) :
    (Expr.assign "=" target value).Printed
      (guarded callStrength target targetText ++ " " ++ "=" ++ " " ++
        guarded assignStrength value valueText) := by
  obtain ⟨us, hus, hleft⟩ := guarded_fits hl callStrength
  obtain ⟨vs, hvs, hright⟩ := guarded_fits hr assignStrength
  exact ⟨us ++ .mark "=" :: vs, spells_operation (by decide) hus hvs, .assign ht hleft hright⟩

/-- A comma between two texts. -/
theorem spells_comma {a b : String} {us vs : List Token} (ha : Spells (Breaks false) a.toList us)
    (hb : Spells (Breaks false) b.toList vs) :
    Spells (Breaks false) (a ++ ", " ++ b).toList (us ++ .mark "," :: vs) := by
  have hcomma : Spells Anything ",".toList [.mark ","] := spells_bracket (by decide)
  have hmiddle := hcomma.append (spells_blank.append hb fun _ _ => trivial) fun _ _ => trivial
  have hall := ha.append hmiddle fun _ _ => rfl
  rw [String.toList_append, String.toList_append, List.append_assoc]
  exact hall

mutual

/-- **EXPRESSIONS ARE PRINTED AS THEY ARE READ**: the text of a plain expression derives it on the
    level of its strength. -/
theorem Expr.printed (width : Nat) : ∀ e : Expr, e.Plain → ∀ level,
    e.Printed (e.text width level) ∧ StartsText (e.text width level)
  | .identifier name, h, level =>
      ⟨⟨[.word name], spells_word h.1, .identifier h.2⟩, startsText_name h.1⟩
  | .literal value, h, level => literal_printed h
  -- the text of an operand starts the text of the whole, in parentheses or without
  | .call callee arguments, h, level => by
      have ih := Expr.printed width callee h.1 level
      refine ⟨call_printed ih.1 (Expr.printed_arguments width arguments h.2 level), ?_⟩
      exact (startsText_guarded ih.2 callStrength).append _
  | .member object property, h, level => by
      have ih := Expr.printed width object h.1 level
      refine ⟨member_printed h.2 h.1 ih.1, ?_⟩
      rw [Expr.text, String.append_assoc]
      split
      · exact (startsText_parens _).append _
      · exact (startsText_guarded ih.2 callStrength).append _
  | .assign operator target value, h, level => by
      obtain ⟨rfl, ht, hl, hr⟩ := h
      have ihl := Expr.printed width target hl level
      have ihr := Expr.printed width value hr level
      refine ⟨assign_printed ht ihl.1 ihr.1, ?_⟩
      simp only [Expr.text, String.append_assoc]
      exact (startsText_guarded ihl.2 callStrength).append _
  | .unary side operator argument, h, level => by
      obtain ⟨rfl, hop, ha⟩ := h
      have ih := Expr.printed width argument ha level
      exact unary_printed hop (guarded_fits ih.1 beforeStrength)
        (startsText_guarded ih.2 beforeStrength)
  | .binary operator left right, h, level => by
      obtain ⟨⟨k, hop⟩, hl, hr⟩ := h
      have ihl := Expr.printed width left hl level
      have ihr := Expr.printed width right hr level
      refine ⟨binary_printed hop ihl.1 ihr.1, ?_⟩
      simp only [Expr.text, String.append_assoc]
      exact (startsText_guarded ihl.2 _).append _
  | .function _ _, h, _ => h.elim

/-- Arguments are printed as arguments. -/
theorem Expr.printed_arguments (width : Nat) : ∀ es : List Expr, Expr.PlainAll es → ∀ level,
    ∃ ts, Spells (Breaks false) (commas (Expr.texts width es level)).toList ts ∧ Arguments ts es
  | [], _, level => ⟨[], fun _ _ _ hus => hus, .none⟩
  | e :: es, h, level => by
      obtain ⟨us, hus, he⟩ := guarded_fits (Expr.printed width e h.1 level).1 assignStrength
      obtain ⟨vs, hvs, hes⟩ := Expr.printed_arguments width es h.2 level
      cases es with
      | nil => exact ⟨us, hus, .some (.last he)⟩
      | cons e' es =>
          refine ⟨us ++ .mark "," :: vs, spells_comma hus hvs, ?_⟩
          cases hes with
          | some hes => exact .some (.more he hes)

end

/-! ## §5. Statements -/

/-- A statement is printed as tokens that derive it, whatever follows. -/
def Stmt.Printed (s : Stmt) (text : String) : Prop :=
  ∃ ts, Spells Anything text.toList ts ∧ Statement s.isOpen ts s

/-- A word and a blank behind it. -/
theorem spells_keyword {word : String} (h : isIdentifier word = true) :
    Spells Anything (word ++ " ").toList [.word word] := by
  rw [String.toList_append]
  exact (spells_word h).append spells_blank fun _ _ => rfl

/-- A semicolon ends what stands in front of it. -/
theorem spells_semicolon {point : Bool} {text : String} {ts : List Token}
    (h : Spells (Breaks point) text.toList ts) :
    Spells Anything (text ++ ";").toList (ts ++ [.mark ";"]) := by
  rw [String.toList_append]
  exact h.append (spells_bracket (show ";" ∈ brackets by decide)) fun _ _ => by cases point <;> rfl

/-- A keyword and the test in parentheses behind it, in front of a clause. -/
theorem spells_test {word : String} (hword : isIdentifier word = true) {test : Expr}
    (width level : Nat) (h : test.Plain) :
    ∃ us, Phrase 0 us test ∧ ∀ {F : List Char → Prop} {text : String} {vs : List Token},
      Spells F text.toList vs →
      Spells F (word ++ " " ++ parens (test.text width level) ++ text).toList
        (.word word :: .mark "(" :: us ++ .mark ")" :: vs) := by
  obtain ⟨us, hs, hp⟩ := ((Expr.printed width test h level).1).fits (Nat.zero_le _)
  refine ⟨us, hp, fun hclause => ?_⟩
  have htest := (spells_parens hs).append hclause fun _ _ => trivial
  have hall := (spells_keyword hword).append htest fun _ _ => trivial
  simp only [← String.toList_append, ← String.append_assoc] at hall
  simp only [List.append_assoc, List.cons_append, List.nil_append] at hall ⊢
  exact hall

/-- A variable is printed with its value, if it has one. -/
theorem declarator_printed (width level : Nat) {d : String × Option Expr} (h : PlainDeclarator d) :
    ∃ ts, Spells (Breaks false) (commas (Expr.declarators width [d] level)).toList ts ∧
      Declarator ts d := by
  obtain ⟨name, first⟩ := d
  have hname := spells_word h.1.1
  cases first with
  | none =>
      exact ⟨[.word name], hname.weaken fun _ hrest => hrest.weaken _, .bare h.1.2⟩
  | some e =>
      have hvalue := Expr.printed width e (h.2 e rfl) level
      obtain ⟨ts, hs, hp⟩ := guarded_fits hvalue.1 assignStrength
      -- an initial value is spaced like the right side of an assignment
      have htext : commas (Expr.declarators width [(name, some e)] level) =
          name ++ " " ++ "=" ++ " " ++ guarded assignStrength e (e.text width level) := by
        have hequal : name ++ " " ++ "=" ++ " " = name ++ (" " ++ "=" ++ " ") := by
          simp only [String.append_assoc]
        rw [hequal]
        rfl
      rw [htext]
      exact ⟨_, spells_operation (by decide) hname hs, .initial h.1.2 hp⟩

/-- Variables are printed with commas between them. -/
theorem declarators_printed (width level : Nat) : ∀ ds : List (String × Option Expr), ds ≠ [] →
    (∀ d ∈ ds, PlainDeclarator d) →
    ∃ ts, Spells (Breaks false) (commas (Expr.declarators width ds level)).toList ts ∧
      Declarators ts ds
  | [], hne, _ => absurd rfl hne
  | [d], _, h => by
      obtain ⟨ts, hs, hd⟩ := declarator_printed width level (h d List.mem_cons_self)
      exact ⟨ts, hs, .last hd⟩
  | d :: d' :: ds, _, h => by
      rw [List.forall_mem_cons] at h
      obtain ⟨us, hus, hd⟩ := declarator_printed width level h.1
      obtain ⟨vs, hvs, hds⟩ := declarators_printed width level (d' :: ds) (by simp) h.2
      refine ⟨us ++ .mark "," :: vs, ?_, .more hd hds⟩
      -- the list is laid out with commas, the first declarator in front of the others
      have hcons : commas (Expr.declarators width (d :: d' :: ds) level) =
          commas (Expr.declarators width [d] level) ++ ", " ++
            commas (Expr.declarators width (d' :: ds) level) := by
        obtain ⟨name, first⟩ := d
        obtain ⟨name', first'⟩ := d'
        cases first <;> cases first' <;> rfl
      rw [hcons]
      exact spells_comma hus hvs

/-- An expression as a statement. Parentheses around the whole of it leave no trace. -/
theorem expression_printed {e : Expr} {text : String} (h : e.Printed text) :
    (Stmt.expression e).Printed (statementText text ++ ";") := by
  have hfits : Fits false 0 e (statementText text) := by
    unfold statementText
    split
    · exact fits_parens (h.fits (Nat.zero_le _)) false 0 (by omega)
    · exact h.fits (Nat.zero_le _)
  obtain ⟨ts, hs, hp⟩ := hfits
  exact ⟨_, spells_semicolon hs, Statement.expression hp⟩

/-- A clause stands for the tokens of its statement, however it is laid out. -/
theorem clause_printed (width level : Nat) {s t : Stmt}
    (h : ∀ level, t.Printed (s.text width level)) :
    t.Printed (clause width level s (s.text width)) := by
  unfold clause
  split
  -- a block goes on the same line, and an empty statement right behind
  next body =>
    obtain ⟨ts, hs, hp⟩ := h level
    refine ⟨ts, ?_, hp⟩
    rw [String.toList_append]
    exact spells_blank.append hs fun _ _ => trivial
  next =>
    exact h level
  next =>
    obtain ⟨ts, hs, hp⟩ := h (level + 1)
    refine ⟨ts, ?_, hp⟩
    rw [String.toList_append]
    exact (spells_newLine width (level + 1)).append hs fun _ _ => trivial

/-- Behind the word `else` stands a blank, a new line or a semicolon. -/
theorem breaks_clause (width level : Nat) (s : Stmt) (text : Nat → String) (rest : List Char) :
    Breaks true ((clause width level s text).toList ++ rest) := by
  unfold clause
  split
  · rw [String.toList_append]
    rfl
  · rfl
  · rw [String.append_assoc, String.toList_append]
    rfl

/-- The word `else` is a token of its own, however the branch in front of it ends. -/
theorem spells_else (width level : Nat) (consequent : Stmt) :
    Spells (Breaks true) (elseText width level consequent).toList [.word "else"] := by
  have helse : Spells (Breaks true) "else".toList [.word "else"] := spells_word (by decide)
  unfold elseText
  split
  · exact spells_blank.append helse fun _ _ => trivial
  · rw [String.toList_append]
    exact (spells_newLine width level).append helse fun _ _ => trivial

mutual

/-- **STATEMENTS ARE PRINTED AS THEY ARE READ**: the text of a statement derives it with every
    alternate at the nearest choice that can take it. -/
theorem Stmt.printed (width : Nat) : ∀ s : Stmt, s.Formed → ∀ level,
    s.settled.Printed (s.text width level)
  | .declare word ds, h, level => by
      obtain ⟨rfl, hne, hds⟩ := h
      obtain ⟨ts, hs, hd⟩ := declarators_printed width level ds hne hds
      refine ⟨_, ?_, Statement.declare hd⟩
      have hword : Spells Anything ("var" ++ " ").toList [.word "var"] := spells_keyword (by decide)
      have hall := hword.append (spells_semicolon hs) fun _ _ => trivial
      rw [← String.toList_append, ← String.append_assoc] at hall
      exact hall
  | .expression e, h, level => expression_printed (Expr.printed width e h level).1
  | .block body, h, level => by
      obtain ⟨ts, hs, hb⟩ := Stmt.printed_lines width body h (level + 1)
      refine ⟨_, ?_, Statement.block hb⟩
      have hopen : Spells Anything "\x7b".toList [.mark "\x7b"] := spells_bracket (by decide)
      have hline : Spells Anything "\n".toList [] := spells_layout rfl
      have hindent := spells_indent width level
      have hclose : Spells Anything "\x7d".toList [.mark "\x7d"] := spells_bracket (by decide)
      have hall := hopen.append (hline.append (hs.append (hindent.append hclose fun _ _ => trivial)
        fun _ _ => trivial) fun _ _ => trivial) fun _ _ => trivial
      simp only [← String.toList_append] at hall
      simp only [Stmt.text, String.append_assoc]
      exact hall
  | .loop test body, h, level => by
      obtain ⟨us, htest, hspells⟩ :=
        spells_test (show isIdentifier "while" = true by decide) width level h.1
      obtain ⟨vs, hvs, hbody⟩ := clause_printed width level (Stmt.printed width body h.2)
      exact ⟨_, hspells hvs, .loop htest hbody⟩
  | .choice test consequent none, h, level => by
      obtain ⟨us, htest, hspells⟩ :=
        spells_test (show isIdentifier "if" = true by decide) width level h.1
      obtain ⟨vs, hvs, hs⟩ := clause_printed width level (Stmt.printed width consequent h.2)
      exact ⟨_, hspells hvs, .choice htest hs⟩
  | .choice test consequent (some alternate), h, level => by
      obtain ⟨htestPlain, hconsequent, halternate⟩ := h
      obtain ⟨us, htest, hspells⟩ :=
        spells_test (show isIdentifier "if" = true by decide) width level htestPlain
      obtain ⟨vs, hvs, hs⟩ := clause_printed width level (Stmt.printed width consequent hconsequent)
      obtain ⟨ws, hws, ht⟩ := clause_printed width level (Stmt.printed width alternate halternate)
      -- up to the `else` the text is that of a choice without an alternate
      refine ⟨_, ?_, ht.withElse (Statement.choice htest hs)⟩
      have helse := (spells_else width level consequent).append hws
        fun rest _ => breaks_clause width level alternate (alternate.text width) rest
      have hbranches := hvs.append helse fun _ _ => trivial
      rw [← String.toList_append, ← String.toList_append] at hbranches
      have hall := hspells hbranches
      simp only [← String.append_assoc] at hall
      simp only [List.append_assoc, List.cons_append, List.nil_append] at hall ⊢
      exact hall
  | .empty, _, _ => ⟨_, spells_bracket (show ";" ∈ brackets by decide), .empty⟩

/-- Statements are printed as statements, each settled by itself. -/
theorem Stmt.printed_lines (width : Nat) : ∀ body : List Stmt, Stmt.FormedAll body → ∀ level,
    ∃ ts, Spells Anything (Stmt.lines width body level).toList ts ∧
      Statements ts (Stmt.settledAll body)
  | [], _, _ => ⟨[], fun _ _ _ hus => hus, .nil⟩
  | s :: body, h, level => by
      obtain ⟨us, hus, hs⟩ := Stmt.printed width s h.1 level
      obtain ⟨vs, hvs, hbody⟩ := Stmt.printed_lines width body h.2 level
      refine ⟨us ++ vs, ?_, .cons hs hbody⟩
      have hindent := spells_indent width level
      have hline : Spells Anything "\n".toList [] := spells_layout rfl
      have hall := hindent.append (hus.append (hline.append hvs fun _ _ => trivial)
        fun _ _ => trivial) fun _ _ => trivial
      simp only [← String.toList_append, ← String.append_assoc] at hall
      exact hall

end

/-! ## §6. Scripts -/

/-- The text of a formed script is read as the script with its alternates settled, and as nothing
    else. -/
theorem reads_print_settled (width : Nat) {script : List Stmt} (h : Stmt.FormedAll script)
    (other : List Stmt) :
    Reads (print width script) other ↔ other = Stmt.settledAll script := by
  obtain ⟨ts, hs, hp⟩ := Stmt.printed_lines width script h 0
  have hreads : Reads (print width script) (Stmt.settledAll script) := by
    have htokens := hs [] [] trivial .nil
    rw [List.append_nil, List.append_nil] at htokens
    exact ⟨ts, htokens, hp⟩
  constructor
  · intro hother
    exact hother.unique hreads
  · intro heq
    subst heq
    exact hreads

/-- **PRINTED SCRIPTS ARE READ BACK**: the text of a plain script is read as that script and as no
    other one. -/
theorem reads_print_iff (width : Nat) {script : List Stmt} (h : Stmt.PlainAll script)
    (other : List Stmt) : Reads (print width script) other ↔ other = script := by
  obtain ⟨hformed, hsteady⟩ := h
  rw [reads_print_settled width hformed, Stmt.settledAll_of_areSteady script hsteady]

/-- **WHICH STATEMENTS ARE READ BACK AS THEY WERE PRINTED**: the text of a formed script is read as
    the script in which every alternate has gone to the nearest choice that can take it, and as
    nothing else.  So it is read as the script itself, and as no other one, if and only if no
    consequent with an alternate behind it is open. -/
theorem print_reads_iff_steady (width : Nat) {script : List Stmt} (h : Stmt.FormedAll script) :
    (∀ other, Reads (print width script) other ↔ other = Stmt.settledAll script) ∧
      ((∀ other, Reads (print width script) other ↔ other = script) ↔
        Stmt.areSteady script = true) := by
  have hsettled := reads_print_settled width h
  refine ⟨hsettled, ?_⟩
  constructor
  · intro hall
    obtain ⟨ts, -, hderived⟩ := (hall script).2 rfl
    exact hderived.areSteady
  · intro hsteady
    rw [Stmt.settledAll_of_areSteady script hsteady] at hsettled
    exact hsettled

/-- `var v; if (a) { if (b) x; } else while (c) if (d); else if (e) y;`, where the one consequent
    that could take the `else` behind it stands in a block. -/
def Stmt.fencedChoice : List Stmt :=
  [.declare .varWord [("v", none)],
    .choice (.identifier "a")
      (.block [.choice (.identifier "b") (.expression (.identifier "x")) none])
      (some (.loop (.identifier "c") (.choice (.identifier "d") .empty
        (some (.choice (.identifier "e") (.expression (.identifier "y")) none)))))]

theorem print_reads_iff_steady_fencedChoice :
    Stmt.FormedAll Stmt.fencedChoice ∧ Stmt.areSteady Stmt.fencedChoice = true ∧
      ∀ other, Reads (print 2 Stmt.fencedChoice) other ↔ other = Stmt.fencedChoice := by
  have hname : ∀ x ∈ ["v", "a", "b", "c", "d", "e", "x", "y"], IsName x := by decide
  have hdeclared : ∀ d ∈ [("v", (none : Option Expr))], PlainDeclarator d := by
    intro d hd
    obtain rfl := List.mem_singleton.1 hd
    exact ⟨hname "v" (by simp), fun e he => absurd he (by simp)⟩
  -- each name in the script is a name of the language
  have hformed : Stmt.FormedAll Stmt.fencedChoice :=
    ⟨⟨rfl, by simp, hdeclared⟩,
      ⟨hname "a" (by simp), ⟨⟨hname "b" (by simp), hname "x" (by simp)⟩, trivial⟩,
        hname "c" (by simp), hname "d" (by simp), trivial, hname "e" (by simp),
        hname "y" (by simp)⟩,
      trivial⟩
  exact ⟨hformed, rfl, (print_reads_iff_steady 2 hformed).2.2 rfl⟩

/-- A choice between `x` and `y` whose consequent is a choice without an alternate. -/
def Stmt.bareConsequent : List Stmt :=
  [.choice (.identifier "a")
    (.choice (.identifier "b") (.expression (.identifier "x")) none)
    (some (.expression (.identifier "y")))]

/-- **AN ALTERNATE THAT IS TAKEN AWAY**: the text is read as another script, in which the inner
    choice has the alternate, and not as the one that was printed. -/
theorem print_alternateLost :
    Stmt.FormedAll Stmt.bareConsequent ∧
      print 2 Stmt.bareConsequent = "if (a)\n  if (b)\n    x;\nelse\n  y;\n" ∧
      ¬ Reads (print 2 Stmt.bareConsequent) Stmt.bareConsequent ∧
      Reads (print 2 Stmt.bareConsequent)
        [.choice (.identifier "a")
          (.choice (.identifier "b") (.expression (.identifier "x"))
            (some (.expression (.identifier "y"))))
          none] := by
  have hname : ∀ x ∈ ["a", "b", "x", "y"], IsName x := by decide
  have hformed : Stmt.FormedAll Stmt.bareConsequent :=
    ⟨⟨hname "a" (by simp), ⟨hname "b" (by simp), hname "x" (by simp)⟩, hname "y" (by simp)⟩,
      trivial⟩
  refine ⟨hformed, by decide +kernel, ?_, ?_⟩
  · intro hreads
    obtain ⟨ts, -, hderived⟩ := hreads
    exact absurd hderived.areSteady (by decide)
  · exact (reads_print_settled 2 hformed _).2 rfl

end TinyLang.Script
