/-
  TinyLang.Proofs.Script.Clashes — where renamed variables meet words of the script.

  An accepted choice of names keeps the variables of a program away from the variable of the
  runtime.  It does not keep them away from the words of the script: the stem can go on to a
  reserved word or to the loader, and the variable of the runtime can be reserved itself.

      stem  i       renames  f      to  if
      stem  re      renames  quire  to  require

  What a word of the script leaves behind a part of itself is always the name of a variable,
  so a clash is found by looking at the stem alone:

      Usable  ↔  the runtime's variable is not reserved
                 ∧  every word of the script that starts with the stem is the stem
-/

import TinyLang.Proofs.Lexing.Cut
import TinyLang.Proofs.Names

namespace TinyLang

/-! ## §1. The names of variables -/

/-- A name that the lexer finds in some source text. -/
def IsVariable (x : String) : Prop :=
  ∃ source, ∃ t ∈ (Lexed.ofSource source).tokens, t.kind = .identifier ∧ t.text = x

/-- A variable is a word that is no keyword. -/
theorem isVariable_iff {x : String} :
    IsVariable x ↔ IsWord x ∧ Keyword.ofSpelling? x = none := by
  constructor
  · intro ⟨source, t, ht, hkind, htext⟩
    have hspelled := Lexed.spelled source t ht
    rw [hkind, htext] at hspelled
    exact hspelled
  · intro ⟨hword, hname⟩
    -- the name is a source text that has it as its one token
    have hlexemes : lexemes x = [⟨.identifier, x⟩] := by
      rw [lexemes_eq_lexed]
      exact (Lexer.yields_identifier hword hname).lexed rfl
    have hmem : (⟨.identifier, x⟩ : Lexeme) ∈ lexemes x := by
      rw [hlexemes]
      exact List.mem_cons_self
    obtain ⟨t, ht, hlexeme⟩ := List.mem_map.1 hmem
    exact ⟨x, t, ht, congrArg Lexeme.kind hlexeme, congrArg Lexeme.text hlexeme⟩

theorem IsVariable.ne_empty {x : String} (h : IsVariable x) : x.toList ≠ [] := by
  obtain ⟨c, rest, rfl, -⟩ := (isVariable_iff.1 h).1
  rw [String.toList_ofList]
  exact List.cons_ne_nil c rest

namespace Naming

/-! ## §2. Words of the script and their parts -/

/-- The words that mean something to a script: the loader and the reserved words. -/
def scriptWords : List String := loader :: Script.reservedWords

/-- The words that a script must not use for a variable are made of letters. -/
theorem scriptWords_letters :
    ∀ word ∈ scriptWords, word.toList.all Lexer.isWordStart = true := by
  decide +kernel

/-- No word of the script ends in a keyword, apart from the keywords among them. -/
theorem scriptWords_keywords : ∀ word ∈ scriptWords, ∀ k ∈ Keyword.all,
    k.spelling.toList <:+ word.toList → k.spelling = word := by
  decide +kernel

/-- What a word of the script leaves behind a part of itself is the name of a variable. -/
theorem isVariable_of_scriptWord {word : String} (hword : word ∈ scriptWords)
    {start rest : List Char} (hsplit : word.toList = start ++ rest) (hstart : start ≠ [])
    (hrest : rest ≠ []) : IsVariable (String.ofList rest) := by
  have hletters := scriptWords_letters word hword
  rw [hsplit, List.all_append, Bool.and_eq_true] at hletters
  rw [isVariable_iff]
  constructor
  · obtain ⟨c, cs, rfl⟩ := List.exists_cons_of_ne_nil hrest
    have hrestLetters := hletters.2
    rw [List.all_cons, Bool.and_eq_true, List.all_eq_true] at hrestLetters
    refine ⟨c, cs, rfl, hrestLetters.1, ?_⟩
    rw [List.all_eq_true]
    intro d hd
    exact Lexer.isWordChar_of_start (hrestLetters.2 d hd)
  · cases hk : Keyword.ofSpelling? (String.ofList rest) with
    | none => rfl
    | some k =>
        -- a keyword behind the start would be the whole word
        have hchars : rest = k.spelling.toList := by
          rw [← Lexer.ofSpelling?_eq_some hk, String.toList_ofList]
        have hwhole : k.spelling = word := by
          apply scriptWords_keywords word hword k (by cases k <;> decide)
          rw [hsplit, ← hchars]
          exact List.suffix_append start rest
        have hlength := congrArg List.length hsplit
        rw [← hwhole, ← hchars, List.length_append] at hlength
        have hpos := List.length_pos_iff.2 hstart
        omega

/-! ## §3. Usable names -/

/-- Names that a script can use: the variable of the runtime is not reserved, and no variable of a
    program is renamed to a reserved word, to the loader or to the variable of the runtime. -/
structure Usable (names : Naming) : Prop where
  binding : names.binding ∉ Script.reservedWords
  reserved : ∀ x, IsVariable x → names.rename x ∉ Script.reservedWords
  loader : ∀ x, IsVariable x → names.rename x ≠ "require"
  apart : ∀ x, IsVariable x → names.rename x ≠ names.binding

/-- A usable stem that starts a word of the script is that word. -/
theorem stem_eq_of_usable {names : Naming} (hstem : isIdentifier names.stem = true)
    (h : names.Usable) {word : String} (hword : word ∈ scriptWords)
    (hstart : names.stem.toList <+: word.toList) : names.stem = word := by
  obtain ⟨rest, hrest⟩ := hstart
  by_cases hempty : rest = []
  · rw [hempty, List.append_nil] at hrest
    exact String.toList_inj.1 hrest
  · -- what is left of the word would be a variable, and renaming it would give the word
    have hne : names.stem.toList ≠ [] := by
      obtain ⟨c, cs, hchars, -⟩ := isIdentifier_iff.1 hstem
      rw [hchars]
      exact List.cons_ne_nil c cs
    have hvariable := isVariable_of_scriptWord hword hrest.symm hne hempty
    have hrename : names.rename (String.ofList rest) = word := by
      apply String.toList_inj.1
      rw [toList_rename, String.toList_ofList, hrest]
    rcases List.mem_cons.1 hword with hloader | hreserved
    · exact absurd (hrename.trans hloader) (h.loader _ hvariable)
    · rw [← hrename] at hreserved
      exact absurd hreserved (h.reserved _ hvariable)

/-- A stem that starts no word of the script but itself renames no variable to one. -/
theorem rename_notMem_scriptWords {names : Naming}
    (h : ∀ word ∈ scriptWords, names.stem.toList <+: word.toList → names.stem = word) {x : String}
    (hx : IsVariable x) : names.rename x ∉ scriptWords := by
  intro hmem
  have heq := congrArg String.toList (h _ hmem (stem_isPrefix_rename names x))
  rw [toList_rename] at heq
  exact hx.ne_empty (List.self_eq_append_right.1 heq)

/-- **WHEN ACCEPTED NAMES CAN BE USED**: no variable is renamed to the variable of the runtime, and
    the names are usable exactly when the variable of the runtime is not reserved and no reserved
    word, nor the loader, is longer than the stem and starts with it. -/
theorem make_usable_iff {stem binding path : String} {names : Naming}
    (h : make stem binding path = .ok names) :
    (∀ x, names.rename x ≠ binding) ∧
      (names.Usable ↔ binding ∉ Script.reservedWords ∧
        ∀ word ∈ "require" :: Script.reservedWords,
          stem.toList <+: word.toList → stem = word) := by
  obtain ⟨rfl, haccepted⟩ := make_eq_ok h
  have hapart := rename_ne haccepted.apart
  refine ⟨hapart, ?_⟩
  constructor
  · intro husable
    exact ⟨husable.binding, fun word hword hstart =>
      stem_eq_of_usable haccepted.stem husable hword hstart⟩
  · intro ⟨hbinding, hstem⟩
    -- a renamed variable is longer than the stem, so it is no word that the stem starts
    have hnever : ∀ x, IsVariable x → rename ⟨stem, binding, path⟩ x ∉ scriptWords := by
      intro x hx
      exact @rename_notMem_scriptWords ⟨stem, binding, path⟩ hstem x hx
    refine ⟨hbinding, ?_, ?_, fun x _ => hapart x⟩
    · intro x hx hmem
      exact hnever x hx (List.mem_cons_of_mem _ hmem)
    · intro x hx heq
      exact hnever x hx (heq ▸ List.mem_cons_self)

/-- The standard names can be used. -/
theorem make_usable_iff_standard :
    make standard.stem standard.binding standard.path = .ok standard ∧
      (∀ x, standard.rename x ≠ "runtime") ∧ standard.Usable := by
  have h := make_usable_iff make_standard
  exact ⟨make_standard, h.1, h.2.2 (by decide +kernel)⟩

/-- Accepted names that a script cannot use: a stem that makes a variable a reserved word, a stem
    that makes one the loader, and a reserved word for the variable of the runtime. -/
theorem make_unusable :
    (∃ names, make "i" "runtime" "./runtime" = .ok names ∧ IsVariable "f" ∧
      names.rename "f" = "if" ∧ ¬ names.Usable) ∧
    (∃ names, make "re" "runtime" "./runtime" = .ok names ∧ IsVariable "quire" ∧
      names.rename "quire" = "require" ∧ ¬ names.Usable) ∧
    ∃ names, make "tiny$" "var" "./runtime" = .ok names ∧ names.binding = "var" ∧
      ¬ names.Usable := by
  have hf : IsVariable "f" := isVariable_iff.2 ⟨⟨'f', [], rfl, rfl, rfl⟩, rfl⟩
  have hquire : IsVariable "quire" :=
    isVariable_iff.2 ⟨⟨'q', ['u', 'i', 'r', 'e'], rfl, rfl, rfl⟩, rfl⟩
  refine ⟨⟨_, rfl, hf, rfl, ?_⟩, ⟨_, rfl, hquire, rfl, ?_⟩, ⟨_, rfl, rfl, ?_⟩⟩
  · intro h
    exact h.reserved "f" hf (by decide)
  · intro h
    exact h.loader "quire" hquire rfl
  · intro h
    exact h.binding (by decide)

end Naming

end TinyLang
