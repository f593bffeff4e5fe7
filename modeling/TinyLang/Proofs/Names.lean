/-
  TinyLang.Proofs.Names — what an accepted choice of names guarantees.

  A variable is renamed by putting the stem in front of it.  Renaming keeps names apart,
  keeps them away from the variable of the runtime, and away from every word that the stem
  does not start:

      names.rename x = names.rename y  ↔  x = y
      names.rename x ≠ names.binding
-/

import TinyLang.Naming
import TinyLang.Proofs.Lexing.Spelling

namespace TinyLang.Naming

/-- What `make` has checked of the names that it gives. -/
structure Accepted (names : Naming) : Prop where
  stem : isIdentifier names.stem = true
  binding : isIdentifier names.binding = true
  apart : ¬ names.stem.toList <+: names.binding.toList

/-- A naming that is made has the parts it was made of, and they have passed the checks. -/
theorem make_eq_ok {stem binding path : String} {names : Naming}
    (h : make stem binding path = .ok names) : names = ⟨stem, binding, path⟩ ∧ names.Accepted := by
  unfold make at h
  split at h
  -- every check that fails gives an error, so all of them have passed
  next => exact absurd h (by simp)
  next hstem =>
    split at h
    next => exact absurd h (by simp)
    next hbinding =>
      split at h
      next => exact absurd h (by simp)
      next =>
        split at h
        next => exact absurd h (by simp)
        next hapart =>
          injection h with h
          subst h
          refine ⟨rfl, by simpa using hstem, by simpa using hbinding, ?_⟩
          rw [List.isPrefixOf_iff_prefix] at hapart
          exact hapart

/-- The standard names are accepted. -/
theorem make_standard :
    make standard.stem standard.binding standard.path = .ok standard := by
  have hpath : standard.path.toList.all Text.isBlank = false := by decide +kernel
  unfold make
  rw [hpath]
  rfl

theorem toList_rename (names : Naming) (x : String) :
    (names.rename x).toList = names.stem.toList ++ x.toList := String.toList_append

/-- Every renamed variable starts with the stem, which keeps it apart from other names. -/
theorem stem_isPrefix_rename (names : Naming) (x : String) :
    names.stem.toList <+: (names.rename x).toList := by
  rw [toList_rename]
  exact List.prefix_append _ _

/-- Renaming keeps names apart. -/
theorem rename_inj {names : Naming} {x y : String} : names.rename x = names.rename y ↔ x = y := by
  refine ⟨fun h => ?_, congrArg _⟩
  have hchars := congrArg String.toList h
  rw [toList_rename, toList_rename, List.append_cancel_left_eq] at hchars
  exact String.toList_inj.1 hchars

/-- A word that the stem does not start is not the name of a variable. -/
theorem rename_ne {names : Naming} {word : String} (h : ¬ names.stem.toList <+: word.toList)
    (x : String) : names.rename x ≠ word := by
  rintro rfl
  exact h (stem_isPrefix_rename names x)

/-- What may stand in a word of a program may stand in an identifier of a script. -/
theorem isIdentifierChar_of_isWordChar {c : Char} (h : Lexer.isWordChar c = true) :
    isIdentifierChar c = true := by
  unfold isIdentifierChar
  unfold Lexer.isWordChar at h
  rw [h, Bool.true_or]

theorem isWordChar_of_isWord {x : String} (hx : IsWord x) :
    x.toList.all Lexer.isWordChar = true := by
  obtain ⟨c, rest, rfl, hc, hrest⟩ := hx
  rw [String.toList_ofList, List.all_cons, Lexer.isWordChar_of_start hc, hrest]
  rfl

/-- A renamed word is an identifier of a script. -/
theorem isIdentifier_rename {names : Naming} (h : isIdentifier names.stem = true) {x : String}
    (hx : IsWord x) : isIdentifier (names.rename x) = true := by
  have hword : x.toList.all isIdentifierChar = true := by
    have hchars := isWordChar_of_isWord hx
    rw [List.all_eq_true] at hchars ⊢
    intro d hd
    exact isIdentifierChar_of_isWordChar (hchars d hd)
  obtain ⟨c, rest, hstem, hstart, hrest⟩ := isIdentifier_iff.1 h
  -- the stem brings the first character, which alone has to start an identifier
  refine isIdentifier_iff.2 ⟨c, rest ++ x.toList, ?_, hstart, ?_⟩
  · rw [toList_rename, hstem, List.cons_append]
  · rw [List.all_append, hrest, hword]
    rfl

end TinyLang.Naming
