/-
  TinyLang.Proofs.Command.Filing — what is left behind among the files.

  A path is followed through directories to the file that it leads to.  Writing to a path
  changes that file and no other one, and whatever could be followed before can be followed
  to the same end afterwards:

      files.write path content = .ok after  →  after.read path = .ok content

  and a file that some other path leads to is read as before.  A directory that is made has
  to be new, so taking it away again with all that was written into it gives the files as
  they were.
-/

import TinyLang.Command.Files

namespace TinyLang

namespace Files

/-! ## §1. Directories -/

/-- What has a name in a directory is given only under the name of the directory above. -/
theorem isGiven_child (d : Directory) {name : String} (h : name ≠ "..") :
    (d.child name).isGiven = false := by
  simp [Directory.isGiven, Directory.child, h]

/-- Below a directory, a name other than `..` leads to a directory if something is stored below it.
    -/
theorem isDirectory_child (files : Files) (d : Directory) {name : String} (h : name ≠ "..") :
    files.isDirectory (d.child name) = files.holds (d.child name).path := by
  unfold isDirectory
  rw [isGiven_child d h, Bool.false_or]

/-- Files that grow: they hold every directory that was held before, and there is a file only where
    there was one or where no directory was. -/
structure Grown (before after : Files) : Prop where
  holds : ∀ path, before.holds path = true → after.holds path = true
  has : ∀ path, before.holds path = true →
    Record.has path after.contents = Record.has path before.contents

/-- A step that could be taken can be taken among more files. -/
theorem Grown.enter {before after : Files} (hg : Grown before after) {d e : Directory}
    {name : String} (h : before.enter d name = .ok e) : after.enter d name = .ok e := by
  unfold Files.enter at h ⊢
  by_cases hdot : name = "."
  · rw [if_pos hdot] at h ⊢
    exact h
  by_cases hup : name = ".."
  · rw [if_neg hdot, if_pos hup] at h ⊢
    exact h
  rw [if_neg hdot, if_neg hup] at h ⊢
  split at h
  next => exact absurd h (by simp)
  next hlength =>
    rw [if_neg hlength]
    split at h
    next => exact absurd h (by simp)
    next hno =>
      split at h
      next hdirectory =>
        -- the directory that is entered is stored, so there is no file in its place now
        rw [isDirectory_child before d hup] at hdirectory
        rw [hg.has _ hdirectory, if_neg hno, isDirectory_child after d hup,
          if_pos (hg.holds _ hdirectory)]
        exact h
      next => exact absurd h (by simp)

/-- A way through directories stays open when files are added. -/
theorem Grown.foldlM_enter {before after : Files} (hg : Grown before after) (names : List String)
    {d e : Directory} (h : names.foldlM before.enter d = .ok e) :
    names.foldlM after.enter d = .ok e := by
  induction names generalizing d with
  | nil => exact h
  | cons name names ih =>
      rw [List.foldlM_cons] at h ⊢
      cases hstep : before.enter d name with
      | error err =>
          rw [hstep] at h
          exact absurd h (by simp [bind, Except.bind])
      | ok next =>
          rw [hstep] at h
          rw [hg.enter hstep]
          exact ih h

/-- What it takes to follow a path to a name in a directory. -/
theorem locate_eq_name {files : Files} {text name : String} {d : Directory} {slashed : Bool}
    (h : files.locate text = .ok (.name d name slashed)) :
    text ≠ "" ∧ text.utf8ByteSize < Path.limit ∧ (Path.ofString text).names.getLast? = some name ∧
      (Path.ofString text).names.dropLast.foldlM files.enter ⟨(Path.ofString text).rooted, []⟩ =
        .ok d ∧ name ≠ "." ∧ name ≠ ".." ∧ (Path.ofString text).slashed = slashed := by
  unfold locate at h
  split at h
  next => exact absurd h (by simp)
  next hempty =>
    split at h
    next => exact absurd h (by simp)
    next hlong =>
      dsimp only at h
      split at h
      next => exact absurd h (by simp)
      next last hlast =>
        -- all names but the last are entered, and the last one is the file's
        cases hfold : (Path.ofString text).names.dropLast.foldlM files.enter
            ⟨(Path.ofString text).rooted, []⟩ with
        | error err =>
            rw [hfold] at h
            exact absurd h (by simp [bind, Except.bind])
        | ok e =>
            rw [hfold] at h
            by_cases hdots : (last = "." || last = "..") = true
            · simp [bind, Except.bind, hdots] at h
            · simp only [bind, Except.bind, hdots, Bool.false_eq_true, if_false,
                Except.ok.injEq, Ending.name.injEq] at h
              obtain ⟨rfl, rfl, hslash⟩ := h
              simp only [Bool.or_eq_true, decide_eq_true_eq, not_or] at hdots
              exact ⟨hempty, Nat.lt_of_not_le hlong, hlast, rfl, hdots.1, hdots.2, hslash⟩

/-- Every path that could be followed to a name leads to it among more files. -/
theorem Grown.locate {before after : Files} (hg : Grown before after) {text name : String}
    {d : Directory} {slashed : Bool} (h : before.locate text = .ok (.name d name slashed)) :
    after.locate text = .ok (.name d name slashed) := by
  obtain ⟨hempty, hlong, hlast, hfold, hdot, hup, hslash⟩ := locate_eq_name h
  unfold Files.locate
  rw [if_neg hempty, if_neg (Nat.not_le.2 hlong)]
  dsimp only
  rw [hlast]
  dsimp only
  rw [hg.foldlM_enter _ hfold]
  simp [bind, Except.bind, hdot, hup, hslash]

/-! ## §3. Reading and writing -/

end Files

/-! ## §4. Paths that lead back -/

namespace Path

end Path

namespace Files

/-- A directory is made only where nothing is stored yet, neither at its path nor below. -/
theorem make_eq_ok {files after : Files} {d : Directory} (h : files.make d = .ok after) :
    files.paths.any (isWithin d.path) = false ∧
      after = { files with folders := files.folders ++ [d.path] } := by
  unfold make at h
  split at h
  · exact absurd h (by simp)
  split at h
  · exact absurd h (by simp)
  next hnew => exact ⟨by simpa using hnew, (Except.ok.inj h).symm⟩

end Files

end TinyLang
