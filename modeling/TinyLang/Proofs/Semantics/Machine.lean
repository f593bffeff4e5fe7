/-
  TinyLang.Proofs.Semantics.Machine — machines that read, write and may stop.

  Programs and scripts run on one kind of machine: variables, inputs that are still to be
  read, the events so far, and the steps that are left.  An action moves a machine on and
  gives a result, or stops it for a reason.  What literals, tests and operators mean is an
  `Interpretation`, which both languages share.

  Two actions SIMULATE one another when they take related machines to related machines, with
  related results or the same reason to stop.  Simulation goes through sequences and loops.
-/

import TinyLang.Number.Binary64

namespace TinyLang.Semantics

/-! ## §1. Machines -/

/-- What literals, tests and operators mean on values of a type. An operator may have no result,
    and `decided` says when the left operand alone gives the result of a binary one. -/
structure Interpretation (V : Type) where
  null : V
  bool : Bool → V
  integer : Int → V
  number : Binary64 → V
  string : String → V
  truth : V → Bool
  unary : String → V → Option V
  decided : String → V → Option V
  binary : String → V → V → Option V

/-- What the world sees of a run. -/
inductive Event (V : Type) where
  | read (v : V)
  | output (v : V)
deriving DecidableEq, Repr

/-- Why a run stops before its end. -/
inductive Stop where
  | outOfSteps
  | outOfInput
  | fault
deriving DecidableEq, Repr

/-- A machine whose variables hold values of the type `σ`. -/
structure Machine (σ V : Type) where
  steps : Nat
  inputs : List V
  events : List (Event V)
  store : String → Option σ

/-- An action on a machine: it gives a result or stops, and leaves the machine behind. -/
def Act (σ V α : Type) : Type := Machine σ V → Except Stop α × Machine σ V

variable {σ τ V α β : Type}

instance : Monad (Act σ V) where
  pure a := fun m => (.ok a, m)
  bind x f := fun m =>
    match x m with
    | (.ok a, m) => f a m
    | (.error reason, m) => (.error reason, m)

/-- An act goes on with its result, from the machine it leaves behind. -/
theorem Act.bind_ok {x : Act σ V α} {f : α → Act σ V β} {m m' : Machine σ V} {a : α}
    (h : x m = (.ok a, m')) : (x >>= f) m = f a m' := by
  show (match x m with
    | (.ok a, m) => f a m
    | (.error reason, m) => (.error reason, m)) = _
  rw [h]

/-- An act that stops stops all that follows. -/
theorem Act.bind_error {x : Act σ V α} {f : α → Act σ V β} {m m' : Machine σ V} {reason : Stop}
    (h : x m = (.error reason, m')) : (x >>= f) m = (.error reason, m') := by
  show (match x m with
    | (.ok a, m) => f a m
    | (.error reason, m) => (.error reason, m)) = _
  rw [h]

theorem Act.bind_congr {x y : Act σ V α} {f : α → Act σ V β} {m : Machine σ V} (h : x m = y m) :
    (x >>= f) m = (y >>= f) m := by
  rcases hy : y m with ⟨outcome, m'⟩
  cases outcome with
  | ok a => rw [Act.bind_ok (h.trans hy), Act.bind_ok hy]
  | error reason => rw [Act.bind_error (h.trans hy), Act.bind_error hy]

/-- How acts in a row are grouped does not matter. -/
theorem Act.bind_assoc {γ : Type} (x : Act σ V α) (f : α → Act σ V β) (g : β → Act σ V γ) :
    (x >>= f) >>= g = x >>= fun a => f a >>= g := by
  funext m
  rcases hx : x m with ⟨outcome, m'⟩
  cases outcome with
  | ok a =>
      rw [Act.bind_ok hx]
      rcases hf : f a m' with ⟨outcome, m''⟩
      cases outcome with
      | ok b => rw [Act.bind_ok ((Act.bind_ok hx).trans hf), Act.bind_ok hf]
      | error reason => rw [Act.bind_error ((Act.bind_ok hx).trans hf), Act.bind_error hf]
  | error reason => rw [Act.bind_error hx, Act.bind_error (Act.bind_error hx)]

/-! ## §2. Actions -/

/-- Stops. -/
def stop (reason : Stop) : Act σ V α := fun m => (.error reason, m)

/-- The result of an operator, which is a fault if there is none. -/
def demand : Option α → Act σ V α
  | some a => pure a
  | none => stop .fault

/-- Takes one step. -/
def tick : Act σ V Unit := fun m =>
  match m.steps with
  | 0 => (.error .outOfSteps, m)
  | n + 1 => (.ok (), { m with steps := n })

/-- The value of a variable. -/
def load (name : String) : Act σ V σ := fun m =>
  match m.store name with
  | some v => (.ok v, m)
  | none => (.error .fault, m)

/-- Gives a value to a variable. -/
def save (name : String) (v : σ) : Act σ V Unit := fun m =>
  (.ok (), { m with store := fun other => if other = name then some v else m.store other })

/-- The next input. -/
def takeInput : Act σ V V := fun m =>
  match m.inputs with
  | [] => (.error .outOfInput, m)
  | v :: inputs => (.ok v, { m with inputs := inputs, events := m.events ++ [.read v] })

/-- Puts a value out. -/
def emit (v : V) : Act σ V Unit := fun m =>
  (.ok (), { m with events := m.events ++ [.output v] })

/-- Up to a number of rounds of a loop, each of which takes one step. -/
def rounds (test : Act σ V Bool) (body : Act σ V Unit) : Nat → Act σ V Unit
  | 0 => stop .outOfSteps
  | n + 1 => do
    tick
    if ← test then do
      body
      rounds test body n
    else pure ()

/-- A loop. It cannot have more rounds than there are steps left. -/
def repeatWhile (test : Act σ V Bool) (body : Act σ V Unit) : Act σ V Unit := fun m =>
  rounds test body m.steps m

/-! ## §3. Simulation -/

/-- Two outcomes with related results, or with the same reason to stop. -/
inductive SameOutcome (Q : α → β → Prop) : Except Stop α → Except Stop β → Prop
  | ok {a : α} {b : β} : Q a b → SameOutcome Q (.ok a) (.ok b)
  | error {reason : Stop} : SameOutcome Q (.error reason) (.error reason)

/-- Two actions that keep machines related and end alike. -/
def Simulates (R : Machine σ V → Machine τ V → Prop) (Q : α → β → Prop) (x : Act σ V α)
    (y : Act τ V β) : Prop :=
  ∀ m n, R m n → SameOutcome Q (x m).1 (y n).1 ∧ R (x m).2 (y n).2

/-- Results that need no relation. -/
def Whatever : α → β → Prop := fun _ _ => True

variable {R : Machine σ V → Machine τ V → Prop} {α' β' : Type}

theorem simulates_pure {Q : α → β → Prop} {a : α} {b : β} (h : Q a b) :
    Simulates R Q (pure a : Act σ V α) (pure b : Act τ V β) :=
  fun _ _ hmn => ⟨.ok h, hmn⟩

theorem simulates_stop (Q : α → β → Prop) (reason : Stop) :
    Simulates R Q (stop reason : Act σ V α) (stop reason : Act τ V β) :=
  fun _ _ hmn => ⟨.error, hmn⟩

/-- **Simulation goes through sequences.** -/
theorem Simulates.bind {Q : α → β → Prop} {P : α' → β' → Prop} {x : Act σ V α} {y : Act τ V β}
    {f : α → Act σ V α'} {g : β → Act τ V β'} (hxy : Simulates R Q x y)
    (hfg : ∀ a b, Q a b → Simulates R P (f a) (g b)) : Simulates R P (x >>= f) (y >>= g) := by
  intro m n hmn
  obtain ⟨houtcome, hmachines⟩ := hxy m n hmn
  rcases hx : x m with ⟨xo, m'⟩
  rcases hy : y n with ⟨yo, n'⟩
  rw [hx, hy] at houtcome hmachines
  -- either both go on from related machines, or both have stopped
  cases houtcome with
  | ok hq =>
      rw [Act.bind_ok hx, Act.bind_ok hy]
      exact hfg _ _ hq m' n' hmachines
  | error =>
      rw [Act.bind_error hx, Act.bind_error hy]
      exact ⟨.error, hmachines⟩

/-- A result may be passed on in another form. -/
theorem Simulates.bind_pure {Q : α → β → Prop} {P : α → β' → Prop} {x : Act σ V α}
    {y : Act τ V β} {g : β → β'} (hxy : Simulates R Q x y) (hg : ∀ a b, Q a b → P a (g b)) :
    Simulates R P x (y >>= fun b => pure (g b)) := by
  intro m n hmn
  obtain ⟨houtcome, hmachines⟩ := hxy m n hmn
  rcases hx : x m with ⟨xo, m'⟩
  rcases hy : y n with ⟨yo, n'⟩
  rw [hx, hy] at houtcome hmachines
  cases houtcome with
  | ok hq =>
      rw [Act.bind_ok hy]
      exact ⟨.ok (hg _ _ hq), hmachines⟩
  | error =>
      rw [Act.bind_error hy]
      exact ⟨.error, hmachines⟩

/-- Actions with no result to speak of end with equal outcomes. -/
theorem SameOutcome.eq {x y : Except Stop Unit} (h : SameOutcome Whatever x y) : x = y := by
  cases h <;> rfl

/-- What is demanded is there for both, or for neither. -/
theorem simulates_demand (o : Option α) :
    Simulates R Eq (demand o : Act σ V α) (demand o : Act τ V α) := by
  cases o with
  | some a => exact simulates_pure rfl
  | none => exact simulates_stop Eq .fault

/-- Steps are taken alike when as many are left. -/
theorem simulates_tick (hsteps : ∀ m n, R m n → m.steps = n.steps)
    (hset : ∀ m n k, R m n → R { m with steps := k } { n with steps := k }) :
    Simulates R Whatever (tick : Act σ V Unit) (tick : Act τ V Unit) := by
  intro m n hmn
  have hsame := hsteps m n hmn
  unfold tick
  cases hm : m.steps with
  | zero =>
      rw [← hsame, hm]
      exact ⟨.error, hmn⟩
  | succ k =>
      rw [← hsame, hm]
      exact ⟨.ok trivial, hset m n k hmn⟩

/-- **Simulation goes through loops**, round by round. -/
theorem simulates_rounds {test : Act σ V Bool} {test' : Act τ V Bool} {body : Act σ V Unit}
    {body' : Act τ V Unit} (htick : Simulates R Whatever (tick : Act σ V Unit) (tick : Act τ V Unit))
    (htest : Simulates R Eq test test') (hbody : Simulates R Whatever body body') (n : Nat) :
    Simulates R Whatever (rounds test body n) (rounds test' body' n) := by
  induction n with
  | zero => exact simulates_stop _ _
  | succ n ih =>
      refine htick.bind fun _ _ _ => htest.bind fun a b hab => ?_
      -- the tests agree, so both loops go on or both end
      subst hab
      cases a with
      | true => exact hbody.bind fun _ _ _ => ih
      | false => exact simulates_pure trivial

/-- **Loops of acts that simulate each other simulate each other**: by induction on the steps that
    are left, which are the same for both. -/
theorem simulates_repeatWhile {test : Act σ V Bool} {test' : Act τ V Bool} {body : Act σ V Unit}
    {body' : Act τ V Unit} (hsteps : ∀ m n, R m n → m.steps = n.steps)
    (htick : Simulates R Whatever (tick : Act σ V Unit) (tick : Act τ V Unit))
    (htest : Simulates R Eq test test') (hbody : Simulates R Whatever body body') :
    Simulates R Whatever (repeatWhile test body) (repeatWhile test' body') := by
  intro m n hmn
  unfold repeatWhile
  rw [hsteps m n hmn]
  exact simulates_rounds htick htest hbody n.steps m n hmn

end TinyLang.Semantics
