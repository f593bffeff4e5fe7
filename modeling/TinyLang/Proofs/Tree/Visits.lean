/-
  TinyLang.Proofs.Tree.Visits — which visits a walk makes.

  A walk goes through a tree; its visits go through a list, that of the tree's nodes from the
  leaves up.  Each node is visited once, with what the visits before have made of the nodes in
  its fields, and from the state that the visit before has left; the first visit that fails is
  the last one, and the walk fails as it did.

      t.nodes                     n₁   n₂   n₃   …   nₖ   …
      t.visits visit s            v₁   v₂   v₃   …   vₖ          vₖ the last, or the first to fail

  The visits are seen by having them written down (`recorded`), which changes nothing else.
  A walk that makes all visits may still fail: in the last one, at the root.
-/

import TinyLang.Proofs.Tree.Nodes
import TinyLang.Record

namespace TinyLang

/-! ## §1. Visits -/

/-- What visits a node: it may keep a state, and fail. A visit that fails leaves a state too. -/
abbrev Visitor (σ ε α : Type) := String → List (String × Walked α) → ExceptT ε (StateM σ) α

/-- A visit that was made: the tag and the walked fields it was given, and what came of it. -/
structure Visit (ε α : Type) where
  tag : String
  fields : List (String × Walked α)
  outcome : Except ε α

variable {σ ε α : Type}

/-- What a visit shows of its node: the tag, and the names of the fields in their order. -/
def Visit.head (v : Visit ε α) : String × List String := (v.tag, Record.names v.fields)

/-- What there is to see of a node. -/
def headOf (node : String × List (String × Tree)) : String × List String :=
  (node.1, Record.names node.2)

/-- Whether a visit did not fail. -/
def Visit.Succeeds (v : Visit ε α) : Prop := ∃ result, v.outcome = .ok result

/-- The visitor that writes each visit down, and is the same otherwise. -/
def recorded (visit : Visitor σ ε α) : Visitor (σ × List (Visit ε α)) ε α :=
  fun tag fields => ExceptT.mk fun state =>
    let after := (visit tag fields).run.run state.1
    (after.1, after.2, state.2 ++ [⟨tag, fields, after.1⟩])

/-- The visits that a walk makes. -/
def Tree.visits (visit : Visitor σ ε α) (t : Tree) (s : σ) : List (Visit ε α) :=
  ((t.walk (recorded visit)).run.run (s, [])).2.2

/-! ## §2. What is left of a tree -/

mutual

/-- What a walk leaves of a tree when its nodes become the given results, in the order of the
    walk: sequences keep their items, leaves stay, and a node is its own result, the last. -/
inductive Filled : Tree → List α → Walked α → Prop
  | leaf {value : Json} : Filled (.leaf value) [] (.leaf value)
  | seq {items : List Tree} {results : List α} {ws : List (Walked α)} :
      FilledItems items results ws → Filled (.seq items) results (.seq ws)
  | node {tag : String} {fields : List (String × Tree)} {results : List α}
      {ws : List (String × Walked α)} {result : α} :
      FilledFields fields results ws →
        Filled (.node tag fields) (results ++ [result]) (.node result)

/-- What is left of the items of a sequence. -/
inductive FilledItems : List Tree → List α → List (Walked α) → Prop
  | nil : FilledItems [] [] []
  | cons {t : Tree} {items : List Tree} {first rest : List α} {w : Walked α}
      {ws : List (Walked α)} :
      Filled t first w → FilledItems items rest ws →
        FilledItems (t :: items) (first ++ rest) (w :: ws)

/-- What is left of the fields of a node, under the same names. -/
inductive FilledFields : List (String × Tree) → List α → List (String × Walked α) → Prop
  | nil : FilledFields [] [] []
  | cons {name : String} {t : Tree} {fields : List (String × Tree)} {first rest : List α}
      {w : Walked α} {ws : List (String × Walked α)} :
      Filled t first w → FilledFields fields rest ws →
        FilledFields ((name, t) :: fields) (first ++ rest) ((name, w) :: ws)

end

/-- Walked fields keep their names and their order. -/
theorem FilledFields.names_eq : ∀ {fields : List (String × Tree)} {results : List α}
    {ws : List (String × Walked α)}, FilledFields fields results ws →
      Record.names ws = Record.names fields
  | _, _, _, .nil => rfl
  | (name, _) :: _, _, _, .cons _ h => congrArg (name :: ·) h.names_eq

/-! ## §3. Nodes visited one after the other -/

/-- The visits of nodes in their order, from a state and behind visits with the results `before`,
    until one fails: the visits, the results of all visits or the failure, and the state that is
    left. The nodes in the fields of a node are the last ones before it. -/
inductive Visits (visit : Visitor σ ε α) :
    σ → List α → List (String × List (String × Tree)) → List (Visit ε α) →
      Except ε (List α) → σ → Prop
  | done {s : σ} {before : List α} : Visits visit s before [] [] (.ok before) s
  | go {s s₁ s' : σ} {before earlier inner : List α} {tag : String}
      {fields : List (String × Tree)} {ws : List (String × Walked α)} {result : α}
      {nodes : List (String × List (String × Tree))} {log : List (Visit ε α)}
      {outcome : Except ε (List α)} :
      before = earlier ++ inner → FilledFields fields inner ws →
      (visit tag ws).run.run s = (.ok result, s₁) →
      Visits visit s₁ (before ++ [result]) nodes log outcome s' →
        Visits visit s before ((tag, fields) :: nodes) (⟨tag, ws, .ok result⟩ :: log) outcome s'
  | stop {s s' : σ} {before earlier inner : List α} {tag : String}
      {fields : List (String × Tree)} {ws : List (String × Walked α)} {e : ε}
      {nodes : List (String × List (String × Tree))} :
      before = earlier ++ inner → FilledFields fields inner ws →
      (visit tag ws).run.run s = (.error e, s') →
        Visits visit s before ((tag, fields) :: nodes) [⟨tag, ws, .error e⟩] (.error e) s'

namespace Visits

variable {visit : Visitor σ ε α} {s s₁ s' : σ} {before : List α}
  {nodes more : List (String × List (String × Tree))} {log log' : List (Visit ε α)}

/-- Visits that all succeed, and then the visits of further nodes. -/
theorem append {between : List α} {outcome : Except ε (List α)}
    (h : Visits visit s before nodes log (.ok between) s₁)
    (h' : Visits visit s₁ between more log' outcome s') :
    Visits visit s before (nodes ++ more) (log ++ log') outcome s' := by
  generalize hok : (Except.ok between : Except ε (List α)) = first at h
  induction h with
  | done =>
      obtain rfl := Except.ok.inj hok
      exact h'
  | go hbefore hfields hvisit _ ih => exact .go hbefore hfields hvisit (ih h' hok)
  | stop _ _ _ => exact absurd hok (by simp)

/-- Behind a visit that failed no further node is visited. -/
theorem append_failed {e : ε} (h : Visits visit s before nodes log (.error e) s')
    (more : List (String × List (String × Tree))) :
    Visits visit s before (nodes ++ more) log (.error e) s' := by
  generalize herror : (Except.error e : Except ε (List α)) = outcome at h
  induction h with
  | done => exact absurd herror (by simp)
  | go hbefore hfields hvisit _ ih => exact .go hbefore hfields hvisit (ih herror)
  | stop hbefore hfields hvisit => exact .stop hbefore hfields hvisit

/-- The nodes that are visited are the first ones, in their order. -/
theorem heads_isPrefix {outcome : Except ε (List α)}
    (h : Visits visit s before nodes log outcome s') :
    log.map Visit.head <+: nodes.map headOf := by
  induction h with
  | done => exact List.nil_prefix
  | go _ hfields _ _ ih =>
      rw [List.map_cons, List.map_cons, Visit.head, hfields.names_eq]
      exact List.cons_prefix_cons.2 ⟨rfl, ih⟩
  | stop _ hfields _ =>
      rw [List.map_cons, List.map_cons, Visit.head, hfields.names_eq]
      exact List.cons_prefix_cons.2 ⟨rfl, List.nil_prefix⟩

/-- If no visit fails, all nodes are visited. -/
theorem of_ok {all : List α} (h : Visits visit s before nodes log (.ok all) s') :
    log.length = nodes.length ∧
      ∃ results, all = before ++ results ∧ log.map Visit.outcome = results.map .ok := by
  generalize hok : (Except.ok all : Except ε (List α)) = outcome at h
  induction h with
  | done => exact ⟨rfl, [], by rw [List.append_nil]; exact Except.ok.inj hok, rfl⟩
  | @go _ _ _ _ _ _ _ _ _ result _ _ _ _ _ _ _ ih =>
      obtain ⟨hlength, results, hall, hlog⟩ := ih hok
      refine ⟨by rw [List.length_cons, List.length_cons, hlength], result :: results, ?_, ?_⟩
      · rw [hall, List.append_assoc, List.singleton_append]
      · rw [List.map_cons, hlog, List.map_cons]
  | stop _ _ _ => exact absurd hok (by simp)

/-- If a visit fails, it is the last one, and the only one. -/
theorem of_error {e : ε} (h : Visits visit s before nodes log (.error e) s') :
    ∃ earlier v, log = earlier ++ [v] ∧ v.outcome = .error e ∧ ∀ u ∈ earlier, u.Succeeds := by
  generalize herror : (Except.error e : Except ε (List α)) = outcome at h
  induction h with
  | done => exact absurd herror (by simp)
  | @go _ _ _ _ _ _ tag _ ws result _ _ _ _ _ _ _ ih =>
      obtain ⟨earlier, v, rfl, hv, hearlier⟩ := ih herror
      refine ⟨⟨tag, ws, .ok result⟩ :: earlier, v, rfl, hv, ?_⟩
      rw [List.forall_mem_cons]
      exact ⟨⟨result, rfl⟩, hearlier⟩
  | stop _ _ _ =>
      obtain rfl := Except.error.inj herror
      exact ⟨[], _, rfl, rfl, fun _ hu => absurd hu List.not_mem_nil⟩

end Visits

/-! ## §4. Computations that visit nodes -/

section Runs

variable {β γ : Type}

/-- A computation goes on with its result, from the state it leaves behind. -/
theorem run_bind_ok {x : ExceptT ε (StateM σ) β} {f : β → ExceptT ε (StateM σ) γ} {s s' : σ}
    {a : β} (h : x.run.run s = (.ok a, s')) : (x >>= f).run.run s = (f a).run.run s' := by
  rw [ExceptT.run_bind, StateT.run_bind, h]
  rfl

/-- A computation that stops keeps the state it stopped in. -/
theorem run_bind_error {x : ExceptT ε (StateM σ) β} {f : β → ExceptT ε (StateM σ) γ} {s s' : σ}
    {e : ε} (h : x.run.run s = (.error e, s')) : (x >>= f).run.run s = (.error e, s') := by
  rw [ExceptT.run_bind, StateT.run_bind, h]
  rfl

end Runs

/-- How a computation that visits nodes can end: with something that the results of all visits
    fill, or with the failure of a visit. -/
inductive Finishes (visit : Visitor σ ε α) (nodes : List (String × List (String × Tree))) {β : Type}
    (Fill : List α → β → Prop) (s : σ) (before : List α) (log : List (Visit ε α)) :
    Except ε β → σ → Prop
  | ok {results : List α} {x : β} {s' : σ} :
      Visits visit s before nodes log (.ok (before ++ results)) s' → Fill results x →
        Finishes visit nodes Fill s before log (.ok x) s'
  | error {e : ε} {s' : σ} : Visits visit s before nodes log (.error e) s' →
        Finishes visit nodes Fill s before log (.error e) s'

/-- A computation, and the same with the visits written down, visit the given nodes, right behind
    visits with the results `inner`. -/
def Goes (visit : Visitor σ ε α) (inner : List α) (nodes : List (String × List (String × Tree)))
    {β : Type} (Fill : List α → β → Prop) (plain : ExceptT ε (StateM σ) β)
    (noted : ExceptT ε (StateM (σ × List (Visit ε α))) β) : Prop :=
  ∀ s before notes, ∃ outcome s' log, Finishes visit nodes Fill s (before ++ inner) log outcome s' ∧
    plain.run.run s = (outcome, s') ∧ noted.run.run (s, notes) = (outcome, s', notes ++ log)

section Goes

variable {visit : Visitor σ ε α} {inner : List α}
  {nodes more : List (String × List (String × Tree))} {β γ : Type}
  {Fill : List α → β → Prop} {Fill' : List α → γ → Prop} {plain : ExceptT ε (StateM σ) β}
  {noted : ExceptT ε (StateM (σ × List (Visit ε α))) β}

theorem goes_pure {x : β} (h : Fill [] x) : Goes visit inner [] Fill (pure x) (pure x) := by
  intro s before notes
  have hvisits : Visits visit s (before ++ inner) [] [] (.ok (before ++ inner ++ [])) s := by
    rw [List.append_nil]
    exact .done
  refine ⟨.ok x, s, [], .ok hvisits h, rfl, ?_⟩
  rw [List.append_nil]
  rfl

/-- What a computation does behind no visits it does behind any. -/
theorem Goes.behind (h : Goes visit [] nodes Fill plain noted) (inner : List α) :
    Goes visit inner nodes Fill plain noted := by
  intro s before notes
  have hgoes := h s (before ++ inner) notes
  rw [List.append_nil] at hgoes
  exact hgoes

/-- **Two computations, one behind the other**, visit the nodes of the first and, unless it fails,
    those of the second. -/
theorem Goes.bind {next : β → ExceptT ε (StateM σ) γ}
    {next' : β → ExceptT ε (StateM (σ × List (Visit ε α))) γ}
    (h : Goes visit inner nodes Fill plain noted)
    (hnext : ∀ results x, Fill results x → Goes visit (inner ++ results) more
      (fun rest y => Fill' (results ++ rest) y) (next x) (next' x)) :
    Goes visit inner (nodes ++ more) Fill' (plain >>= next) (noted >>= next') := by
  intro s before notes
  obtain ⟨outcome, s₁, log, hfinishes, hplain, hnoted⟩ := h s before notes
  cases hfinishes with
  -- a walk that has stopped visits nothing more
  | error hvisits =>
      exact ⟨_, s₁, log, .error (hvisits.append_failed more), run_bind_error hplain,
        run_bind_error hnoted⟩
  | @ok results x _ hvisits hfill =>
      rw [List.append_assoc] at hvisits
      obtain ⟨outcome', s', log', hfinishes', hplain', hnoted'⟩ :=
        hnext results x hfill s₁ before (notes ++ log)
      refine ⟨outcome', s', log ++ log', ?_, (run_bind_ok hplain).trans hplain', ?_⟩
      · -- the second part goes on with the results of the first
        cases hfinishes' with
        | error hvisits' => exact .error (hvisits.append hvisits')
        | @ok rest y _ hvisits' hfill' =>
            refine .ok ?_ hfill'
            rw [← List.append_assoc, List.append_assoc before inner results]
            exact hvisits.append hvisits'
      · rw [← List.append_assoc]
        exact (run_bind_ok hnoted).trans hnoted'

/-- What is made of the outcome of a computation makes no visits. -/
theorem Goes.map {f : β → γ} (h : Goes visit inner nodes Fill plain noted)
    (hfill : ∀ results x, Fill results x → Fill' results (f x)) :
    Goes visit inner nodes Fill' (plain >>= fun x => pure (f x)) (noted >>= fun x => pure (f x)) := by
  have hboth : Goes visit inner (nodes ++ []) Fill' (plain >>= fun x => pure (f x))
      (noted >>= fun x => pure (f x)) := by
    apply h.bind
    intro results x hx
    apply goes_pure
    rw [List.append_nil]
    exact hfill results x hx
  rw [List.append_nil] at hboth
  exact hboth

/-- The visit of a node, behind the visits of the nodes in its fields. -/
theorem goes_visit {tag : String} {fields : List (String × Tree)} {ws : List (String × Walked α)}
    (h : FilledFields fields inner ws) :
    Goes visit inner [(tag, fields)] (fun results result => results = [result]) (visit tag ws)
      (recorded visit tag ws) := by
  intro s before notes
  generalize hvisit : (visit tag ws).run.run s = after
  obtain ⟨outcome, s'⟩ := after
  -- the note is taken when the visit is over, whatever came out of it
  have hnoted : (recorded visit tag ws).run.run (s, notes) =
      (outcome, s', notes ++ [⟨tag, ws, outcome⟩]) := by
    show (((visit tag ws).run.run s).1, ((visit tag ws).run.run s).2,
      notes ++ [⟨tag, ws, ((visit tag ws).run.run s).1⟩]) = _
    rw [hvisit]
  cases outcome with
  | ok result =>
      exact ⟨.ok result, s', _, .ok (.go rfl h hvisit .done) rfl, rfl, hnoted⟩
  | error e => exact ⟨.error e, s', _, .error (.stop rfl h hvisit), rfl, hnoted⟩

end Goes

/-! ## §5. Walks -/

namespace Tree

mutual

/-- **A walk visits the nodes of the tree in their order**, and leaves the tree filled with the
    results. -/
theorem goes_walk (visit : Visitor σ ε α) : ∀ t : Tree,
    Goes visit [] t.nodes (Filled t) (t.walk visit) (t.walk (recorded visit))
  | .seq items => by
      rw [nodes, walk, walk]
      exact (goes_walkItems visit items).map fun _ _ h => .seq h
  | .node tag fields => by
      -- the results of the nodes in the fields are the last ones when the node is visited
      rw [nodes, walk, walk]
      apply (goes_walkFields visit fields).bind
      intro inner ws hfields
      apply (goes_visit hfields).map
      intro results result hresult
      rw [hresult]
      exact .node hfields
  | .leaf value => by
      rw [nodes, walk, walk]
      exact goes_pure .leaf

/-- A walk of items visits their nodes from left to right. -/
theorem goes_walkItems (visit : Visitor σ ε α) : ∀ items : List Tree,
    Goes visit [] (nodesOfItems items) (FilledItems items) (walkItems visit items)
      (walkItems (recorded visit) items)
  | [] => by
      rw [nodesOfItems, walkItems, walkItems]
      exact goes_pure .nil
  | t :: items => by
      rw [nodesOfItems, walkItems, walkItems]
      apply (goes_walk visit t).bind
      intro first w hw
      exact ((goes_walkItems visit items).behind _).map fun _ _ hws => .cons hw hws

/-- A walk of fields visits their nodes in the order of the fields. -/
theorem goes_walkFields (visit : Visitor σ ε α) : ∀ fields : List (String × Tree),
    Goes visit [] (nodesOfFields fields) (FilledFields fields) (walkFields visit fields)
      (walkFields (recorded visit) fields)
  | [] => by
      rw [nodesOfFields, walkFields, walkFields]
      exact goes_pure .nil
  | (name, t) :: fields => by
      rw [nodesOfFields, walkFields, walkFields]
      apply (goes_walk visit t).bind
      intro first w hw
      exact ((goes_walkFields visit fields).behind _).map fun _ _ hws => .cons hw hws

end

end Tree

/-- An account of a walk from a state: the visits it made, how it ended and the state it left. -/
structure Account (visit : Visitor σ ε α) (t : Tree) (s : σ) (log : List (Visit ε α))
    (outcome : Except ε (Walked α)) (s' : σ) : Prop where
  /-- The nodes are visited in their order, each from the state that the visit before has left and
      with what the visits before have made of its fields, until a visit fails. -/
  inOrder : ∃ results, Visits visit s [] t.nodes log results s'
  /-- The visits are of the first nodes, and show their tags and the names of their fields. -/
  isPrefix : log.map Visit.head <+: t.nodes.map headOf
  /-- The walk succeeds if and only if all nodes are visited, and no visit fails. -/
  whole : (∃ w, outcome = .ok w) ↔
    (log.map Visit.head = t.nodes.map headOf ∧ log.length = t.nodeCount) ∧ ∀ v ∈ log, v.Succeeds
  /-- What is left then is the tree with the results in place of its nodes. -/
  filled : ∀ w, outcome = .ok w →
    ∃ results, log.map Visit.outcome = results.map .ok ∧ Filled t results w
  /-- Otherwise the last visit is the first that failed, and the walk failed as it did. -/
  stopped : ∀ e, outcome = .error e →
    ∃ earlier v, log = earlier ++ [v] ∧ v.outcome = .error e ∧ ∀ u ∈ earlier, u.Succeeds

section Account

variable {visit : Visitor σ ε α} {t : Tree} {s s' : σ} {log : List (Visit ε α)}

/-- The account of a walk in which no visit fails. -/
theorem Account.of_ok {results : List α} {w : Walked α}
    (h : Visits visit s [] t.nodes log (.ok results) s') (hfilled : Filled t results w) :
    Account visit t s log (.ok w) s' := by
  obtain ⟨hlength, results', hresults, houtcomes⟩ := Visits.of_ok h
  obtain rfl : results = results' := hresults
  -- the outcomes are the results, none of which is an error
  have hsucceed : ∀ v ∈ log, v.Succeeds := by
    intro v hv
    have hmem : v.outcome ∈ results.map Except.ok := by
      rw [← houtcomes]
      exact List.mem_map_of_mem hv
    obtain ⟨result, -, hresult⟩ := List.mem_map.1 hmem
    exact ⟨result, hresult.symm⟩
  -- as many visits as nodes, so the list of visits goes to its end
  have hheads : log.map Visit.head = t.nodes.map headOf := by
    apply h.heads_isPrefix.eq_of_length
    rw [List.length_map, List.length_map]
    exact hlength
  rw [Tree.length_nodes] at hlength
  refine ⟨⟨_, h⟩, h.heads_isPrefix, ⟨?_, ?_⟩, ?_, ?_⟩
  · intro _
    exact ⟨⟨hheads, hlength⟩, hsucceed⟩
  · intro _
    exact ⟨w, rfl⟩
  · intro w' hw
    obtain rfl := Except.ok.inj hw
    exact ⟨results, houtcomes, hfilled⟩
  · intro e he
    exact absurd he (by simp)

/-- The account of a walk in which a visit fails. -/
theorem Account.of_error {e : ε} (h : Visits visit s [] t.nodes log (.error e) s') :
    Account visit t s log (.error e) s' := by
  obtain ⟨earlier, v, rfl, hv, hearlier⟩ := Visits.of_error h
  -- the last visit is the one that failed
  have hfails : ¬ v.Succeeds := by
    rintro ⟨result, hresult⟩
    rw [hv] at hresult
    exact absurd hresult (by simp)
  refine ⟨⟨_, h⟩, h.heads_isPrefix, ⟨?_, ?_⟩, ?_, ?_⟩
  · rintro ⟨w, hw⟩
    exact absurd hw (by simp)
  · rintro ⟨-, hall⟩
    exact absurd (hall v (by simp)) hfails
  · intro w hw
    exact absurd hw (by simp)
  · intro e' he
    obtain rfl := Except.error.inj he
    exact ⟨earlier, v, rfl, hv, hearlier⟩

end Account

/-- **VISITS GO FROM THE LEAVES UP, ONCE FOR EACH NODE, UNTIL ONE FAILS.**  Whatever the visits do,
    writing them down changes neither the outcome of a walk nor the state it leaves, and what is
    written down is a full account of the walk. -/
theorem Tree.walk_account (visit : Visitor σ ε α) (t : Tree) (s : σ) :
    (t.walk (recorded visit)).run.run (s, []) =
        (((t.walk visit).run.run s).1, ((t.walk visit).run.run s).2, t.visits visit s) ∧
      Account visit t s (t.visits visit s) ((t.walk visit).run.run s).1
        ((t.walk visit).run.run s).2 := by
  obtain ⟨outcome, s', log, hfinishes, hplain, hnoted⟩ := t.goes_walk visit s [] []
  have hlog : t.visits visit s = log := by
    rw [Tree.visits, hnoted]
    rfl
  rw [hplain, hlog]
  refine ⟨hnoted, ?_⟩
  cases hfinishes with
  | ok hvisits hfilled => exact Account.of_ok hvisits hfilled
  | error hvisits => exact Account.of_error hvisits

/-- All nodes may be visited and the walk fail: the visit of the root is the last one. -/
theorem Tree.walk_fails_at_root :
    let refuse : Visitor Unit Unit Unit := fun _ _ => throw ()
    let t : Tree := .node "ReadExpression" []
    ¬ ((∃ w, ((t.walk refuse).run.run ()).1 = .ok w) ↔ (t.visits refuse ()).length = t.nodeCount) := by
  intro refuse t h
  have hlength : (t.visits refuse ()).length = t.nodeCount := by decide
  obtain ⟨w, hw⟩ := h.2 hlength
  have hfails : ((t.walk refuse).run.run ()).1 = .error () := rfl
  rw [hfails] at hw
  exact absurd hw (by simp)

end TinyLang
