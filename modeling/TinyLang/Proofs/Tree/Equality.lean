/-
  TinyLang.Proofs.Tree.Equality — equality of trees is an equivalence.

  Trees and values are compared name by name, whatever the order in which names stand.  The
  comparison counts the names of both sides and looks up those of the first in the second,
  which looks one-sided, but where names are distinct nothing is left over:

      (node t as).same (node u bs)  ↔  t = u  and  find? n as, find? n bs agree for every name n

  In this form, symmetry and transitivity go down to the fields.  Numbers are finite, so each
  is equal to itself.
-/

import Mathlib.Data.List.Forall2
import Mathlib.Data.List.Perm.Subperm
import TinyLang.Proofs.Tree.Distinct

namespace TinyLang

/-! ## §1. Related items and related names -/

section Items

variable {α β γ : Type} {R : α → β → Prop}

theorem forall₂_imp_mem {S : α → β → Prop} {as : List α} {bs : List β}
    (h : List.Forall₂ R as bs) (himp : ∀ a ∈ as, ∀ b ∈ bs, R a b → S a b) :
    List.Forall₂ S as bs := by
  induction h with
  | nil => exact .nil
  | cons hab _ ih =>
      refine .cons (himp _ List.mem_cons_self _ List.mem_cons_self hab) (ih ?_)
      intro a ha b hb
      exact himp a (List.mem_cons_of_mem _ ha) b (List.mem_cons_of_mem _ hb)

theorem forall₂_join_mem {S : γ → β → Prop} {T : α → γ → Prop} {as : List α} {bs : List β}
    {cs : List γ} (h : List.Forall₂ R as bs) (h' : List.Forall₂ S cs bs)
    (hjoin : ∀ a ∈ as, ∀ b ∈ bs, ∀ c ∈ cs, R a b → S c b → T a c) : List.Forall₂ T as cs := by
  induction h generalizing cs with
  | nil =>
      cases h' with
      | nil => exact .nil
  | cons hab _ ih =>
      cases h' with
      | cons hcb hrest =>
          refine .cons (hjoin _ List.mem_cons_self _ List.mem_cons_self _ List.mem_cons_self hab hcb)
            (ih hrest ?_)
          intro a ha b hb c hc
          exact hjoin a (List.mem_cons_of_mem _ ha) b (List.mem_cons_of_mem _ hb) c
            (List.mem_cons_of_mem _ hc)

/-- A comparison of lists that goes item by item, by its equations. -/
theorem compare_eq_true_iff {same : α → α → Bool} {compare : List α → List α → Bool}
    (hnil : compare [] [] = true) (hleft : ∀ b bs, compare [] (b :: bs) = false)
    (hright : ∀ a as, compare (a :: as) [] = false)
    (hcons : ∀ a as b bs, compare (a :: as) (b :: bs) = (same a b && compare as bs))
    {as bs : List α} :
    compare as bs = true ↔ List.Forall₂ (fun a b => same a b = true) as bs := by
  induction as generalizing bs with
  | nil =>
      cases bs with
      | nil => simp [hnil]
      | cons b bs => simp [hleft]
  | cons a as ih =>
      cases bs with
      | nil => simp [hright]
      | cons b bs => rw [hcons, Bool.and_eq_true, ih, List.forall₂_cons]

end Items

namespace Record

variable {α β γ : Type}

theorem mem_values {name : String} {value : α} {fields : List (String × α)}
    (h : (name, value) ∈ fields) : value ∈ values fields :=
  List.mem_map_of_mem h

theorem mem_values_of_find? {name : String} {value : α} {fields : List (String × α)}
    (h : find? name fields = some value) : value ∈ values fields :=
  mem_values (mem_of_find? h)

/-- Names that are found in another record are among its names. -/
theorem names_subset {as : List (String × α)} {bs : List (String × β)}
    (h : ∀ name a, find? name as = some a → ∃ b, find? name bs = some b) :
    names as ⊆ names bs := by
  intro name hname
  obtain ⟨a, ha⟩ := exists_find? hname
  obtain ⟨b, hb⟩ := h name a ha
  exact mem_names_of_find? hb

/-- A comparison of records that looks each name of the first up in the second, by its
    equations. -/
theorem compare_eq_true_iff {same : α → α → Bool}
    {compare : List (String × α) → List (String × α) → Bool}
    (hnil : ∀ bs, compare [] bs = true)
    (hcons : ∀ n a as bs, compare ((n, a) :: as) bs =
      ((find? n bs).any (same a) && compare as bs)) {as bs : List (String × α)} :
    compare as bs = true ↔
      ∀ field ∈ as, ∃ b, find? field.1 bs = some b ∧ same field.2 b = true := by
  induction as with
  | nil => simp [hnil]
  | cons field as ih =>
      obtain ⟨n, a⟩ := field
      rw [hcons, Bool.and_eq_true, ih, List.forall_mem_cons, Option.any_eq_true]

/-- Two records have the same names, and the values of a name are related. -/
def Rel (R : α → β → Prop) (as : List (String × α)) (bs : List (String × β)) : Prop :=
  ∀ name, Option.Rel R (find? name as) (find? name bs)

namespace Rel

variable {R : α → β → Prop} {as : List (String × α)} {bs : List (String × β)}

/-- What is found in one of two related records has a counterpart in the other. -/
theorem find?_some (h : Rel R as bs) {name : String} {a : α} (ha : find? name as = some a) :
    ∃ b, find? name bs = some b ∧ R a b := by
  have hname := h name
  rw [ha] at hname
  generalize find? name bs = found at hname
  cases hname with
  | some hab => exact ⟨_, rfl, hab⟩

/-- What is missing in one of two related records is missing in the other. -/
theorem find?_none (h : Rel R as bs) {name : String} (ha : find? name as = none) :
    find? name bs = none := by
  have hname := h name
  rw [ha] at hname
  generalize find? name bs = found at hname
  cases hname with
  | none => rfl

theorem flip (h : Rel R as bs) : Rel (fun b a => R a b) bs as := by
  intro name
  have hname := h name
  generalize find? name as = a at hname ⊢
  generalize find? name bs = b at hname ⊢
  cases hname with
  | some hab => exact .some hab
  | none => exact .none

/-- Two records that are both related to a third are related. -/
theorem join_mem {S : γ → β → Prop} {T : α → γ → Prop} {cs : List (String × γ)}
    (h : Rel R as bs) (h' : Rel S cs bs)
    (hjoin : ∀ a ∈ values as, ∀ b ∈ values bs, ∀ c ∈ values cs, R a b → S c b → T a c) :
    Rel T as cs := by
  intro name
  cases has : find? name as with
  | none =>
      rw [h'.flip.find?_none (h.find?_none has)]
      exact .none
  | some a =>
      obtain ⟨b, hb, hR⟩ := h.find?_some has
      obtain ⟨c, hc, hS⟩ := h'.flip.find?_some hb
      rw [hc]
      exact .some (hjoin a (mem_values_of_find? has) b (mem_values_of_find? hb) c
        (mem_values_of_find? hc) hR hS)

theorem imp_mem {S : α → β → Prop} (h : Rel R as bs)
    (himp : ∀ a ∈ values as, ∀ b ∈ values bs, R a b → S a b) : Rel S as bs := by
  intro name
  cases has : find? name as with
  | none =>
      rw [h.find?_none has]
      exact .none
  | some a =>
      obtain ⟨b, hb, hR⟩ := h.find?_some has
      rw [hb]
      exact .some (himp a (mem_values_of_find? has) b (mem_values_of_find? hb) hR)

/-- Related records with distinct names are of the same length. -/
theorem length_eq (h : Rel R as bs) (has : (names as).Nodup) (hbs : (names bs).Nodup) :
    as.length = bs.length := by
  have hsubset : names as ⊆ names bs :=
    names_subset fun _ _ ha => (h.find?_some ha).imp fun _ => And.left
  have hsubset' : names bs ⊆ names as :=
    names_subset fun _ _ hb => (h.flip.find?_some hb).imp fun _ => And.left
  have hle := (List.subperm_of_subset has hsubset).length_le
  have hge := (List.subperm_of_subset hbs hsubset').length_le
  rw [length_names, length_names] at hle hge
  exact Nat.le_antisymm hle hge

/-- **A comparison of one side is one of both**: if the records have as many names and those of
    the first are all in the second, then those of the second are all in the first. -/
theorem of_mem (has : (names as).Nodup) (hlength : as.length = bs.length)
    (h : ∀ field ∈ as, ∃ b, find? field.1 bs = some b ∧ R field.2 b) : Rel R as bs := by
  have hsubset : names as ⊆ names bs :=
    names_subset fun _ _ ha => (h _ (mem_of_find? ha)).imp fun _ => And.left
  -- as many names on both sides and all of one among the other, so they are the same names
  have hperm : (names as).Perm (names bs) := by
    apply (List.subperm_of_subset has hsubset).perm_of_length_le
    rw [length_names, length_names]
    exact Nat.le_of_eq hlength.symm
  intro name
  cases hfind : find? name as with
  | some a =>
      obtain ⟨b, hb, hab⟩ := h (name, a) (mem_of_find? hfind)
      rw [hb]
      exact .some hab
  | none =>
      have hname : name ∉ names bs := by
        intro hmem
        obtain ⟨a, ha⟩ := exists_find? (hperm.mem_iff.2 hmem)
        rw [hfind] at ha
        exact absurd ha (by simp)
      rw [find?_eq_none hname]
      exact .none

/-- Records are compared by counting the names of both and looking up those of the first. -/
theorem iff_mem (has : (names as).Nodup) (hbs : (names bs).Nodup) :
    Rel R as bs ↔ as.length = bs.length ∧
      ∀ field ∈ as, ∃ b, find? field.1 bs = some b ∧ R field.2 b := by
  constructor
  · intro h
    refine ⟨h.length_eq has hbs, ?_⟩
    intro field hmem
    exact h.find?_some (find?_of_mem has hmem)
  · rintro ⟨hlength, hfields⟩
    exact of_mem has hlength hfields

/-- A record and the same record in another order. -/
theorem of_perm {R : α → α → Prop} {bs : List (String × α)} (has : (names as).Nodup)
    (hperm : as.Perm bs) (h : ∀ a ∈ values as, R a a) : Rel R as bs := by
  have hbs : (names bs).Nodup := (hperm.map Prod.fst).nodup_iff.1 has
  apply of_mem has hperm.length_eq
  rintro ⟨name, a⟩ hmem
  exact ⟨a, find?_of_mem hbs (hperm.mem_iff.1 hmem), h a (mem_values hmem)⟩

end Rel

end Record

/-! ## §2. Numbers -/

/-- Two numbers are the same if neither is NaN and they are equal or both zero. -/
theorem Binary64.same_iff {x y : Binary64} :
    x.same y = true ↔ x.isNaN = false ∧ y.isNaN = false ∧
      (x = y ∨ x.isZero = true ∧ y.isZero = true) := by
  have hbits : x.bits = y.bits ↔ x = y := by
    cases x
    cases y
    simp
  simp only [Binary64.same, Bool.and_eq_true, Bool.or_eq_true, Bool.not_eq_true', beq_iff_eq, hbits,
    and_assoc]

/-- Numbers that are equal to a third are equal. -/
theorem Binary64.same_join {x y z : Binary64} (h : x.same y = true) (h' : z.same y = true) :
    x.same z = true := by
  obtain ⟨hx, -, hxy⟩ := same_iff.1 h
  obtain ⟨hz, -, hzy⟩ := same_iff.1 h'
  refine same_iff.2 ⟨hx, hz, ?_⟩
  rcases hxy with rfl | ⟨hzero, hzero'⟩
  · exact hzy.imp Eq.symm And.symm
  · rcases hzy with rfl | ⟨hzero', -⟩
    · exact .inr ⟨hzero, hzero'⟩
    · exact .inr ⟨hzero, hzero'⟩

/-- Numbers that are the same as a third are the same. -/
theorem Json.Number.same_join {l m n : Number} (h : l.same m = true) (h' : n.same m = true) :
    l.same n = true := by
  cases l <;> cases m <;> cases n
  case integer.integer.integer =>
    exact beq_iff_eq.2 ((beq_iff_eq.1 h).trans (beq_iff_eq.1 h').symm)
  case float.float.float => exact Binary64.same_join h h'
  all_goals first
    | exact absurd h Bool.false_ne_true
    | exact absurd h' Bool.false_ne_true

/-! ## §3. Values -/

namespace Json

/-- Equality, as a relation. -/
def Same (a b : Json) : Prop := a.same b = true

/-- The values right below a value. -/
def directParts : Json → List Json
  | .array items => items
  | .object members => Record.values members
  | _ => []

mutual

/-- Induction on values: what holds of a value when it holds of all right below holds of all. -/
theorem induct {P : Json → Prop} (step : ∀ v, (∀ w ∈ v.directParts, P w) → P v) : ∀ v, P v
  | .array items => step _ (inductItems step items)
  | .object members => step _ (inductMembers step members)
  | .null | .bool _ | .number _ | .string _ => step _ fun _ hw => absurd hw List.not_mem_nil

theorem inductItems {P : Json → Prop} (step : ∀ v, (∀ w ∈ v.directParts, P w) → P v) :
    ∀ items : List Json, ∀ w ∈ items, P w
  | [] => fun _ hw => absurd hw List.not_mem_nil
  | v :: items => List.forall_mem_cons.2 ⟨induct step v, inductItems step items⟩

theorem inductMembers {P : Json → Prop} (step : ∀ v, (∀ w ∈ v.directParts, P w) → P v) :
    ∀ members : List (String × Json), ∀ w ∈ Record.values members, P w
  | [] => fun _ hw => absurd hw List.not_mem_nil
  | (_, v) :: members => List.forall_mem_cons.2 ⟨induct step v, inductMembers step members⟩

end

/-- Items are the same if they are so one by one. -/
theorem sameItems_iff {as bs : List Json} : sameItems as bs = true ↔ List.Forall₂ Same as bs :=
  compare_eq_true_iff rfl (fun _ _ => rfl) (fun _ _ => rfl) fun _ _ _ _ => rfl

/-- Members are the same if each is found on the other side, with a value that is the same. -/
theorem sameMembers_iff {as bs : List (String × Json)} :
    sameMembers as bs = true ↔
      ∀ member ∈ as, ∃ b, Record.find? member.1 bs = some b ∧ member.2.Same b := by
  refine Record.compare_eq_true_iff (fun _ => rfl) ?_
  intro n a as bs
  rw [sameMembers]
  cases Record.find? n bs <;> rfl

/-- Objects are the same when each name has the same value in both. -/
theorem same_object_iff {as bs : List (String × Json)} (has : (Record.names as).Nodup)
    (hbs : (Record.names bs).Nodup) :
    (object as).Same (.object bs) ↔ Record.Rel Same as bs := by
  rw [Same, same, Bool.and_eq_true, beq_iff_eq, sameMembers_iff, Record.Rel.iff_mem has hbs]

/-- **Values that are the same as a third are the same.**  As each is the same as itself, this is
    both symmetry and transitivity. -/
theorem Same.join {a b c : Json} (ha : a.Distinct) (hb : b.Distinct) (hc : c.Distinct)
    (h : a.Same b) (h' : c.Same b) : a.Same c := by
  induction a using induct generalizing b c with
  | step a ih =>
      cases a <;> cases b
      case null.null => cases c <;> first | rfl | exact absurd h' Bool.false_ne_true
      case bool.bool =>
        cases c
        case bool => exact beq_iff_eq.2 ((beq_iff_eq.1 h).trans (beq_iff_eq.1 h').symm)
        all_goals exact absurd h' Bool.false_ne_true
      case string.string =>
        cases c
        case string => exact beq_iff_eq.2 ((beq_iff_eq.1 h).trans (beq_iff_eq.1 h').symm)
        all_goals exact absurd h' Bool.false_ne_true
      case number.number =>
        cases c
        case number => exact Number.same_join h h'
        all_goals exact absurd h' Bool.false_ne_true
      case array.array as bs =>
        cases c
        case array cs =>
          have has := distinctItems_iff.1 ha
          have hbs := distinctItems_iff.1 hb
          have hcs := distinctItems_iff.1 hc
          refine sameItems_iff.2 (forall₂_join_mem (sameItems_iff.1 h) (sameItems_iff.1 h') ?_)
          intro u hu v hv w hw huv hwv
          exact ih u hu (has u hu) (hbs v hv) (hcs w hw) huv hwv
        all_goals exact absurd h' Bool.false_ne_true
      case object.object as bs =>
        cases c
        case object cs =>
          have has := distinctMembers_iff.1 ha.2
          have hbs := distinctMembers_iff.1 hb.2
          have hcs := distinctMembers_iff.1 hc.2
          refine (same_object_iff ha.1 hc.1).2 (((same_object_iff ha.1 hb.1).1 h).join_mem
            ((same_object_iff hc.1 hb.1).1 h') ?_)
          intro u hu v hv w hw huv hwv
          exact ih u hu (has u hu) (hbs v hv) (hcs w hw) huv hwv
        all_goals exact absurd h' Bool.false_ne_true
      all_goals exact absurd h Bool.false_ne_true

/-- Objects with the same members in another order are the same. -/
theorem same_object_perm {as bs : List (String × Json)} (ha : (object as).Distinct)
    (h : as.Perm bs) : (object as).Same (.object bs) := by
  have hbs : (Record.names bs).Nodup := (h.map Prod.fst).nodup_iff.1 ha.1
  refine (same_object_iff ha.1 hbs).2 (.of_perm ha.1 h ?_)
  intro v hv
  exact same_self v (distinctMembers_iff.1 ha.2 v hv)

end Json

/-! ## §4. Trees -/

namespace Tree

/-- Equality, as a relation. -/
def Same (a b : Tree) : Prop := a.same b = true

/-- The trees right below a tree. -/
def directParts : Tree → List Tree
  | .seq items => items
  | .node _ fields => Record.values fields
  | .leaf _ => []

mutual

/-- Induction on trees: what holds of a tree when it holds of all right below holds of all. -/
theorem induct {P : Tree → Prop} (step : ∀ t, (∀ u ∈ t.directParts, P u) → P t) : ∀ t, P t
  | .seq items => step _ (inductItems step items)
  | .node _ fields => step _ (inductFields step fields)
  | .leaf _ => step _ fun _ hu => absurd hu List.not_mem_nil

theorem inductItems {P : Tree → Prop} (step : ∀ t, (∀ u ∈ t.directParts, P u) → P t) :
    ∀ items : List Tree, ∀ u ∈ items, P u
  | [] => fun _ hu => absurd hu List.not_mem_nil
  | t :: items => List.forall_mem_cons.2 ⟨induct step t, inductItems step items⟩

theorem inductFields {P : Tree → Prop} (step : ∀ t, (∀ u ∈ t.directParts, P u) → P t) :
    ∀ fields : List (String × Tree), ∀ u ∈ Record.values fields, P u
  | [] => fun _ hu => absurd hu List.not_mem_nil
  | (_, t) :: fields => List.forall_mem_cons.2 ⟨induct step t, inductFields step fields⟩

end

theorem sameItems_iff {as bs : List Tree} : sameItems as bs = true ↔ List.Forall₂ Same as bs :=
  compare_eq_true_iff rfl (fun _ _ => rfl) (fun _ _ => rfl) fun _ _ _ _ => rfl

/-- Fields are the same if each is found on the other side, with a tree that is the same. -/
theorem sameFields_iff {as bs : List (String × Tree)} :
    sameFields as bs = true ↔
      ∀ field ∈ as, ∃ b, Record.find? field.1 bs = some b ∧ field.2.Same b := by
  refine Record.compare_eq_true_iff (fun _ => rfl) ?_
  intro n a as bs
  rw [sameFields]
  cases Record.find? n bs <;> rfl

/-- Nodes are the same when they have one tag and each name has the same value in both. -/
theorem same_node_iff {t u : String} {as bs : List (String × Tree)}
    (has : (Record.names as).Nodup) (hbs : (Record.names bs).Nodup) :
    (node t as).Same (.node u bs) ↔ t = u ∧ Record.Rel Same as bs := by
  rw [Same, same, Bool.and_eq_true, Bool.and_eq_true, beq_iff_eq, beq_iff_eq, sameFields_iff,
    and_assoc, Record.Rel.iff_mem has hbs]

/-- A tree with distinct names is the same as itself; with a name twice the second field would be
    compared with the first. -/
theorem Same.refl {t : Tree} (ht : t.Distinct) : t.Same t := by
  induction t using induct with
  | step t ih =>
      cases t with
      | seq items =>
          have hitems := distinctItems_iff.1 ht
          refine sameItems_iff.2 (List.forall₂_same.2 ?_)
          intro u hu
          exact ih u hu (hitems u hu)
      -- with distinct names each field finds itself
      | node tag fields =>
          have hfields := distinctFields_iff.1 ht.2
          refine (same_node_iff ht.1 ht.1).2 ⟨rfl, .of_perm ht.1 (.refl fields) ?_⟩
          intro u hu
          exact ih u hu (hfields u hu)
      | leaf value => exact value.same_self ht

/-- **Trees that are the same as a third are the same.** -/
theorem Same.join {a b c : Tree} (ha : a.Distinct) (hb : b.Distinct) (hc : c.Distinct)
    (h : a.Same b) (h' : c.Same b) : a.Same c := by
  induction a using induct generalizing b c with
  | step a ih =>
      cases a <;> cases b <;> cases c
      case seq.seq.seq as bs cs =>
        have has := distinctItems_iff.1 ha
        have hbs := distinctItems_iff.1 hb
        have hcs := distinctItems_iff.1 hc
        refine sameItems_iff.2 (forall₂_join_mem (sameItems_iff.1 h) (sameItems_iff.1 h') ?_)
        intro u hu v hv w hw huv hwv
        exact ih u hu (has u hu) (hbs v hv) (hcs w hw) huv hwv
      case node.node.node _ as _ bs _ cs =>
        have has := distinctFields_iff.1 ha.2
        have hbs := distinctFields_iff.1 hb.2
        have hcs := distinctFields_iff.1 hc.2
        obtain ⟨htag, hab⟩ := (same_node_iff ha.1 hb.1).1 h
        obtain ⟨htag', hcb⟩ := (same_node_iff hc.1 hb.1).1 h'
        refine (same_node_iff ha.1 hc.1).2 ⟨htag.trans htag'.symm, hab.join_mem hcb ?_⟩
        intro u hu v hv w hw huv hwv
        exact ih u hu (has u hu) (hbs v hv) (hcs w hw) huv hwv
      case leaf.leaf.leaf => exact Json.Same.join ha hb hc h h'
      all_goals first
        | exact absurd h Bool.false_ne_true
        | exact absurd h' Bool.false_ne_true

/-- Equality of trees with distinct names is an equivalence. -/
theorem same_equivalence : Equivalence fun a b : { t : Tree // t.Distinct } => a.1.Same b.1 := by
  have hsymm : ∀ {a b : { t : Tree // t.Distinct }}, a.1.Same b.1 → b.1.Same a.1 := by
    intro a b h
    exact Same.join b.2 b.2 a.2 (.refl b.2) h
  refine ⟨fun a => .refl a.2, hsymm, ?_⟩
  intro a b c h h'
  exact Same.join a.2 b.2 c.2 h (hsymm h')

/-- Nodes with the same fields in another order are the same. -/
theorem same_node_perm {tag : String} {as bs : List (String × Tree)} (ha : (node tag as).Distinct)
    (h : as.Perm bs) : (node tag as).Same (.node tag bs) := by
  have hbs : (Record.names bs).Nodup := (h.map Prod.fst).nodup_iff.1 ha.1
  refine (same_node_iff ha.1 hbs).2 ⟨rfl, .of_perm ha.1 h ?_⟩
  intro t ht
  exact .refl (distinctFields_iff.1 ha.2 t ht)

end Tree

end TinyLang
