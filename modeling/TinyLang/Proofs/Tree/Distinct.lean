/-
  TinyLang.Proofs.Tree.Distinct — trees that have each name once.

  Nodes and objects are lists of names and values, and a list could hold a name twice.  None
  does that was read, since the reader puts members of one name together:

      parse? text = some v  →  (ofJson v).Distinct
-/

import TinyLang.Proofs.Tree.Document

namespace TinyLang

/-! ## §1. Records -/

namespace Record

variable {α : Type}

/-- The values, in order. -/
def values (fields : List (String × α)) : List α := fields.map Prod.snd

/-- However members are put into a record, its names stay distinct. -/
theorem nodup_names_putAll (members : List (String × α)) {fields : List (String × α)}
    (h : (names fields).Nodup) : (names (putAll fields members)).Nodup := by
  induction members generalizing fields with
  | nil => exact h
  | cons member members ih => exact ih (nodup_names_put member.1 member.2 h)

/-- What holds of the values and of a new one holds of all that are left. -/
theorem forall_values_put {P : α → Prop} {name : String} {value : α} {fields : List (String × α)}
    (hvalue : P value) (h : ∀ v ∈ values fields, P v) : ∀ v ∈ values (put name value fields), P v := by
  induction fields with
  | nil => exact List.forall_mem_singleton.2 hvalue
  | cons field fields ih =>
      obtain ⟨n, v⟩ := field
      obtain ⟨hv, hrest⟩ := List.forall_mem_cons.1 h
      rw [put]
      by_cases hn : n = name
      · rw [if_pos hn]
        exact List.forall_mem_cons.2 ⟨hvalue, hrest⟩
      · rw [if_neg hn]
        exact List.forall_mem_cons.2 ⟨hv, ih hrest⟩

theorem forall_values_putAll {P : α → Prop} {members fields : List (String × α)}
    (hmembers : ∀ v ∈ values members, P v) (h : ∀ v ∈ values fields, P v) :
    ∀ v ∈ values (putAll fields members), P v := by
  induction members generalizing fields with
  | nil => exact h
  | cons member members ih =>
      obtain ⟨hmember, hrest⟩ := List.forall_mem_cons.1 hmembers
      exact ih hrest (forall_values_put hmember h)

end Record

/-! ## §2. Values that are read -/

namespace Json

theorem distinctItems_iff {items : List Json} :
    DistinctItems items ↔ ∀ v ∈ items, v.Distinct := by
  induction items with
  | nil => simp [DistinctItems]
  | cons v items ih => rw [DistinctItems, ih, List.forall_mem_cons]

/-- Members are distinct inside if each value is. -/
theorem distinctMembers_iff {members : List (String × Json)} :
    DistinctMembers members ↔ ∀ v ∈ Record.values members, v.Distinct := by
  induction members with
  | nil => simp [DistinctMembers, Record.values]
  | cons member members ih =>
      obtain ⟨n, v⟩ := member
      rw [DistinctMembers, ih]
      exact List.forall_mem_cons.symm

section Lists

variable {α : Type} {P : α → Prop}

/-- What holds of all that one reader gives holds of all items of an array read with it. -/
theorem items?_forall {item : List Char → Option (α × List Char)}
    (h : ∀ text x rest, item text = some (x, rest) → P x) {bound : Nat} {text rest : List Char}
    {xs : List α} (hread : items? item bound text = some (xs, rest)) : ∀ x ∈ xs, P x := by
  fun_induction items? item bound text generalizing xs rest with
  | case1 =>
      obtain ⟨rfl, -⟩ := Prod.mk.inj (Option.some.inj hread)
      exact fun _ hx => absurd hx List.not_mem_nil
  | case2 bound text tail _ ih =>
      simp only [Option.bind_eq_bind, Option.bind_eq_some_iff] at hread
      obtain ⟨⟨x, tail₁⟩, hitem, ⟨ys, tail₂⟩, hitems, hread⟩ := hread
      obtain ⟨rfl, -⟩ := Prod.mk.inj (Option.some.inj hread)
      exact List.forall_mem_cons.2 ⟨h _ _ _ hitem, ih _ hitems⟩
  | case3 => exact absurd hread (by simp)

/-- What every item that is read has, the array has throughout. -/
theorem arrayOf?_forall {item : List Char → Option (α × List Char)}
    (h : ∀ text x rest, item text = some (x, rest) → P x) {text rest : List Char}
    {xs : List α} (hread : arrayOf? item text = some (xs, rest)) : ∀ x ∈ xs, P x := by
  unfold arrayOf? at hread
  split at hread
  · obtain ⟨rfl, -⟩ := Prod.mk.inj (Option.some.inj hread)
    exact fun _ hx => absurd hx List.not_mem_nil
  · simp only [Option.bind_eq_bind, Option.bind_eq_some_iff] at hread
    obtain ⟨⟨x, tail₁⟩, hitem, ⟨ys, tail₂⟩, hitems, hread⟩ := hread
    obtain ⟨rfl, -⟩ := Prod.mk.inj (Option.some.inj hread)
    exact List.forall_mem_cons.2 ⟨h _ _ _ hitem, items?_forall h hitems⟩

theorem member?_value {read : MemberReader α}
    (h : ∀ name text x rest, read.value name text = some (x, rest) → P x) {text rest : List Char}
    {member : String × α} (hread : member? read text = some (member, rest)) : P member.2 := by
  unfold member? at hread
  split at hread
  · simp only [Option.bind_eq_bind, Option.bind_eq_some_iff] at hread
    obtain ⟨⟨name, tail⟩, -, hread⟩ := hread
    split at hread
    · simp only [Option.bind_eq_some_iff] at hread
      obtain ⟨⟨x, tail'⟩, hvalue, hread⟩ := hread
      obtain ⟨rfl, -⟩ := Prod.mk.inj (Option.some.inj hread)
      exact h _ _ _ _ hvalue
    · exact absurd hread (by simp)
  · exact absurd hread (by simp)

/-- What every value that is read has, the members have throughout. -/
theorem members?_forall {read : MemberReader α}
    (h : ∀ name text x rest, read.value name text = some (x, rest) → P x) {bound : Nat}
    {text rest : List Char} {ms : List (String × α)}
    (hread : members? read bound text = some (ms, rest)) : ∀ x ∈ Record.values ms, P x := by
  fun_induction members? read bound text generalizing ms rest with
  | case1 =>
      obtain ⟨rfl, -⟩ := Prod.mk.inj (Option.some.inj hread)
      exact fun _ hx => absurd hx List.not_mem_nil
  | case2 bound text tail _ ih =>
      simp only [Option.bind_eq_bind, Option.bind_eq_some_iff] at hread
      obtain ⟨⟨m, tail₁⟩, hmember, ⟨ms', tail₂⟩, hmembers, hread⟩ := hread
      obtain ⟨rfl, -⟩ := Prod.mk.inj (Option.some.inj hread)
      exact List.forall_mem_cons.2 ⟨member?_value h hmember, ih _ hmembers⟩
  | case3 => exact absurd hread (by simp)

theorem objectOf?_forall {read : MemberReader α}
    (h : ∀ name text x rest, read.value name text = some (x, rest) → P x) {text rest : List Char}
    {ms : List (String × α)} (hread : objectOf? read text = some (ms, rest)) :
    ∀ x ∈ Record.values ms, P x := by
  unfold objectOf? at hread
  split at hread
  · obtain ⟨rfl, -⟩ := Prod.mk.inj (Option.some.inj hread)
    exact fun _ hx => absurd hx List.not_mem_nil
  · simp only [Option.bind_eq_bind, Option.bind_eq_some_iff] at hread
    obtain ⟨⟨m, tail₁⟩, hmember, ⟨ms', tail₂⟩, hmembers, hread⟩ := hread
    obtain ⟨rfl, -⟩ := Prod.mk.inj (Option.some.inj hread)
    exact List.forall_mem_cons.2 ⟨member?_value h hmember, members?_forall h hmembers⟩

end Lists
theorem distinct_scalar? {text rest : List Char} {v : Json} (h : scalar? text = some (v, rest)) :
    v.Distinct := by
  unfold scalar? at h
  split at h
  iterate 3
    · obtain ⟨rfl, -⟩ := Prod.mk.inj (Option.some.inj h)
      trivial
  · obtain ⟨⟨s, tail⟩, -, hv⟩ := Option.map_eq_some_iff.1 h
    obtain ⟨rfl, -⟩ := Prod.mk.inj hv
    trivial
  · obtain ⟨⟨n, tail⟩, -, hv⟩ := Option.map_eq_some_iff.1 h
    obtain ⟨rfl, -⟩ := Prod.mk.inj hv
    trivial

/-- **Every value that is read has distinct names at any depth**, since later members replace
    earlier ones. -/
theorem distinct_value? {depth : Nat} : ∀ {text rest : List Char} {v : Json},
    value? depth text = some (v, rest) → v.Distinct := by
  induction depth with
  | zero => exact distinct_scalar?
  | succ depth ih =>
      intro text rest v h
      rw [value?] at h
      split at h
      · obtain ⟨⟨xs, tail⟩, hread, hv⟩ := Option.map_eq_some_iff.1 h
        obtain ⟨rfl, -⟩ := Prod.mk.inj hv
        exact distinctItems_iff.2 (arrayOf?_forall (fun _ _ _ => ih) hread)
      · obtain ⟨⟨ms, tail⟩, hread, hv⟩ := Option.map_eq_some_iff.1 h
        obtain ⟨rfl, -⟩ := Prod.mk.inj hv
        -- a name that comes again replaces what it had, so no name comes twice
        have hvalues := objectOf?_forall (fun _ _ _ _ => ih) hread
        exact ⟨Record.nodup_names_putAll ms List.nodup_nil, distinctMembers_iff.2
          (Record.forall_values_putAll hvalues fun _ hx => absurd hx List.not_mem_nil)⟩
      · exact distinct_scalar? h

/-- No object of a value that was read has a name twice. -/
theorem distinct_parse? {text : String} {v : Json} (h : parse? text = some v) : v.Distinct := by
  unfold parse? complete? at h
  split at h
  next x rest hread =>
    split at h
    · obtain rfl := Option.some.inj h
      exact distinct_value? hread
    · exact absurd h (by simp)
  next => exact absurd h (by simp)

end Json

/-! ## §3. Trees -/

namespace Tree

mutual

/-- Whether no node of a tree, and no object in its leaves, has a name twice, as none has that was
    read. -/
def Distinct : Tree → Prop
  | .seq items => DistinctItems items
  | .node _ fields => (Record.names fields).Nodup ∧ DistinctFields fields
  | .leaf value => value.Distinct

/-- Whether no node of a list of trees has a name twice. -/
def DistinctItems : List Tree → Prop
  | [] => True
  | t :: items => t.Distinct ∧ DistinctItems items

/-- Whether no node of a list of fields has a name twice. -/
def DistinctFields : List (String × Tree) → Prop
  | [] => True
  | (_, t) :: fields => t.Distinct ∧ DistinctFields fields

end

theorem distinctItems_iff {items : List Tree} :
    DistinctItems items ↔ ∀ t ∈ items, t.Distinct := by
  induction items with
  | nil => simp [DistinctItems]
  | cons t items ih => rw [DistinctItems, ih, List.forall_mem_cons]

/-- Fields are distinct inside if each tree is. -/
theorem distinctFields_iff {fields : List (String × Tree)} :
    DistinctFields fields ↔ ∀ t ∈ Record.values fields, t.Distinct := by
  induction fields with
  | nil => simp [DistinctFields, Record.values]
  | cons field fields ih =>
      obtain ⟨n, t⟩ := field
      rw [DistinctFields, ih]
      exact List.forall_mem_cons.symm

mutual

/-- The tree of a value whose names are distinct. -/
theorem distinct_ofJson : ∀ v : Json, v.Distinct → (ofJson v).Distinct
  | .null, _ | .bool _, _ | .number _, _ | .string _, _ => trivial
  | .array items, h => distinct_ofItems items h
  | .object members, h => by
      rw [ofJson]
      cases Record.find? tagKey members with
      | none => exact h
      | some tag =>
          exact ⟨(List.nodup_cons.1 (nodup_ofMembers h.1)).2, distinct_ofMembers members h.2⟩

/-- The trees of distinct values are distinct. -/
theorem distinct_ofItems : ∀ items : List Json, Json.DistinctItems items →
    DistinctItems (ofItems items)
  | [], _ => trivial
  | v :: items, h => ⟨distinct_ofJson v h.1, distinct_ofItems items h.2⟩

theorem distinct_ofMembers : ∀ members : List (String × Json), Json.DistinctMembers members →
    DistinctFields (ofMembers members)
  | [], _ => trivial
  | (n, v) :: members, h => by
      rw [ofMembers]
      split
      · exact distinct_ofMembers members h.2
      · exact ⟨distinct_ofJson v h.1, distinct_ofMembers members h.2⟩

end

end Tree

end TinyLang
