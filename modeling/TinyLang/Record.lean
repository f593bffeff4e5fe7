/-
  TinyLang.Record — named values in the order in which they were first given.

  A record is a list of names and values.  Giving a value to a name that is there
  replaces the value in its place, and a new name goes to the end, so a record built by
  `Record.put` or `Record.ofMembers` has each name once:

      find? n (put m v r) = if n = m then some v else find? n r
-/

namespace TinyLang.Record

variable {α : Type}

/-- The value of a name. -/
def find? (name : String) : List (String × α) → Option α
  | [] => none
  | (n, v) :: rest => if n = name then some v else find? name rest

/-- Whether a name has a value. -/
def has (name : String) (fields : List (String × α)) : Bool := (find? name fields).isSome

/-- Gives a value to a name: in the name's place, or at the end if the name is new. -/
def put (name : String) (value : α) : List (String × α) → List (String × α)
  | [] => [(name, value)]
  | (n, v) :: rest => if n = name then (n, value) :: rest else (n, v) :: put name value rest

/-- Gives the values of a list of members to their names, one after the other. -/
def putAll (fields : List (String × α)) (members : List (String × α)) : List (String × α) :=
  members.foldl (fun fields (n, v) => put n v fields) fields

/-- The record of a list of members: a repeated name keeps its first place and takes its last
    value. -/
def ofMembers (members : List (String × α)) : List (String × α) := putAll [] members

/-- The names, in order. -/
def names (fields : List (String × α)) : List String := fields.map Prod.fst

/-! ## Reading back -/

theorem length_names (fields : List (String × α)) : (names fields).length = fields.length :=
  List.length_map _

@[simp] theorem find?_nil (name : String) : find? name ([] : List (String × α)) = none := rfl

/-- A name that is there keeps its place, and a new one goes to the end. -/
theorem names_put (name : String) (value : α) (fields : List (String × α)) :
    names (put name value fields) =
      if name ∈ names fields then names fields else names fields ++ [name] := by
  induction fields with
  | nil => simp [put, names]
  | cons field rest ih =>
    obtain ⟨n, v⟩ := field
    by_cases h : n = name
    · subst h
      simp [put, names]
    · have ih' := ih
      simp only [names] at ih' ⊢
      -- further back the name is replaced where it stands, or goes to the end
      by_cases hm : name ∈ rest.map Prod.fst
      · simp [put, h, ih', hm]
      · simp [put, h, ih', hm, Ne.symm h]

/-- Giving a value keeps the names apart. -/
theorem nodup_names_put (name : String) (value : α) {fields : List (String × α)}
    (h : (names fields).Nodup) : (names (put name value fields)).Nodup := by
  rw [names_put]
  split
  · exact h
  · rename_i hn
    rw [List.nodup_append]
    refine ⟨h, by simp, ?_⟩
    intro a ha b hb
    rw [List.mem_singleton] at hb
    intro hab
    exact hn (hb ▸ hab ▸ ha)

/-- What is not among the names is not found. -/
theorem find?_eq_none {name : String} {fields : List (String × α)} (h : name ∉ names fields) :
    find? name fields = none := by
  induction fields with
  | nil => rfl
  | cons field rest ih =>
    obtain ⟨n, v⟩ := field
    simp only [names, List.map_cons, List.mem_cons, not_or] at h
    rw [find?, if_neg (Ne.symm h.1)]
    exact ih h.2

/-- What is found is among the fields. -/
theorem mem_of_find? {name : String} {value : α} {fields : List (String × α)}
    (h : find? name fields = some value) : (name, value) ∈ fields := by
  induction fields with
  | nil => exact absurd h (by simp)
  | cons field rest ih =>
    obtain ⟨n, v⟩ := field
    rw [find?] at h
    by_cases hn : n = name
    · rw [if_pos hn] at h
      rw [hn, Option.some.inj h]
      exact List.mem_cons_self
    · rw [if_neg hn] at h
      exact List.mem_cons_of_mem _ (ih h)

theorem mem_names_of_find? {name : String} {value : α} {fields : List (String × α)}
    (h : find? name fields = some value) : name ∈ names fields :=
  List.mem_map_of_mem (mem_of_find? h)

/-- A name that is there is found. -/
theorem exists_find? {name : String} {fields : List (String × α)} (h : name ∈ names fields) :
    ∃ value, find? name fields = some value := by
  induction fields with
  | nil => exact absurd h List.not_mem_nil
  | cons field rest ih =>
    obtain ⟨n, v⟩ := field
    rw [find?]
    by_cases hn : n = name
    · exact ⟨v, if_pos hn⟩
    · rw [if_neg hn]
      exact ih ((List.mem_cons.1 h).resolve_left (Ne.symm hn))

/-- Where names are distinct, each member is found by its name. -/
theorem find?_of_mem {name : String} {value : α} {fields : List (String × α)}
    (hn : (names fields).Nodup) (hm : (name, value) ∈ fields) : find? name fields = some value := by
  induction fields with
  | nil => exact absurd hm List.not_mem_nil
  | cons field rest ih =>
    obtain ⟨n, v⟩ := field
    rw [names, List.map_cons, List.nodup_cons] at hn
    rcases List.mem_cons.1 hm with heq | hrest
    · obtain ⟨rfl, rfl⟩ := Prod.mk.inj heq
      rw [find?, if_pos rfl]
    · -- names are distinct, so a field further back is not hidden by this one
      have hne : n ≠ name := by
        intro heq
        subst heq
        exact hn.1 (List.mem_map.2 ⟨_, hrest, rfl⟩)
      rw [find?, if_neg hne]
      exact ih hn.2 hrest

/-- A new name goes to the end. -/
theorem put_of_find?_none {name : String} {value : α} {fields : List (String × α)}
    (h : find? name fields = none) : put name value fields = fields ++ [(name, value)] := by
  induction fields with
  | nil => rfl
  | cons field rest ih =>
    obtain ⟨n, v⟩ := field
    by_cases hn : n = name
    · subst hn
      exact absurd h (by simp [find?])
    · simp only [find?, if_neg hn] at h
      simp only [put, if_neg hn, ih h, List.cons_append]

/-- Members with new and distinct names go behind the fields, in their order. -/
theorem putAll_eq_append (members fields : List (String × α))
    (h : (names (fields ++ members)).Nodup) : putAll fields members = fields ++ members := by
  induction members generalizing fields with
  | nil => rw [List.append_nil]; rfl
  | cons m members ih =>
    obtain ⟨n, v⟩ := m
    have hn : n ∉ names fields := by
      intro hmem
      rw [names, List.map_append, List.map_cons, List.nodup_append] at h
      exact h.2.2 n hmem n List.mem_cons_self rfl
    -- each member goes to the end in its turn, and is one of the fields for the next
    show putAll (put n v fields) members = _
    rw [put_of_find?_none (find?_eq_none hn),
      ih (fields ++ [(n, v)]) (by rw [List.append_assoc]; exact h), List.append_assoc]
    rfl

/-- Members with distinct names make up a record as they stand. -/
theorem ofMembers_eq_self {members : List (String × α)} (h : (names members).Nodup) :
    ofMembers members = members :=
  putAll_eq_append members [] h

end TinyLang.Record
