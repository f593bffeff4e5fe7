/-
  TinyLang.Proofs.Json.RoundTrip — values read back as written.

  Reading undoes writing for every value without floats that does not nest deeper than the
  reader follows, except that of several members of one name the first place and the last
  value are left:

      value? d (v.write style level ++ rest) = some (v.merged, rest)     when v.depth ≤ d
      v.merged = v                                                       when no name is repeated

  The style does not matter as long as it puts nothing but blanks between the parts.
-/

import TinyLang.Proofs.Json.Scalars

namespace TinyLang.Json

/-! ## §1. Values that read back -/

mutual

/-- How many arrays and objects of a value lie inside one another. -/
def depth : Json → Nat
  | .array items => 1 + depthItems items
  | .object members => 1 + depthMembers members
  | _ => 0

/-- How deep a list of values nests. -/
def depthItems : List Json → Nat
  | [] => 0
  | v :: items => max v.depth (depthItems items)

/-- How deep a list of members nests. -/
def depthMembers : List (String × Json) → Nat
  | [] => 0
  | (_, v) :: members => max v.depth (depthMembers members)

end

mutual

/-- Whether a value holds no float and no object with a repeated name. -/
def Exact : Json → Prop
  | .number (.float _) => False
  | .array items => ExactItems items
  | .object members => (Record.names members).Nodup ∧ ExactMembers members
  | _ => True

/-- Whether all values of a list hold no float and no repeated name. -/
def ExactItems : List Json → Prop
  | [] => True
  | v :: items => v.Exact ∧ ExactItems items

/-- Whether all members of a list hold no float and no repeated name. -/
def ExactMembers : List (String × Json) → Prop
  | [] => True
  | (_, v) :: members => v.Exact ∧ ExactMembers members

end

mutual

/-- Whether a value holds no float. -/
def FloatFree : Json → Prop
  | .number (.float _) => False
  | .array items => FloatFreeItems items
  | .object members => FloatFreeMembers members
  | _ => True

/-- Whether all values of a list hold no float. -/
def FloatFreeItems : List Json → Prop
  | [] => True
  | v :: items => v.FloatFree ∧ FloatFreeItems items

/-- Whether all members of a list hold no float. -/
def FloatFreeMembers : List (String × Json) → Prop
  | [] => True
  | (_, v) :: members => v.FloatFree ∧ FloatFreeMembers members

end

mutual

/-- A value that comes back exactly holds no float. -/
theorem Exact.floatFree : ∀ {v : Json}, v.Exact → v.FloatFree
  | .null, _ | .bool _, _ | .string _, _ | .number (.integer _), _ => trivial
  | .number (.float _), h => h
  | .array _, h => exactItems_floatFree h
  | .object _, h => exactMembers_floatFree h.2

theorem exactItems_floatFree : ∀ {items : List Json}, ExactItems items → FloatFreeItems items
  | [], _ => trivial
  | _ :: _, h => ⟨h.1.floatFree, exactItems_floatFree h.2⟩

theorem exactMembers_floatFree : ∀ {members : List (String × Json)}, ExactMembers members →
    FloatFreeMembers members
  | [], _ => trivial
  | (_, _) :: _, h => ⟨h.1.floatFree, exactMembers_floatFree h.2⟩

end

mutual

/-- A value with the members of one name merged: they keep their first place and take their last
    value. -/
def merged : Json → Json
  | .array items => .array (mergedItems items)
  | .object members => .object (Record.ofMembers (mergedMembers members))
  | v => v

/-- Values with the members of one name merged. -/
def mergedItems : List Json → List Json
  | [] => []
  | v :: items => v.merged :: mergedItems items

/-- Members with values that have the members of one name merged. -/
def mergedMembers : List (String × Json) → List (String × Json)
  | [] => []
  | (n, v) :: members => (n, v.merged) :: mergedMembers members

end

mutual

/-- Where no name is repeated, nothing is merged. -/
theorem Exact.merged_eq : ∀ {v : Json}, v.Exact → v.merged = v
  | .null, _ | .bool _, _ | .string _, _ | .number _, _ => rfl
  | .array _, h => by rw [merged, exactItems_merged h]
  | .object _, h => by rw [merged, exactMembers_merged h.2, Record.ofMembers_eq_self h.1]

/-- Merging finds nothing to do where names are distinct already. -/
theorem exactItems_merged : ∀ {items : List Json}, ExactItems items → mergedItems items = items
  | [], _ => rfl
  | _ :: _, h => by rw [mergedItems, h.1.merged_eq, exactItems_merged h.2]

theorem exactMembers_merged : ∀ {members : List (String × Json)}, ExactMembers members →
    mergedMembers members = members
  | [], _ => rfl
  | (_, _) :: _, h => by rw [mergedMembers, h.1.merged_eq, exactMembers_merged h.2]

end

/-- A style that puts blanks, and a colon behind names, between the parts. -/
structure Style.Blank (style : Style) : Prop where
  gap : ∀ level, (style.gap level).toList.all isBlank = true
  colon : ∃ before after, style.colon.toList = before ++ ':' :: after ∧
    before.all isBlank = true ∧ after.all isBlank = true

/-- What is written with indentation has nothing but blanks between its parts. -/
theorem Style.pretty_blank : Style.pretty.Blank where
  gap level := by
    show (String.ofList ('\n' :: List.replicate (2 * level) ' ')).toList.all isBlank = true
    rw [String.toList_ofList, List.all_cons, List.all_replicate]
    simp [isBlank]
  colon := ⟨[], [' '], rfl, rfl, rfl⟩

theorem Style.compact_blank : Style.compact.Blank where
  gap _ := rfl
  colon := ⟨[], [], rfl, rfl, rfl⟩

/-! ## §2. Blanks and first characters -/

/-- Blanks in front do not matter. -/
theorem skipBlanks_append {blanks : List Char} (h : blanks.all isBlank = true) (text : List Char) :
    skipBlanks (blanks ++ text) = skipBlanks text :=
  List.dropWhile_append_of_pos (List.all_eq_true.1 h)

theorem skipBlanks_cons {c : Char} (h : isBlank c = false) (text : List Char) :
    skipBlanks (c :: text) = c :: text := by
  unfold skipBlanks
  rw [List.dropWhile_cons_of_neg (by simp [h])]

/-- What may follow a value ends a number. -/
theorem endsNumber_cons {c : Char} (h : c ∈ [',', ']', '}', ' ', '\t', '\n', '\r'])
    (text : List Char) : EndsNumber (c :: text) := by
  simp only [List.mem_cons, List.not_mem_nil, or_false] at h
  rcases h with rfl | rfl | rfl | rfl | rfl | rfl | rfl <;> exact ⟨rfl, by decide⟩

theorem endsNumber_blank {c : Char} (h : isBlank c = true) (text : List Char) :
    EndsNumber (c :: text) := by
  refine endsNumber_cons ?_ text
  simp only [isBlank, Bool.or_eq_true, beq_iff_eq] at h
  rcases h with ((rfl | rfl) | rfl) | rfl <;> simp

/-- Blanks between a number and what follows it end the number as well. -/
theorem endsNumber_blanks {blanks : List Char} (h : blanks.all isBlank = true) {c : Char}
    (hc : c ∈ [',', ']', '}', ' ', '\t', '\n', '\r']) (text : List Char) :
    EndsNumber (blanks ++ c :: text) := by
  cases blanks with
  | nil => exact endsNumber_cons hc text
  | cons b blanks =>
      rw [List.all_cons, Bool.and_eq_true] at h
      exact endsNumber_blank h.1 _

/-- A text in quotes, as characters. -/
theorem toList_quote (text : String) :
    (quote text).toList = '"' :: (text.toList.flatMap escapeChar ++ ['"']) := by
  rw [quote, String.toList_ofList]
  rfl

/-- The items of an array behind the first, as characters. -/
theorem toList_writeItems_cons (style : Style) (level : Nat) (v : Json) (items : List Json) :
    (writeItems style level (v :: items)).toList = ',' :: ((style.gap level).toList ++
      ((v.write style level).toList ++ (writeItems style level items).toList)) := by
  simp only [writeItems, String.toList_append, List.append_assoc]
  rfl

/-- The members of an object behind the first, as characters. -/
theorem toList_writeMembers_cons (style : Style) (level : Nat) (name : String) (v : Json)
    (members : List (String × Json)) :
    (writeMembers style level ((name, v) :: members)).toList = ',' :: ((style.gap level).toList ++
      ((quote name).toList ++ (style.colon.toList ++
        ((v.write style level).toList ++ (writeMembers style level members).toList)))) := by
  simp only [writeMembers, String.toList_append, List.append_assoc]
  rfl

/-- An array with items, as characters. -/
theorem toList_write_array (style : Style) (level : Nat) (v : Json) (items : List Json) :
    (write style level (.array (v :: items))).toList = '[' :: ((style.gap (level + 1)).toList ++
      ((v.write style (level + 1)).toList ++ ((writeItems style (level + 1) items).toList ++
        ((style.gap level).toList ++ [']'])))) := by
  simp only [write, String.toList_append, List.append_assoc]
  rfl

/-- An object with members, as characters. -/
theorem toList_write_object (style : Style) (level : Nat) (name : String) (v : Json)
    (members : List (String × Json)) :
    (write style level (.object ((name, v) :: members))).toList = '{' ::
      ((style.gap (level + 1)).toList ++ ((quote name).toList ++ (style.colon.toList ++
        ((v.write style (level + 1)).toList ++ ((writeMembers style (level + 1) members).toList ++
          ((style.gap level).toList ++ ['}'])))))) := by
  simp only [write, String.toList_append, List.append_assoc]
  rfl

/-- What a value that is no container is read by. -/
theorem value?_scalar {d : Nat} {text : List Char} {c : Char} {cs : List Char}
    (h : skipBlanks text = c :: cs) (h₁ : c ≠ '[') (h₂ : c ≠ '{') :
    value? d text = scalar? (c :: cs) := by
  cases d with
  | zero => rw [value?, h]
  | succ d =>
      rw [value?, h]
      split
      next heq => exact absurd (List.cons.inj heq).1 h₁
      next heq => exact absurd (List.cons.inj heq).1 h₂
      next => rfl

/-- A number is what a scalar is that starts like none of the others. -/
theorem scalar?_number {c : Char} {cs : List Char} (h : c.isDigit = true ∨ c = '-') :
    scalar? (c :: cs) = (number? (c :: cs)).map fun (n, rest) => (.number n, rest) := by
  have hne : c ≠ 'n' ∧ c ≠ 't' ∧ c ≠ 'f' ∧ c ≠ '"' := by
    rcases h with h | rfl
    · refine ⟨?_, ?_, ?_, ?_⟩ <;> rintro rfl <;> exact absurd h (by decide)
    · decide
  unfold scalar?
  split
  next heq => exact absurd (List.cons.inj heq).1 hne.1
  next heq => exact absurd (List.cons.inj heq).1 hne.2.1
  next heq => exact absurd (List.cons.inj heq).1 hne.2.2.1
  next heq => exact absurd (List.cons.inj heq).1 hne.2.2.2
  next => rfl

/-- An integer starts with a digit or a sign, and so is told from all other values. -/
theorem integerChars_head (n : Int) :
    ∃ c cs, integerChars n = c :: cs ∧ (c.isDigit = true ∨ c = '-') := by
  unfold integerChars
  split
  · exact ⟨'-', _, rfl, .inr rfl⟩
  · obtain ⟨c, cs, hd, hc⟩ := toDigits_eq_cons n.natAbs
    exact ⟨c, cs, hd, .inl hc⟩

theorem not_blank_of_number {c : Char} (h : c.isDigit = true ∨ c = '-') :
    isBlank c = false ∧ c ≠ '[' ∧ c ≠ '{' ∧ c ≠ ']' := by
  rcases h with h | rfl
  · refine ⟨?_, ?_, ?_, ?_⟩
    · cases hb : isBlank c with
      | false => rfl
      | true =>
          simp only [isBlank, Bool.or_eq_true, beq_iff_eq] at hb
          rcases hb with ((rfl | rfl) | rfl) | rfl <;> exact absurd h (by decide)
    all_goals rintro rfl; exact absurd h (by decide)
  · decide

/-- The text of a value starts with a character that is no blank and closes no array. -/
theorem write_head (style : Style) (level : Nat) (v : Json) (hv : v.FloatFree) :
    ∃ c cs, (v.write style level).toList = c :: cs ∧ isBlank c = false ∧ c ≠ ']' := by
  cases v with
  | null => exact ⟨'n', ['u', 'l', 'l'], by rw [write]; rfl, rfl, by decide⟩
  | bool b =>
      cases b with
      | false => exact ⟨'f', ['a', 'l', 's', 'e'], by rw [write]; rfl, rfl, by decide⟩
      | true => exact ⟨'t', ['r', 'u', 'e'], by rw [write]; rfl, rfl, by decide⟩
  | number n =>
      cases n with
      | float x => exact hv.elim
      | integer n =>
          obtain ⟨c, cs, hc, hd⟩ := integerChars_head n.value
          have hb := not_blank_of_number hd
          refine ⟨c, cs, ?_, hb.1, hb.2.2.2⟩
          rw [← hc, ← toList_repr, write]
          rfl
  | string s =>
      refine ⟨'"', s.toList.flatMap escapeChar ++ ['"'], ?_, rfl, by decide⟩
      rw [write, toList_quote]
  | array items =>
      cases items with
      | nil => exact ⟨'[', [']'], by rw [write]; rfl, rfl, by decide⟩
      | cons v items =>
          exact ⟨'[', _, toList_write_array style level v items, rfl, by decide⟩
  | object members =>
      cases members with
      | nil => exact ⟨'{', ['}'], by rw [write]; rfl, rfl, by decide⟩
      | cons m members =>
          exact ⟨'{', _, toList_write_object style level m.1 m.2 members, rfl, by decide⟩

/-! ## §3. Items and members -/

/-- Reading undoes writing for one value, behind blanks and in front of what ends a number. -/
def ReadsBack (style : Style) (read : List Char → Option (Json × List Char)) (v : Json) : Prop :=
  ∀ (level : Nat) (blanks rest : List Char), blanks.all isBlank = true → EndsNumber rest →
    read (blanks ++ ((v.write style level).toList ++ rest)) = some (v.merged, rest)

/-- What stands behind the last part of a container. -/
theorem endsNumber_writeItems (style : Style) (hs : style.Blank) (level outer : Nat)
    (items : List Json) (rest : List Char) :
    EndsNumber ((writeItems style level items).toList ++
      ((style.gap outer).toList ++ ']' :: rest)) := by
  cases items with
  | nil =>
      rw [writeItems]
      exact endsNumber_blanks (hs.gap outer) (by simp) rest
  | cons v items =>
      rw [toList_writeItems_cons]
      exact endsNumber_cons (by simp) _

theorem endsNumber_writeMembers (style : Style) (hs : style.Blank) (level outer : Nat)
    (members : List (String × Json)) (rest : List Char) :
    EndsNumber ((writeMembers style level members).toList ++
      ((style.gap outer).toList ++ '}' :: rest)) := by
  cases members with
  | nil =>
      rw [writeMembers]
      exact endsNumber_blanks (hs.gap outer) (by simp) rest
  | cons m members =>
      rw [toList_writeMembers_cons]
      exact endsNumber_cons (by simp) _

/-- The text is at least as long as there are items, so its length bounds the steps of the reader.
    -/
theorem length_le_writeItems (style : Style) (level : Nat) (items : List Json) :
    items.length ≤ (writeItems style level items).toList.length := by
  induction items with
  | nil => simp
  | cons v items ih =>
      rw [toList_writeItems_cons]
      simp only [List.length_append, List.length_cons]
      omega

theorem length_le_writeMembers (style : Style) (level : Nat) (members : List (String × Json)) :
    members.length ≤ (writeMembers style level members).toList.length := by
  induction members with
  | nil => simp
  | cons m members ih =>
      rw [toList_writeMembers_cons]
      simp only [List.length_append, List.length_cons]
      omega

/-- The items behind the first one read back. -/
theorem items?_writeItems {style : Style} (hs : style.Blank)
    {read : List Char → Option (Json × List Char)} (level outer : Nat) :
    ∀ (items : List Json), (∀ v ∈ items, ReadsBack style read v) →
      ∀ (bound : Nat) (rest : List Char), items.length ≤ bound →
        items? read bound ((writeItems style level items).toList ++
          ((style.gap outer).toList ++ ']' :: rest)) = some (mergedItems items, rest)
  | [], _, bound, rest, _ => by
      unfold items?
      rw [writeItems, show "".toList = [] from rfl, List.nil_append,
        skipBlanks_append (hs.gap outer), skipBlanks_cons (by rfl)]
      cases bound <;> rfl
  | v :: items, hread, bound, rest, hb => by
      obtain ⟨bound, rfl⟩ : ∃ k, bound = k + 1 := ⟨bound - 1, by simp at hb; omega⟩
      -- each item is read up to the comma or the bracket behind it, which ends a number
      have hv := hread v List.mem_cons_self level (style.gap level).toList
        ((writeItems style level items).toList ++ ((style.gap outer).toList ++ ']' :: rest))
        (hs.gap level) (endsNumber_writeItems style hs level outer items rest)
      have ih := items?_writeItems hs level outer items
        (fun w hw => hread w (List.mem_cons_of_mem _ hw)) bound rest (by simpa using hb)
      unfold items?
      rw [toList_writeItems_cons, List.cons_append, skipBlanks_cons (by rfl)]
      simp only [List.append_assoc]
      rw [hv]
      show (items? read bound _ >>= _) = _
      rw [ih]
      rfl

/-- An array reads back behind its opening bracket. -/
theorem arrayOf?_write {style : Style} (hs : style.Blank)
    {read : List Char → Option (Json × List Char)} (level : Nat) (v : Json) (items : List Json)
    (hfree : v.FloatFree) (hread : ∀ w ∈ v :: items, ReadsBack style read w) (rest : List Char) :
    arrayOf? read ((style.gap (level + 1)).toList ++ ((v.write style (level + 1)).toList ++
      ((writeItems style (level + 1) items).toList ++
        ((style.gap level).toList ++ ']' :: rest)))) = some (mergedItems (v :: items), rest) := by
  obtain ⟨c, cs, hc, hblank, hclose⟩ := write_head style (level + 1) v hfree
  have hv := hread v List.mem_cons_self (level + 1) []
    ((writeItems style (level + 1) items).toList ++ ((style.gap level).toList ++ ']' :: rest))
    rfl (endsNumber_writeItems style hs (level + 1) level items rest)
  have hitems := items?_writeItems hs (level + 1) level items
    (fun w hw => hread w (List.mem_cons_of_mem _ hw))
    ((writeItems style (level + 1) items).toList ++
      ((style.gap level).toList ++ ']' :: rest)).length rest (by
        have := length_le_writeItems style (level + 1) items
        rw [List.length_append]
        omega)
  unfold arrayOf?
  rw [skipBlanks_append (hs.gap (level + 1)), hc, List.cons_append, skipBlanks_cons hblank]
  -- an array with an item does not go on like one that ends at once
  split
  next heq => exact absurd (List.cons.inj heq).1 hclose
  next =>
    rw [← List.cons_append, ← hc]
    rw [List.nil_append] at hv
    rw [hv]
    show (items? read _ _ >>= _) = _
    rw [hitems]
    rfl

/-- The reader of members that an object is read with. -/
def plainMember (read : List Char → Option (Json × List Char)) : MemberReader Json :=
  ⟨string?, fun _ => read⟩

/-- One member reads back, behind blanks. -/
theorem member?_write {style : Style} (hs : style.Blank)
    {read : List Char → Option (Json × List Char)} (level : Nat) (name : String) (v : Json)
    (hv : ReadsBack style read v) (blanks rest : List Char) (hb : blanks.all isBlank = true)
    (hr : EndsNumber rest) :
    member? (plainMember read) (blanks ++ ((quote name).toList ++ (style.colon.toList ++
      ((v.write style level).toList ++ rest)))) = some ((name, v.merged), rest) := by
  -- the blanks behind the colon belong to the value's own text
  obtain ⟨before, after, hcolon, hbefore, hafter⟩ := hs.colon
  have hv := hv level after rest hafter hr
  unfold member?
  rw [skipBlanks_append hb, toList_quote, List.cons_append, skipBlanks_cons (by rfl)]
  dsimp only
  rw [List.append_assoc, List.singleton_append]
  show (string? _ >>= _) = _
  rw [string?_quote]
  simp only [Option.bind_eq_bind, Option.bind_some]
  rw [hcolon, List.append_assoc, skipBlanks_append hbefore, List.cons_append,
    skipBlanks_cons (by rfl)]
  show (read (after ++ _) >>= _) = _
  rw [hv]
  rfl

/-- The members behind the first one read back. -/
theorem members?_writeMembers {style : Style} (hs : style.Blank)
    {read : List Char → Option (Json × List Char)} (level outer : Nat) :
    ∀ (members : List (String × Json)), (∀ m ∈ members, ReadsBack style read m.2) →
      ∀ (bound : Nat) (rest : List Char), members.length ≤ bound →
        members? (plainMember read) bound ((writeMembers style level members).toList ++
          ((style.gap outer).toList ++ '}' :: rest)) = some (mergedMembers members, rest)
  | [], _, bound, rest, _ => by
      unfold members?
      rw [writeMembers, show "".toList = [] from rfl, List.nil_append,
        skipBlanks_append (hs.gap outer), skipBlanks_cons (by rfl)]
      cases bound <;> rfl
  | (name, v) :: members, hread, bound, rest, hb => by
      obtain ⟨bound, rfl⟩ : ∃ k, bound = k + 1 := ⟨bound - 1, by simp at hb; omega⟩
      -- each member is read with its name, up to what ends its value
      have hm := member?_write hs level name v (hread (name, v) List.mem_cons_self)
        (style.gap level).toList
        ((writeMembers style level members).toList ++ ((style.gap outer).toList ++ '}' :: rest))
        (hs.gap level) (endsNumber_writeMembers style hs level outer members rest)
      have ih := members?_writeMembers hs level outer members
        (fun w hw => hread w (List.mem_cons_of_mem _ hw)) bound rest (by simpa using hb)
      unfold members?
      rw [toList_writeMembers_cons, List.cons_append, skipBlanks_cons (by rfl)]
      simp only [List.append_assoc]
      rw [hm]
      show (members? (plainMember read) bound _ >>= _) = _
      rw [ih]
      rfl

/-- An object reads back behind its opening brace. -/
theorem objectOf?_write {style : Style} (hs : style.Blank)
    {read : List Char → Option (Json × List Char)} (level : Nat) (name : String) (v : Json)
    (members : List (String × Json))
    (hread : ∀ m ∈ (name, v) :: members, ReadsBack style read m.2) (rest : List Char) :
    objectOf? (plainMember read) ((style.gap (level + 1)).toList ++ ((quote name).toList ++
      (style.colon.toList ++ ((v.write style (level + 1)).toList ++
        ((writeMembers style (level + 1) members).toList ++
          ((style.gap level).toList ++ '}' :: rest)))))) =
            some (mergedMembers ((name, v) :: members), rest) := by
  have hm := member?_write hs (level + 1) name v (hread (name, v) List.mem_cons_self) []
    ((writeMembers style (level + 1) members).toList ++ ((style.gap level).toList ++ '}' :: rest))
    rfl (endsNumber_writeMembers style hs (level + 1) level members rest)
  -- the reader's bound is the length of what is left of the text, and each member takes some of it
  have hmembers := members?_writeMembers hs (level + 1) level members
    (fun w hw => hread w (List.mem_cons_of_mem _ hw))
    ((writeMembers style (level + 1) members).toList ++
      ((style.gap level).toList ++ '}' :: rest)).length rest (by
        have := length_le_writeMembers style (level + 1) members
        rw [List.length_append]
        omega)
  rw [List.nil_append] at hm
  unfold objectOf?
  rw [skipBlanks_append (hs.gap (level + 1)), toList_quote, List.cons_append,
    skipBlanks_cons (by rfl)]
  split
  next heq => exact absurd (List.cons.inj heq).1 (by decide)
  next =>
    rw [← List.cons_append, ← toList_quote, hm]
    show (members? (plainMember read) _ _ >>= _) = _
    rw [hmembers]
    rfl

/-! ## §4. Values -/

mutual

/-- **READING UNDOES WRITING**, in every style, as deep as the reader follows. -/
theorem value?_write {style : Style} (hs : style.Blank) : ∀ (v : Json) (d : Nat),
    v.FloatFree → v.depth ≤ d → ReadsBack style (value? d) v
  | .null, d, _, _ => by
      intro level blanks rest hb hr
      rw [write, value?_scalar (by rw [skipBlanks_append hb]; rfl) (by decide) (by decide)]
      rfl
  | .bool b, d, _, _ => by
      intro level blanks rest hb hr
      cases b with
      | false =>
          rw [write, value?_scalar (by rw [skipBlanks_append hb]; rfl) (by decide) (by decide)]
          rfl
      | true =>
          rw [write, value?_scalar (by rw [skipBlanks_append hb]; rfl) (by decide) (by decide)]
          rfl
  | .number (.float x), d, hv, _ => hv.elim
  | .number (.integer n), d, _, _ => by
      intro level blanks rest hb hr
      obtain ⟨c, cs, hc, hd⟩ := integerChars_head n.value
      have hblank := not_blank_of_number hd
      have htext : (write style level (.number (.integer n))).toList = c :: cs := by
        rw [write, ← hc, ← toList_repr]
        rfl
      rw [htext, value?_scalar (by rw [skipBlanks_append hb, List.cons_append,
        skipBlanks_cons hblank.1]) hblank.2.1 hblank.2.2.1, scalar?_number hd, ← List.cons_append,
        ← hc, ← toList_repr, number?_integer n hr]
      rfl
  | .string s, d, _, _ => by
      intro level blanks rest hb hr
      have htext : (write style level (.string s)).toList ++ rest =
          '"' :: (s.toList.flatMap escapeChar ++ '"' :: rest) := by
        rw [write, toList_quote]
        simp
      rw [htext, value?_scalar (by rw [skipBlanks_append hb, skipBlanks_cons (by rfl)])
        (by decide) (by decide)]
      show (string? _).map _ = _
      rw [string?_quote]
      rfl
  | .array [], d, _, hd => by
      intro level blanks rest hb hr
      obtain ⟨d, rfl⟩ : ∃ k, d = k + 1 := ⟨d - 1, by simp [depth] at hd; omega⟩
      rw [write, value?, skipBlanks_append hb]
      rfl
  | .array (v :: items), d, hv, hd => by
      intro level blanks rest hb hr
      simp only [depth, depthItems] at hd
      obtain ⟨d, rfl⟩ : ∃ k, d = k + 1 := ⟨d - 1, by omega⟩
      have hread : ∀ w ∈ v :: items, ReadsBack style (value? d) w :=
        List.forall_mem_cons.2 ⟨value?_write hs v d hv.1 (by omega),
          values?_write hs items d hv.2 (by omega)⟩
      rw [toList_write_array, value?, skipBlanks_append hb, List.cons_append,
        skipBlanks_cons (by rfl)]
      simp only [List.append_assoc, List.singleton_append]
      show (arrayOf? (value? d) _).map _ = _
      rw [arrayOf?_write hs level v items hv.1 hread rest]
      rfl
  | .object [], d, _, hd => by
      intro level blanks rest hb hr
      obtain ⟨d, rfl⟩ : ∃ k, d = k + 1 := ⟨d - 1, by simp [depth] at hd; omega⟩
      rw [write, value?, skipBlanks_append hb]
      rfl
  | .object ((name, v) :: members), d, hv, hd => by
      intro level blanks rest hb hr
      simp only [depth, depthMembers] at hd
      obtain ⟨d, rfl⟩ : ∃ k, d = k + 1 := ⟨d - 1, by omega⟩
      have hread : ∀ m ∈ (name, v) :: members, ReadsBack style (value? d) m.2 :=
        List.forall_mem_cons.2 ⟨value?_write hs v d hv.1 (by omega),
          memberValues?_write hs members d hv.2 (by omega)⟩
      rw [toList_write_object, value?, skipBlanks_append hb, List.cons_append,
        skipBlanks_cons (by rfl)]
      simp only [List.append_assoc, List.singleton_append]
      show (objectOf? (plainMember (value? d)) _).map _ = _
      -- of several members of a name the reader keeps the first place and the last value
      rw [objectOf?_write hs level name v members hread rest]
      rfl

/-- Every item of an array is read back. -/
theorem values?_write {style : Style} (hs : style.Blank) : ∀ (items : List Json) (d : Nat),
    FloatFreeItems items → depthItems items ≤ d → ∀ v ∈ items, ReadsBack style (value? d) v
  | [], _, _, _ => fun _ hv => absurd hv List.not_mem_nil
  | w :: items, d, he, hd => by
      rw [depthItems] at hd
      exact List.forall_mem_cons.2 ⟨value?_write hs w d he.1 (by omega),
        values?_write hs items d he.2 (by omega)⟩

/-- Every value of an object is read back. -/
theorem memberValues?_write {style : Style} (hs : style.Blank) :
    ∀ (members : List (String × Json)) (d : Nat), FloatFreeMembers members →
      depthMembers members ≤ d → ∀ m ∈ members, ReadsBack style (value? d) m.2
  | [], _, _, _ => fun _ hm => absurd hm List.not_mem_nil
  | (n, w) :: members, d, he, hd => by
      rw [depthMembers] at hd
      exact List.forall_mem_cons.2 ⟨value?_write hs w d he.1 (by omega),
        memberValues?_write hs members d he.2 (by omega)⟩

end

/-- A document, with blanks behind it, holds the value that was written, its members merged. -/
theorem parse?_write_merged {style : Style} (hs : style.Blank) {v : Json} (hv : v.FloatFree)
    (hd : v.depth ≤ maxDepth) {blanks : String} (hb : blanks.toList.all isBlank = true) :
    parse? (v.write style 0 ++ blanks) = some v.merged := by
  have hends : EndsNumber blanks.toList := by
    cases h : blanks.toList with
    | nil => trivial
    | cons c cs =>
        rw [h, List.all_cons, Bool.and_eq_true] at hb
        exact endsNumber_blank hb.1 cs
  have hread := value?_write hs v maxDepth hv hd 0 [] blanks.toList rfl hends
  unfold parse? complete?
  rw [String.toList_append]
  rw [List.nil_append] at hread
  rw [hread]
  -- only blanks are left behind the value
  have hskip : skipBlanks blanks.toList = [] := by
    have := skipBlanks_append hb []
    rw [List.append_nil] at this
    exact this
  simp [hskip]

/-- A document without repeated names holds the value that was written. -/
theorem parse?_write {style : Style} (hs : style.Blank) {v : Json} (hv : v.Exact)
    (hd : v.depth ≤ maxDepth) {blanks : String} (hb : blanks.toList.all isBlank = true) :
    parse? (v.write style 0 ++ blanks) = some v := by
  rw [parse?_write_merged hs hv.floatFree hd hb, hv.merged_eq]

end TinyLang.Json
