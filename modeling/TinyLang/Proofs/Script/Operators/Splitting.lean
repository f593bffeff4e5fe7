/-
  TinyLang.Proofs.Script.Operators.Splitting — when composed tokens stand for a composed
  expression.

  Take tokens that are known to stand for an expression in some cases and not in others, and
  put an operator, a member or parentheses to them.  The new tokens stand for the composed
  expression exactly if the parts stand at the places that the new form has for them:

      Phrase p (us ++ op :: vs) (left op right)
        ↔  p admits op  ∧  Phrase (left of op) us left  ∧  Phrase (right of op) vs right

  A derivation cannot cut the tokens elsewhere.  The tokens of an expression are known but
  for their parentheses (`skeleton`), so an operator finds its place by counting, and
  parentheses find theirs since all that is derived is balanced.
-/

import TinyLang.Proofs.Script.Operators.Grammar

namespace TinyLang.Script.Operators

open Grammar (isTarget)

/-! ## §1. Skeletons -/

/-- Tokens without their parentheses. -/
def skeleton (ts : List Token) : List Token := ts.filter fun t => weight t = 0

mutual

/-- The tokens of an expression but for parentheses. -/
def skeletonOf : Expr → List Token
  | .identifier x => [.word x]
  | .literal .null => [.word "null"]
  | .literal (.bool true) => [.word "true"]
  | .literal (.bool false) => [.word "false"]
  | .literal (.integer n) => [.number n.toNat]
  | .literal (.number _) => []
  | .literal (.string s) => [.string s]
  | .call callee arguments => skeletonOf callee ++ skeletonOfAll arguments
  | .member object property => skeletonOf object ++ [.mark ".", .word property]
  | .assign op left right => skeletonOf left ++ .mark op :: skeletonOf right
  | .unary _ op argument => operatorToken op :: skeletonOf argument
  | .binary op left right => skeletonOf left ++ operatorToken op :: skeletonOf right
  | .function parameters _ =>
    .word "function" :: parameterTokens parameters ++ [.mark "\x7b", .mark "\x7d"]

/-- The tokens of arguments but for parentheses. -/
def skeletonOfAll : List Expr → List Token
  | [] => []
  | [e] => skeletonOf e
  | e :: f :: es => skeletonOf e ++ .mark "," :: skeletonOfAll (f :: es)

end

/-- The skeleton of two parts is that of each in turn. -/
theorem skeleton_append (us vs : List Token) :
    skeleton (us ++ vs) = skeleton us ++ skeleton vs :=
  List.filter_append us vs

theorem skeleton_cons {t : Token} (h : weight t = 0) (ts : List Token) :
    skeleton (t :: ts) = t :: skeleton ts :=
  List.filter_cons_of_pos (by simpa using h)

/-- Parentheses leave no trace in the skeleton. -/
theorem skeleton_inParens (ts : List Token) : skeleton (inParens ts) = skeleton ts := by
  unfold inParens
  rw [skeleton_append]
  show skeleton ts ++ [] = _
  rw [List.append_nil]

theorem skeleton_parameterTokens (xs : List String) :
    skeleton (parameterTokens xs) = parameterTokens xs := by
  induction xs with
  | nil => rfl
  | cons x xs ih =>
      cases xs with
      | nil => rfl
      | cons y xs =>
          show skeleton (.word x :: .mark "," :: parameterTokens (y :: xs)) = _
          rw [skeleton_cons rfl, skeleton_cons rfl, ih]
          rfl

/-- The skeletons of arguments stand between commas. -/
theorem skeletonOfAll_cons (e : Expr) {es : List Expr} (h : es ≠ []) :
    skeletonOfAll (e :: es) = skeletonOf e ++ .mark "," :: skeletonOfAll es := by
  cases es with
  | nil => exact absurd rfl h
  | cons f es => rw [skeletonOfAll]

/-- One or more arguments are not none. -/
theorem Items.args_ne_nil {ts : List Token} {es : List Expr} (h : Items ts es) : es ≠ [] := by
  cases h <;> simp

mutual

/-- **A DERIVED EXPRESSION DETERMINES ITS TOKENS BUT FOR PARENTHESES.** -/
theorem Phrase.skeleton_eq : ∀ {p : Place} {ts : List Token} {e : Expr}, Phrase p ts e →
    skeleton ts = skeletonOf e
  | _, _, _, .assign _ _ ht hv => by
      rw [skeleton_append, skeleton_cons rfl, ht.skeleton_eq, hv.skeleton_eq, skeletonOf]
  | _, _, _, .binary hop _ hl hr => by
      rw [skeleton_append, skeleton_cons (weight_operatorToken (operations_ne hop)),
        hl.skeleton_eq, hr.skeleton_eq, skeletonOf]
  | _, _, _, .unary hop _ h => by
      rw [skeleton_cons (weight_operatorToken (frontOperators_ne hop)), h.skeleton_eq, skeletonOf]
  | _, _, _, .member _ h => by
      rw [skeleton_append, h.skeleton_eq, skeletonOf]
      rfl
  -- parentheses leave no trace of their own, only what they hold
  | _, _, _, .call _ hf ha => by
      rw [skeleton_append, skeleton_inParens, hf.skeleton_eq, ha.skeleton_eq, skeletonOf]
  | _, _, _, .identifier _ _ => rfl
  | _, _, _, .number _ => rfl
  | _, _, _, .string _ => rfl
  | _, _, _, .null _ => rfl
  | _, _, _, .true _ => rfl
  | _, _, _, .false _ => rfl
  | _, _, _, .function _ _ => by
      rw [List.cons_append, skeleton_cons rfl, skeleton_append, skeleton_inParens,
        skeleton_parameterTokens, skeletonOf]
      rfl
  | _, _, _, .parens _ h => by rw [skeleton_inParens, h.skeleton_eq]

/-- The skeleton of arguments is determined by the arguments. -/
theorem Arguments.skeleton_eq : ∀ {ts : List Token} {es : List Expr}, Arguments ts es →
    skeleton ts = skeletonOfAll es
  | _, _, .none => rfl
  | _, _, .some h => h.skeleton_eq

theorem Items.skeleton_eq : ∀ {ts : List Token} {es : List Expr}, Items ts es →
    skeleton ts = skeletonOfAll es
  | _, _, .last h => by rw [h.skeleton_eq, skeletonOfAll]
  | _, _, .more h hs => by
      rw [skeleton_append, skeleton_cons rfl, h.skeleton_eq, hs.skeleton_eq,
        skeletonOfAll_cons _ hs.args_ne_nil]

end

/-! ## §2. Cutting tokens -/

/-- An operator has one level, and one place for each operand. -/
theorem operations_unique {op : String} {o o' : Operation} (h : (op, o) ∈ operations)
    (h' : (op, o') ∈ operations) : o = o' := by
  have hall : ∀ a ∈ operations, ∀ b ∈ operations, a.1 = b.1 → a.2 = b.2 := by decide +kernel
  exact hall (op, o) h (op, o') h' rfl

/-- Tokens around one that is no parenthesis are cut in one way only, given the skeleton of what is
    in front. -/
theorem split_of_skeleton {us vs us' vs' : List Token} {t t' : Token} (ht : weight t = 0)
    (ht' : weight t' = 0) (hs : skeleton us = skeleton us')
    (h : us ++ t :: vs = us' ++ t' :: vs') : us = us' ∧ vs = vs' := by
  -- whichever cut is further right has more than the skeleton in front of it
  have hlonger : ∀ {a c : List Token} {x : Token}, weight x = 0 →
      skeleton a ≠ skeleton (a ++ x :: c) := by
    intro a c x hx heq
    have hlength := congrArg List.length heq
    rw [skeleton_append, skeleton_cons hx, List.length_append, List.length_cons] at hlength
    omega
  rcases List.append_eq_append_iff.1 h with ⟨c, rfl, hc⟩ | ⟨c, rfl, hc⟩
  · rcases List.cons_eq_append_iff.1 hc with ⟨rfl, hrest⟩ | ⟨c, rfl, -⟩
    · exact ⟨(List.append_nil us).symm, (List.cons.inj hrest).2.symm⟩
    · exact absurd hs (hlonger ht)
  · rcases List.cons_eq_append_iff.1 hc with ⟨rfl, hrest⟩ | ⟨c, rfl, -⟩
    · exact ⟨List.append_nil us', (List.cons.inj hrest).2⟩
    · exact absurd hs.symm (hlonger ht')

/-- Balanced tokens in front of balanced ones in parentheses are cut in one way only. -/
theorem split_of_balanced {us vs us' vs' : List Token} (hu : Balanced us) (hv : Balanced vs)
    (hu' : Balanced us') (hv' : Balanced vs') (h : us ++ inParens vs = us' ++ inParens vs') :
    us = us' ∧ vs = vs' := by
  -- a cut further right would leave the parenthesis of the other one open in front of it
  have hopen : ∀ {a b c : List Token}, Balanced a → Balanced (a ++ .mark "(" :: b) →
      Balanced (b ++ c) → False := by
    intro a b c ha hab hbc
    have hinside := hbc.within b c rfl
    have htotal := hab.total
    have hweight : weight (.mark "(") = 1 := rfl
    rw [depth_append, depth_cons, ha.total, hweight] at htotal
    omega
  have hcut : us ++ .mark "(" :: vs = us' ++ .mark "(" :: vs' := by
    have hlast : us ++ .mark "(" :: vs ++ [.mark ")"] = us' ++ .mark "(" :: vs' ++ [.mark ")"] := by
      simpa [inParens] using h
    exact List.append_cancel_right hlast
  rcases List.append_eq_append_iff.1 hcut with ⟨c, rfl, hc⟩ | ⟨c, rfl, hc⟩
  · rcases List.cons_eq_append_iff.1 hc with ⟨rfl, hrest⟩ | ⟨c, rfl, rfl⟩
    · exact ⟨(List.append_nil us).symm, (List.cons.inj hrest).2.symm⟩
    · exact (hopen hu hu' hv).elim
  · rcases List.cons_eq_append_iff.1 hc with ⟨rfl, hrest⟩ | ⟨c, rfl, rfl⟩
    · exact ⟨List.append_nil us', (List.cons.inj hrest).2⟩
    · exact (hopen hu' hu hv').elim

/-- Balanced tokens with something behind them are not one pair of parentheses. -/
theorem append_ne_inParens {us vs ts : List Token} {t : Token} (hu : Balanced us) (hne : us ≠ [])
    (ht : Balanced ts) : us ++ t :: vs ≠ inParens ts := by
  intro h
  cases us with
  | nil => exact hne rfl
  | cons u us =>
      unfold inParens at h
      rw [List.cons_append, List.cons_append] at h
      obtain ⟨rfl, hrest⟩ := List.cons.inj h
      -- what is in front of the last token lies within the parentheses, one level too far out
      have hdepth : depth us = -1 := by
        have htotal := hu.total
        have hweight : weight (.mark "(") = 1 := rfl
        rw [depth_cons, hweight] at htotal
        omega
      rcases List.append_eq_append_iff.1 hrest with ⟨c, rfl, -⟩ | ⟨c, rfl, hc⟩
      · have hinside := ht.within us c rfl
        omega
      · have hc' : c = [] := by
          cases c with
          | nil => rfl
          | cons x c =>
              have hlength := congrArg List.length hc
              simp at hlength
        subst hc'
        have hinside := ht.total
        rw [List.append_nil] at hdepth
        omega

/-! ## §3. Tokens that stand for an expression in some cases -/

/-- Tokens stand for an expression of a level if and only if something holds. -/
structure Stands (ts : List Token) (e : Expr) (level : Nat) (sound : Prop) : Prop where
  balanced : Balanced ts
  ne_nil : ts ≠ []
  skeleton : skeleton ts = skeletonOf e
  phrase_iff : ∀ p, Phrase p ts e ↔ p.Admits level ∧ sound

section Stands

variable {us vs ts : List Token} {e left right : Expr} {j k : Nat} {s s' : Prop}

theorem Stands.congr (h : Stands ts e k s) (hs : s ↔ s') : Stands ts e k s' :=
  ⟨h.balanced, h.ne_nil, h.skeleton, fun p => by rw [h.phrase_iff p, hs]⟩

/-- Parentheses make an expression fit everywhere. -/
theorem Stands.inParens (h : Stands ts e k s) : Stands (inParens ts) e 15 s := by
  refine ⟨h.balanced.inParens, by simp [Operators.inParens], ?_, ?_⟩
  · rw [skeleton_inParens, h.skeleton]
  · intro p
    constructor
    · intro hp
      -- of all phrases only one in parentheses closes with the parenthesis it opens with
      generalize hts : Operators.inParens ts = ws at hp
      cases hp with
      | assign _ _ ht _ =>
          exact absurd hts.symm (append_ne_inParens ht.balanced ht.ne_nil h.balanced)
      | binary _ _ hl _ =>
          exact absurd hts.symm (append_ne_inParens hl.balanced hl.ne_nil h.balanced)
      | unary hop _ _ =>
          have hweight := weight_operatorToken (frontOperators_ne hop)
          rw [← (List.cons.inj hts).1] at hweight
          exact absurd hweight (by decide)
      | member _ ho =>
          exact absurd hts.symm (append_ne_inParens ho.balanced ho.ne_nil h.balanced)
      | call _ hf _ =>
          exact absurd hts.symm (append_ne_inParens hf.balanced hf.ne_nil h.balanced)
      | parens hp hinside =>
          have hcancel := List.append_cancel_right (List.cons.inj hts).2
          subst hcancel
          exact ⟨hp, ((h.phrase_iff _).1 hinside).2⟩
      | identifier _ _ => exact absurd hts (by simp [Operators.inParens])
      | number _ => exact absurd hts (by simp [Operators.inParens])
      | string _ => exact absurd hts (by simp [Operators.inParens])
      | null _ => exact absurd hts (by simp [Operators.inParens])
      | true _ => exact absurd hts (by simp [Operators.inParens])
      | false _ => exact absurd hts (by simp [Operators.inParens])
      | function _ _ => exact absurd hts (by simp [Operators.inParens])
    · intro hp
      exact .parens hp.1 ((h.phrase_iff (.atLeast 0)).2 ⟨Nat.zero_le k, hp.2⟩)

/-- A single token stands at places that admit a primary expression. -/
theorem Phrase.admits_of_token {p : Place} {t : Token} (h : Phrase p [t] e) : p.Admits 15 := by
  generalize hts : [t] = ws at h
  -- all other phrases have more than one token
  have hlength : ws.length = 1 := by rw [← hts]; rfl
  cases h with
  | assign _ _ ht _ =>
      have := List.length_pos_iff.2 ht.ne_nil
      rw [List.length_append, List.length_cons] at hlength
      omega
  | binary _ _ hl _ =>
      have := List.length_pos_iff.2 hl.ne_nil
      rw [List.length_append, List.length_cons] at hlength
      omega
  | unary _ _ h =>
      have := List.length_pos_iff.2 h.ne_nil
      rw [List.length_cons] at hlength
      omega
  | member _ _ => simp at hlength
  | call _ _ _ =>
      simp [Operators.inParens] at hlength
      omega
  | function _ _ => simp [Operators.inParens] at hlength
  | parens _ _ => simp [Operators.inParens] at hlength
  | identifier hp _ => exact hp
  | number hp => exact hp
  | string hp => exact hp
  | null hp => exact hp
  | true hp => exact hp
  | false hp => exact hp

/-- A single token that is a primary expression. -/
theorem stands_token {t : Token} (ht : weight t = 0) (hs : skeletonOf e = [t])
    (h : ∀ p : Place, p.Admits 15 → Phrase p [t] e) : Stands [t] e 15 True := by
  refine ⟨balanced_token ht, by simp, ?_, ?_⟩
  · rw [skeleton_cons ht, hs]
    rfl
  · intro p
    exact ⟨fun hp => ⟨hp.admits_of_token, trivial⟩, fun hp => h p hp.1⟩

/-- A function without statements stands for itself. -/
theorem stands_function {xs : List String} (h : ∀ x ∈ xs, x ∉ reservedWords) :
    Stands (.word "function" :: Operators.inParens (parameterTokens xs) ++
      [.mark "\x7b", .mark "\x7d"]) (.function xs []) 15 True := by
  have hphrase : ∀ p : Place, p.Admits 15 → Phrase p _ (.function xs []) :=
    fun p hp => .function hp h
  have hall := hphrase (.atLeast 0) (Nat.zero_le 15)
  refine ⟨hall.balanced, hall.ne_nil, hall.skeleton_eq, ?_⟩
  intro p
  refine ⟨?_, fun hp => hphrase p hp.1⟩
  intro hp
  generalize hts : .word "function" :: Operators.inParens (parameterTokens xs) ++
    [.mark "\x7b", .mark "\x7d"] = ws at hp
  cases hp with
  | function hp _ => exact ⟨hp, trivial⟩
  | parens _ _ => exact absurd hts (by simp [Operators.inParens])

/-- An operator in front of tokens. -/
theorem Stands.unary {op : String} (hop : op ∈ frontOperators) (h : Stands ts e k s) :
    Stands (operatorToken op :: ts) (.unary .before op e) 13 (13 ≤ k ∧ s) := by
  have hweight := weight_operatorToken (frontOperators_ne hop)
  refine ⟨.cons hweight h.balanced, by simp, ?_, ?_⟩
  · rw [skeleton_cons hweight, h.skeleton, skeletonOf]
  · intro p
    constructor
    · intro hp
      generalize hts : operatorToken op :: ts = ws at hp
      cases hp with
      | unary _ hp hoperand =>
          -- the operator is one token, so the operand is what follows it
          obtain ⟨-, rfl⟩ := List.cons.inj hts
          exact ⟨hp, (h.phrase_iff _).1 hoperand⟩
      | parens _ _ =>
          rw [(List.cons.inj hts).1] at hweight
          exact absurd hweight (by decide)
    · intro hp
      exact .unary hop hp.1 ((h.phrase_iff _).2 hp.2)

/-- An operator between tokens. -/
theorem Stands.binary {op : String} {o : Operation} (hop : (op, o) ∈ operations)
    (hl : Stands us left j s) (hr : Stands vs right k s') :
    Stands (us ++ operatorToken op :: vs) (.binary op left right) o.level
      ((o.left.Admits j ∧ s) ∧ o.right.Admits k ∧ s') := by
  have hweight := weight_operatorToken (operations_ne hop)
  refine ⟨hl.balanced.append (.cons hweight hr.balanced), by simp, ?_, ?_⟩
  · rw [skeleton_append, skeleton_cons hweight, hl.skeleton, hr.skeleton, skeletonOf]
  · intro p
    constructor
    · intro hp
      generalize hts : us ++ operatorToken op :: vs = ws at hp
      cases hp with
      | @binary _ _ _ _ o' _ _ hop' hp hleft hright =>
          obtain rfl : o = o' := operations_unique hop hop'
          -- the left operand ends where its tokens do, counted without the parentheses
          obtain ⟨rfl, rfl⟩ := split_of_skeleton hweight hweight
            (hl.skeleton.trans hleft.skeleton_eq.symm) hts
          exact ⟨hp, (hl.phrase_iff _).1 hleft, (hr.phrase_iff _).1 hright⟩
      | parens _ hinside =>
          exact absurd hts (append_ne_inParens hl.balanced hl.ne_nil hinside.balanced)
    · intro hp
      exact .binary hop hp.1 ((hl.phrase_iff _).2 hp.2.1) ((hr.phrase_iff _).2 hp.2.2)

/-- An assignment. -/
theorem Stands.assign (htarget : isTarget left = true) (hl : Stands us left j s)
    (hr : Stands vs right k s') :
    Stands (us ++ .mark "=" :: vs) (.assign "=" left right) 0 ((14 ≤ j ∧ s) ∧ s') := by
  refine ⟨hl.balanced.append (.cons rfl hr.balanced), by simp, ?_, ?_⟩
  · rw [skeleton_append, skeleton_cons rfl, hl.skeleton, hr.skeleton, skeletonOf]
  · intro p
    constructor
    · intro hp
      generalize hts : us ++ .mark "=" :: vs = ws at hp
      cases hp with
      | assign hp _ hleft hright =>
          -- as with an operation, the skeleton of the left side tells where it ends
          obtain ⟨rfl, rfl⟩ := split_of_skeleton rfl rfl
            (hl.skeleton.trans hleft.skeleton_eq.symm) hts
          exact ⟨hp, (hl.phrase_iff _).1 hleft, ((hr.phrase_iff _).1 hright).2⟩
      | parens _ hinside =>
          exact absurd hts (append_ne_inParens hl.balanced hl.ne_nil hinside.balanced)
    · intro hp
      exact .assign hp.1 htarget ((hl.phrase_iff _).2 hp.2.1)
        ((hr.phrase_iff _).2 ⟨Nat.zero_le k, hp.2.2⟩)

/-- A member. -/
theorem Stands.member (property : String) (h : Stands ts e k s) :
    Stands (ts ++ [.mark ".", .word property]) (.member e property) 14 (14 ≤ k ∧ s) := by
  refine ⟨h.balanced.append (.cons rfl (balanced_token rfl)), by simp, ?_, ?_⟩
  · rw [skeleton_append, h.skeleton, skeletonOf]
    rfl
  · intro p
    constructor
    · intro hp
      generalize hts : ts ++ [.mark ".", .word property] = ws at hp
      cases hp with
      | member hp hobject =>
          -- the last two tokens are the point and the property
          obtain rfl := List.append_cancel_right hts
          exact ⟨hp, (h.phrase_iff _).1 hobject⟩
      | parens _ hinside =>
          exact absurd hts (append_ne_inParens h.balanced h.ne_nil hinside.balanced)
    · intro hp
      exact .member hp.1 ((h.phrase_iff _).2 hp.2)

/-- Tokens stand for arguments if and only if something holds. -/
structure StandsForAll (ts : List Token) (es : List Expr) (sound : Prop) : Prop where
  balanced : Balanced ts
  skeleton : Operators.skeleton ts = skeletonOfAll es
  arguments_iff : Arguments ts es ↔ sound

theorem StandsForAll.congr {es : List Expr} (h : StandsForAll ts es s) (hs : s ↔ s') :
    StandsForAll ts es s' :=
  ⟨h.balanced, h.skeleton, h.arguments_iff.trans hs⟩

theorem standsForAll_nil : StandsForAll [] [] True :=
  ⟨balanced_nil, rfl, fun _ => trivial, fun _ => .none⟩

/-- One argument. -/
theorem Stands.single (h : Stands ts e k s) : StandsForAll ts [e] s := by
  refine ⟨h.balanced, ?_, ?_, ?_⟩
  · rw [h.skeleton, skeletonOfAll]
  · intro ha
    cases ha with
    | some hi =>
        cases hi with
        | last hp => exact ((h.phrase_iff _).1 hp).2
        | more _ hs => exact absurd rfl hs.args_ne_nil
  · intro hs
    exact .some (.last ((h.phrase_iff _).2 ⟨Nat.zero_le k, hs⟩))

/-- One argument and others behind it. -/
theorem Stands.more {es : List Expr} (hne : es ≠ []) (h : Stands us e k s)
    (hs : StandsForAll vs es s') : StandsForAll (us ++ .mark "," :: vs) (e :: es) (s ∧ s') := by
  refine ⟨h.balanced.append (.cons rfl hs.balanced), ?_, ?_, ?_⟩
  · rw [skeleton_append, skeleton_cons rfl, h.skeleton, hs.skeleton, skeletonOfAll_cons e hne]
  · intro ha
    generalize hts : us ++ .mark "," :: vs = ws at ha
    cases ha with
    | some hi =>
        cases hi with
        | last _ => exact absurd rfl hne
        | more hp hmore =>
            -- the skeleton of the first argument tells which comma ends it
            obtain ⟨rfl, rfl⟩ := split_of_skeleton rfl rfl
              (h.skeleton.trans hp.skeleton_eq.symm) hts
            exact ⟨((h.phrase_iff _).1 hp).2, hs.arguments_iff.1 (.some hmore)⟩
  · intro hsound
    cases hs.arguments_iff.2 hsound.2 with
    | none => exact absurd rfl hne
    | some hi => exact .some (.more ((h.phrase_iff _).2 ⟨Nat.zero_le k, hsound.1⟩) hi)

/-- A call. -/
theorem Stands.call {es : List Expr} (hf : Stands us e k s) (ha : StandsForAll vs es s') :
    Stands (us ++ Operators.inParens vs) (.call e es) 14 ((14 ≤ k ∧ s) ∧ s') := by
  refine ⟨hf.balanced.append ha.balanced.inParens, ?_, ?_, ?_⟩
  · simp [Operators.inParens]
  · rw [skeleton_append, skeleton_inParens, hf.skeleton, ha.skeleton, skeletonOf]
  · intro p
    constructor
    · intro hp
      generalize hts : us ++ Operators.inParens vs = ws at hp
      cases hp with
      | call hp hcallee harguments =>
          -- the last pair of parentheses holds the arguments
          obtain ⟨rfl, rfl⟩ := split_of_balanced hf.balanced ha.balanced hcallee.balanced
            harguments.balanced hts
          exact ⟨hp, (hf.phrase_iff _).1 hcallee, ha.arguments_iff.1 harguments⟩
      | parens _ hinside =>
          exact absurd hts (append_ne_inParens hf.balanced hf.ne_nil hinside.balanced)
    · intro hp
      exact .call hp.1 ((hf.phrase_iff _).2 hp.2.1) (ha.arguments_iff.2 hp.2.2)

end Stands

end TinyLang.Script.Operators
