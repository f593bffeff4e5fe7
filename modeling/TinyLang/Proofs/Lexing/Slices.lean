/-
  TinyLang.Proofs.Lexing.Slices — the text between two tokens.

  The range of some tokens that follow one another cuts a slice out of the source text.  The
  slice starts with the first of these tokens, ends with the last one, and has the layout
  between them in it.  Read alone, it holds the same tokens:

      (Token.span ts).slice? source = some text
        →  lexed (text ++ rest) = ts ++ lexed rest        if no token goes on in rest

  Tokens stand in the order of their ranges, so the range of some of them lies within the
  range of all, and in front of the range of later ones.
-/

import TinyLang.Proofs.Lexing.Cut
import TinyLang.Proofs.Parsing.Places
import TinyLang.Text.Cursor

namespace TinyLang

/-! ## §1. Slices -/

open Position (byteLength)

/-- The first `n` bytes of a text; `none` if they end inside a character or behind the text. -/
def Cursor.takeBytes : Nat → List Char → Option (List Char)
  | 0, _ => some []
  | _ + 1, [] => none
  | n + 1, c :: text =>
    if c.utf8Size ≤ n + 1 then (takeBytes (n + 1 - c.utf8Size) text).map (c :: ·) else none

/-- The part of a source text in a range. -/
def Location.slice? (l : Location) (source : String) : Option String :=
  (Cursor.dropBytes l.start.offset source.toList).bind fun rest =>
    (Cursor.takeBytes l.size rest).map String.ofList

/-- A first character takes its bytes off the length of a text. -/
theorem byteLength_cons_eq (c : Char) (text : List Char) :
    ∃ k, byteLength (c :: text) = k + 1 ∧ c.utf8Size ≤ k + 1 ∧
      k + 1 - c.utf8Size = byteLength text := by
  have hpos := c.utf8Size_pos
  refine ⟨byteLength (c :: text) - 1, ?_, ?_, ?_⟩ <;> rw [byteLength] <;> omega

/-- Dropping as many bytes as a text has drops the text. -/
theorem dropBytes_byteLength (text rest : List Char) :
    Cursor.dropBytes (byteLength text) (text ++ rest) = some rest := by
  induction text with
  | nil => cases rest <;> rfl
  | cons c text ih =>
      obtain ⟨k, hk, hle, hsize⟩ := byteLength_cons_eq c text
      rw [hk, List.cons_append, Cursor.dropBytes, if_pos hle, hsize]
      exact ih

/-- Taking as many bytes as a text has takes the text, and cuts no character in two. -/
theorem takeBytes_byteLength (text rest : List Char) :
    Cursor.takeBytes (byteLength text) (text ++ rest) = some text := by
  induction text with
  | nil => cases rest <;> rfl
  | cons c text ih =>
      obtain ⟨k, hk, hle, hsize⟩ := byteLength_cons_eq c text
      rw [hk, List.cons_append, Cursor.takeBytes, if_pos hle, hsize, ih]
      rfl

/-- The range of a part of a text gives that part. -/
theorem slice?_eq (before text behind : List Char) {source : String}
    (h : source.toList = before ++ (text ++ behind)) :
    Location.slice? ⟨Position.start.after before, Position.start.after (before ++ text)⟩ source =
      some (String.ofList text) := by
  have hstart : (Position.start.after before).offset = byteLength before := by
    rw [Position.after_offset]
    exact Nat.zero_add _
  have hsize : Location.size ⟨Position.start.after before, Position.start.after (before ++ text)⟩
      = byteLength text := by
    unfold Location.size
    dsimp only
    rw [Position.after_append, Position.after_offset _ text]
    omega
  unfold Location.slice?
  dsimp only
  rw [h, hstart, hsize, dropBytes_byteLength]
  dsimp only [Option.bind_some]
  rw [takeBytes_byteLength]
  rfl

/-! ## §2. Tokens and their pieces -/

namespace Lexer

/-- The piece of a token among the tokens of some pieces. -/
theorem place_eq_append_cons {p : Position} {ps : List Piece} {us vs : List Token} {t : Token}
    (h : place p ps = us ++ t :: vs) :
    ∃ pa piece pb, ps = pa ++ piece :: pb ∧ place p pa = us ∧ piece.kind = some t.kind ∧
      t.lexeme = ⟨t.kind, lexeme t.kind piece.text⟩ ∧
      t.place = ⟨p.after (pa.flatMap Piece.text), p.after ((pa ++ [piece]).flatMap Piece.text)⟩ ∧
      place (p.after ((pa ++ [piece]).flatMap Piece.text)) pb = vs := by
  induction ps generalizing p us with
  | nil => exact absurd h (by cases us <;> simp [place])
  | cons piece ps ih =>
      -- a piece in front of the one that is looked for
      have hlater : ∀ {us' : List Token}, place (p.after piece.text) ps = us' ++ t :: vs →
          ∃ pa q pb, piece :: ps = (piece :: pa) ++ q :: pb ∧ place (p.after piece.text) pa = us' ∧
            q.kind = some t.kind ∧ t.lexeme = ⟨t.kind, lexeme t.kind q.text⟩ ∧
            t.place = ⟨p.after ((piece :: pa).flatMap Piece.text),
              p.after ((piece :: pa ++ [q]).flatMap Piece.text)⟩ ∧
            place (p.after ((piece :: pa ++ [q]).flatMap Piece.text)) pb = vs := by
        intro us' h'
        obtain ⟨pa, q, pb, rfl, hus, hk, hlex, hplace, hvs⟩ := ih h'
        refine ⟨pa, q, pb, rfl, hus, hk, hlex, ?_, ?_⟩
        · rw [List.cons_append, List.flatMap_cons, List.flatMap_cons, Position.after_append,
            Position.after_append]
          exact hplace
        · rw [List.cons_append, List.flatMap_cons, Position.after_append]
          exact hvs
      cases hk : piece.kind with
      | none =>
          rw [place_layout hk] at h
          obtain ⟨pa, q, pb, hps, hus, hrest⟩ := hlater h
          exact ⟨piece :: pa, q, pb, hps, by rw [place_layout hk, hus], hrest⟩
      | some kind =>
          rw [place_token hk] at h
          cases us with
          | nil =>
              obtain ⟨rfl, rfl⟩ := List.cons.inj h
              exact ⟨[], piece, ps, rfl, rfl, hk, rfl, by simp, by simp⟩
          | cons u us =>
              obtain ⟨rfl, hrest⟩ := List.cons.inj h
              obtain ⟨pa, q, pb, hps, hus, hrest⟩ := hlater hrest
              exact ⟨piece :: pa, q, pb, hps, by rw [place_token hk, hus], hrest⟩

end Lexer

theorem Token.endOf_concat (last : Position) (ts : List Token) (t : Token) :
    endOf last (ts ++ [t]) = t.place.stop := by
  rw [endOf_append]
  rfl

namespace Lexer

/-- Tokens that follow one another come from pieces that do, of which the last one is a token. -/
theorem place_eq_infix {p : Position} {ps : List Piece} {as ts bs : List Token}
    (h : place p ps = as ++ (ts ++ bs)) (hne : ts ≠ []) :
    ∃ pa qs last pb t, ps = pa ++ ((qs ++ [last]) ++ pb) ∧ t ∈ ts ∧ last.kind = some t.kind ∧
      (qs ++ [last]).filterMap lexeme? = ts.map Token.lexeme ∧
      Token.span ts = ⟨p.after (pa.flatMap Piece.text),
        p.after ((pa ++ (qs ++ [last])).flatMap Piece.text)⟩ := by
  cases ts with
  | nil => exact absurd rfl hne
  | cons t ts =>
      obtain ⟨pa, piece, pb, rfl, -, hk, hlex, hplace, hrest⟩ := place_eq_append_cons h
      have hfirst : lexeme? piece = some t.lexeme := by
        rw [lexeme?, hk, hlex]
        rfl
      -- the piece of the first token and that of the last one enclose the pieces between them
      rcases List.eq_nil_or_concat ts with rfl | ⟨ts, u, rfl⟩
      · refine ⟨pa, [], piece, pb, t, rfl, List.mem_cons_self, hk, ?_, ?_⟩
        · rw [List.nil_append, List.filterMap_cons_some hfirst]
          rfl
        · rw [List.nil_append, ← hplace]
          rfl
      · have hrest : place _ pb = ts.concat u ++ bs := hrest
        rw [List.concat_eq_append, List.append_assoc] at hrest
        obtain ⟨pm, last, pe, rfl, hpm, hk', hlex', hplace', -⟩ := place_eq_append_cons hrest
        have hlast : lexeme? last = some u.lexeme := by
          rw [lexeme?, hk', hlex']
          rfl
        refine ⟨pa, piece :: pm, last, pe, u, by simp, by simp, hk', ?_, ?_⟩
        · rw [List.filterMap_append, List.filterMap_cons_some hfirst, ← map_lexeme_place, hpm,
            List.filterMap_cons_some hlast]
          simp
        · rw [List.concat_eq_append]
          show (⟨t.place.start, Token.endOf t.place.stop (ts ++ [u])⟩ : Location) = _
          rw [Token.endOf_concat, hplace, hplace']
          dsimp only
          rw [← Position.after_append, ← List.flatMap_append, List.append_assoc]
          rfl

end Lexer

/-- A comment without an end is the last token of its text. -/
theorem openComment_last {source : String} {us vs : List Token} {t : Token}
    (h : (Lexed.ofSource source).tokens = us ++ t :: vs) (hk : t.kind = .openComment) :
    vs = [] := by
  obtain ⟨pa, piece, pb, hps, -, hkind, -, -, rfl⟩ := Lexer.place_eq_append_cons h
  have hcut := Lexer.cutAll_pieces source.toList
  rw [hps] at hcut
  obtain ⟨hcut, hbehind⟩ := (Lexer.cutAll_append.1 hcut).2
  obtain ⟨_, text⟩ := piece
  subst hkind
  have hnone : pb.flatMap Piece.text ++ [] = [] := (hcut.of_openComment hk).1
  -- behind it there are no characters, and so no pieces
  cases pb with
  | nil => rfl
  | cons q pb =>
      obtain ⟨c, text, htext, -⟩ := hbehind.1.next
      rw [List.flatMap_cons, htext] at hnone
      exact absurd hnone (by simp)

/-- **A SLICE HOLDS ITS TOKENS**: the text in the range of some tokens, read alone or in front of
    what no token goes on with, gives these tokens. -/
theorem slice?_span {source : String} {ts : List Token}
    (hproper : ∀ t ∈ (Lexed.ofSource source).tokens, t.kind ≠ .openComment)
    (hts : ts <:+: (Lexed.ofSource source).tokens) (hne : ts ≠ []) :
    ∃ text, (Token.span ts).slice? source = some (String.ofList text) ∧
      Lexer.Yields Lexer.Stops text (ts.map Token.lexeme) := by
  obtain ⟨as, bs, htokens⟩ := hts
  rw [List.append_assoc] at htokens
  obtain ⟨pa, qs, last, pb, t, hps, ht, hk, hlex, hspan⟩ := Lexer.place_eq_infix htokens.symm hne
  -- the pieces of the source can be cut, and so can those of the tokens in the middle
  have hcut := Lexer.cutAll_pieces source.toList
  rw [hps] at hcut
  obtain ⟨-, hcut⟩ := Lexer.cutAll_append.1 hcut
  obtain ⟨hcut, -⟩ := Lexer.cutAll_append.1 hcut
  obtain ⟨hcut, hlast, -⟩ := Lexer.cutAll_append.1 hcut
  refine ⟨(qs ++ [last]).flatMap Piece.text, ?_, ?_⟩
  · rw [hspan, List.flatMap_append]
    refine slice?_eq _ _ (pb.flatMap Piece.text) ?_
    rw [← Lexer.pieces_flatMap source.toList, hps, List.flatMap_append, List.flatMap_append]
  · intro rest hrest
    rw [← hlex]
    -- the last token is no open comment, so anything that stops it may follow
    have hproper' : t.kind ≠ .openComment := by
      refine hproper t ?_
      rw [← htokens]
      exact List.mem_append_right _ (List.mem_append_left _ ht)
    obtain ⟨_, text⟩ := last
    subst hk
    obtain ⟨c, tail, htext, -⟩ := hlast.next
    obtain rfl : text = c :: tail := htext
    refine Lexer.lexed_append (Lexer.cutAll_append.2 ⟨hcut.congr ?_, ?_, trivial⟩)
    · -- the pieces in front of the last one see its first character
      rfl
    · exact hlast.ends hproper' (by simpa using hrest.ends)

/-! ## §3. The order of tokens -/

/-- A range lies within another one. -/
def Location.Contains (l inner : Location) : Prop :=
  l.start.offset ≤ inner.start.offset ∧ inner.stop.offset ≤ l.stop.offset

/-- A range ends where another one starts, or before. -/
def Location.Precedes (l m : Location) : Prop := l.stop.offset ≤ m.start.offset

/-- Tokens in the order of their ranges. -/
structure Token.Ordered (ts : List Token) : Prop where
  forward : ∀ t ∈ ts, t.place.start.offset ≤ t.place.stop.offset
  apart : ts.Pairwise fun t u => t.place.Precedes u.place

theorem Token.Ordered.sublist {ts us : List Token} (h : Token.Ordered ts) (hs : us.Sublist ts) :
    Token.Ordered us :=
  ⟨fun t ht => h.forward t (hs.subset ht), h.apart.sublist hs⟩

/-- Placed pieces stand one behind the other, none of them in front of where the placing starts. -/
theorem Lexer.place_ordered (p : Position) (ps : List Piece) :
    Token.Ordered (place p ps) ∧ ∀ t ∈ place p ps, p.offset ≤ t.place.start.offset := by
  induction ps generalizing p with
  | nil => exact ⟨⟨by simp [place], by simp [place]⟩, by simp [place]⟩
  | cons piece ps ih =>
      obtain ⟨hordered, hstart⟩ := ih (p.after piece.text)
      -- the induction carries where the placing starts, so that the rest stands behind the first
      have hoffset := Position.after_offset p piece.text
      cases hk : piece.kind with
      | none =>
          rw [place_layout hk]
          refine ⟨hordered, fun t ht => ?_⟩
          have := hstart t ht
          omega
      | some kind =>
          rw [place_token hk]
          refine ⟨⟨?_, List.pairwise_cons.2 ⟨hstart, hordered.apart⟩⟩, ?_⟩
          · intro t ht
            rcases List.mem_cons.1 ht with rfl | ht
            · show p.offset ≤ (p.after piece.text).offset
              omega
            · exact hordered.forward t ht
          · intro t ht
            rcases List.mem_cons.1 ht with rfl | ht
            · exact Nat.le_refl _
            · have := hstart t ht
              omega

theorem Lexed.ordered (source : String) : Token.Ordered (Lexed.ofSource source).tokens :=
  (Lexer.place_ordered _ _).1

/-- The range of some tokens starts with the first one and stops with the last one. -/
theorem Token.span_eq {ts : List Token} (h : ts ≠ []) :
    (∃ t us, ts = t :: us ∧ (span ts).start = t.place.start) ∧
      ∃ us t, ts = us ++ [t] ∧ (span ts).stop = t.place.stop := by
  cases ts with
  | nil => exact absurd rfl h
  | cons t ts =>
      refine ⟨⟨t, ts, rfl, rfl⟩, ?_⟩
      rcases List.eq_nil_or_concat ts with rfl | ⟨us, u, rfl⟩
      · exact ⟨[], t, rfl, rfl⟩
      · rw [List.concat_eq_append]
        exact ⟨t :: us, u, rfl, endOf_concat _ us u⟩

/-- The span of ordered tokens holds the place of each. -/
theorem Token.Ordered.contains {ts : List Token} (h : Token.Ordered ts) {t : Token} (ht : t ∈ ts) :
    (Token.span ts).Contains t.place := by
  obtain ⟨⟨first, us, hus, hstart⟩, vs, last, hvs, hstop⟩ := Token.span_eq (List.ne_nil_of_mem ht)
  have hforward := h.forward
  have hapart := h.apart
  unfold Location.Contains
  rw [hstart, hstop]
  -- no token starts before the first one, and none ends behind the last
  constructor
  · rw [hus] at ht hapart hforward
    rcases List.mem_cons.1 ht with rfl | ht
    · exact Nat.le_refl _
    · have hbefore : first.place.stop.offset ≤ t.place.start.offset :=
        (List.pairwise_cons.1 hapart).1 t ht
      have := hforward first List.mem_cons_self
      omega
  · rw [hvs] at ht hapart hforward
    rcases List.mem_append.1 ht with ht | ht
    · have hbefore : t.place.stop.offset ≤ last.place.start.offset :=
        (List.pairwise_append.1 hapart).2.2 t ht last (by simp)
      have := hforward last (by simp)
      omega
    · obtain rfl := List.mem_singleton.1 ht
      exact Nat.le_refl _

/-- The range of some of the tokens lies within the range of all. -/
theorem Token.Ordered.contains_span {ts us : List Token} (h : Token.Ordered ts) (hs : us ⊆ ts)
    (hne : us ≠ []) : (Token.span ts).Contains (Token.span us) := by
  obtain ⟨⟨first, vs, hvs, hstart⟩, ws, last, hws, hstop⟩ := Token.span_eq hne
  have hfirst := h.contains (hs (by rw [hvs]; exact List.mem_cons_self))
  have hlast := h.contains (hs (show last ∈ us by rw [hws]; simp))
  unfold Location.Contains at hfirst hlast ⊢
  rw [hstart, hstop]
  exact ⟨hfirst.1, hlast.2⟩

/-- The range of earlier tokens lies in front of the range of later ones. -/
theorem Token.Ordered.precedes_span {ts us us' vs vs' : List Token} (h : Token.Ordered ts)
    (hts : ts = us ++ vs) (hu : us' ⊆ us) (hv : vs' ⊆ vs) (hune : us' ≠ []) (hvne : vs' ≠ []) :
    (Token.span us').Precedes (Token.span vs') := by
  obtain ⟨-, xs, last, hxs, hstop⟩ := Token.span_eq hune
  obtain ⟨⟨first, ys, hys, hstart⟩, -⟩ := Token.span_eq hvne
  have hapart := h.apart
  rw [hts] at hapart
  unfold Location.Precedes
  rw [hstart, hstop]
  exact (List.pairwise_append.1 hapart).2.2 last (hu (by rw [hxs]; simp)) first
    (hv (by rw [hys]; exact List.mem_cons_self))

end TinyLang
