import Rollup.Proofs.Token.Partition

namespace Rollup

def TokenKind.IsRun : TokenKind → Prop
  | name | integer => True
  | _ => False

theorem TokenKind.ofChar?_of_extendedBy {k : TokenKind} {c : Char} (h : k.extendedBy c = true) :
    ofChar? c = some k ∧ k.IsRun := by
  cases k with
  | name => exact ⟨ofChar?_of_isLetter h, trivial⟩
  | integer => exact ⟨ofChar?_of_isDigit h, trivial⟩
  | leftBracket | rightBracket | comma | dollar => cases h

structure Piece where
  gap : List Char
  lexeme : Lexeme

namespace Piece

def chars (p : Piece) : List Char := p.gap ++ p.lexeme.text.toList

structure WellFormed (p : Piece) : Prop where
  gap : ∀ c ∈ p.gap, isLayout c = true
  spelled : p.lexeme.Spelled

/-- Names and integers are kept apart from their like. -/
def Before (p q : Piece) : Prop :=
  q.gap = [] → p.lexeme.kind = q.lexeme.kind → ¬ p.lexeme.kind.IsRun

end Piece

def render (ps : List Piece) : List Char := ps.flatMap Piece.chars

@[simp] theorem render_cons (p : Piece) (ps : List Piece) :
    render (p :: ps) = p.chars ++ render ps := rfl

def place : Nat → List Piece → List Token
  | _, [] => []
  | n, p :: ps => ⟨p.lexeme, n + p.gap.length⟩ :: place (n + p.chars.length) ps

theorem toLexeme_place (n : Nat) (ps : List Piece) :
    (place n ps).map Token.toLexeme = ps.map Piece.lexeme := by
  induction ps generalizing n with
  | nil => rfl
  | cons p ps ih => simp [place, ih]

namespace Cursor

open TokenKind

theorem head?_not_extendedBy {p : Piece} {ps : List Piece} {last : List Char}
    (hps : ∀ q ∈ ps, q.WellFormed)
    (hlast : ∀ c ∈ last, isLayout c = true) (h : (p :: ps).IsChain Piece.Before) :
    ∀ c ∈ (render ps ++ last).head?, p.lexeme.kind.extendedBy c = false := by
  intro c hc
  by_contra hextended
  obtain ⟨hkind, hrun⟩ := ofChar?_of_extendedBy (by simpa using hextended)
  have hlayout := isLayout_eq_false hkind
  cases ps with
  | nil =>
    have := hlast c (List.mem_of_mem_head? hc)
    simp [hlayout] at this
  | cons q ps =>
    have hbefore := (List.isChain_cons_cons.1 h).1
    obtain ⟨hgap, hspelled⟩ := hps q List.mem_cons_self
    obtain ⟨gap, ⟨k, text⟩⟩ := q
    cases gap with
    | nil =>
      -- What comes next is the first character of the next lexeme, which begins a token of the next
      -- kind only.
      simp only [Lexeme.Spelled] at hspelled
      simp only [render, List.flatMap_cons, Piece.chars, List.nil_append] at hc
      cases htext : text.toList with
      | nil => exact absurd htext hspelled.ne_nil
      | cons d ds =>
        rw [htext] at hspelled hc
        obtain rfl : d = c := by simpa using hc
        have hnext := hspelled.cons.1
        rw [hkind] at hnext
        exact hbefore rfl (Option.some.inj hnext) hrun
    | cons d ds =>
      obtain rfl : d = c := by simpa [render, Piece.chars] using hc
      have := hgap d List.mem_cons_self
      simp [hlayout] at this

theorem reads_render {ps : List Piece} {last : List Char} (hps : ∀ p ∈ ps, p.WellFormed)
    (hchain : ps.IsChain Piece.Before) (hlast : ∀ c ∈ last, isLayout c = true) (n : Nat) :
    Reads ⟨n, render ps ++ last⟩ (place n ps) ⟨n + (render ps).length, last⟩ := by
  induction ps generalizing n with
  | nil => exact .nil
  | cons p ps ih =>
    obtain ⟨hp, hps⟩ := List.forall_mem_cons.1 hps
    have hstop := head?_not_extendedBy hps hlast hchain
    have htail := ih hps hchain.tail (n + p.chars.length)
    have hnext : next ⟨n, render (p :: ps) ++ last⟩ =
        .ok (some ⟨p.lexeme, n + p.gap.length⟩) ⟨n + p.chars.length, render ps ++ last⟩ := by
      rw [render_cons, Piece.chars, List.append_assoc, List.append_assoc, next_layout hp.gap,
        next_append hp.spelled hstop, String.ofList_toList, List.length_append, ← Nat.add_assoc]
    rw [render_cons, List.length_append, ← Nat.add_assoc]
    exact .cons hnext htail

theorem tokens_render {ps : List Piece} {last : List Char} (hps : ∀ p ∈ ps, p.WellFormed)
    (hchain : ps.IsChain Piece.Before) (hlast : ∀ c ∈ last, isLayout c = true) (n : Nat) :
    tokens ⟨n, render ps ++ last⟩ = (place n ps, none) := by
  apply tokens_eq_iff.2
  refine ⟨_, ⟨n + (render ps).length + last.length, []⟩, reads_render hps hchain hlast n, ?_⟩
  have hend := next_layout hlast (n + (render ps).length) []
  rw [List.append_nil] at hend
  rw [hend]
  rfl

theorem tokens_start_render {ps : List Piece} (hps : ∀ p ∈ ps, p.WellFormed)
    (hchain : ps.IsChain Piece.Before) :
    ∃ ts, (start (String.ofList (render ps))).tokens = (ts, none) ∧
      ts.map Token.toLexeme = ps.map Piece.lexeme := by
  refine ⟨place 0 ps, ?_, toLexeme_place 0 ps⟩
  have hnil : ∀ c ∈ ([] : List Char), isLayout c = true := nofun
  have htokens := tokens_render hps hchain hnil 0
  rw [List.append_nil] at htokens
  rwa [start, String.toList_ofList]

end Cursor

def spaced : List Char → List Lexeme → List Piece
  | _, [] => []
  | gap, l :: ls => ⟨gap, l⟩ :: spaced (if l.kind = .comma then [' '] else []) ls

theorem map_lexeme_spaced (gap : List Char) (ls : List Lexeme) :
    (spaced gap ls).map Piece.lexeme = ls := by
  induction ls generalizing gap with
  | nil => rfl
  | cons l ls ih => rw [spaced, List.map_cons, ih]

theorem wellFormed_spaced {gap : List Char} {ls : List Lexeme} (hgap : ∀ c ∈ gap, isLayout c = true)
    (hls : ∀ l ∈ ls, l.Spelled) : ∀ p ∈ spaced gap ls, p.WellFormed := by
  induction ls generalizing gap with
  | nil => exact fun _ h => nomatch h
  | cons l ls ih =>
    obtain ⟨hl, hls⟩ := List.forall_mem_cons.1 hls
    refine List.forall_mem_cons.2 ⟨⟨hgap, hl⟩, ih ?_ hls⟩
    split
    · exact List.forall_mem_singleton.2 (by decide)
    · exact nofun

def Lexeme.Apart (l m : Lexeme) : Prop := l.kind = m.kind → ¬ l.kind.IsRun

theorem isChain_spaced {gap : List Char} {ls : List Lexeme} (h : ls.IsChain Lexeme.Apart) :
    (spaced gap ls).IsChain Piece.Before := by
  rw [← map_lexeme_spaced gap ls, List.isChain_map] at h
  apply h.imp
  exact fun _ _ hapart _ => hapart

theorem tokens_spaced {ls : List Lexeme} (hls : ∀ l ∈ ls, l.Spelled) (h : ls.IsChain Lexeme.Apart) :
    ∃ ts, (Cursor.start (String.ofList (render (spaced [] ls)))).tokens = (ts, none) ∧
      ts.map Token.toLexeme = ls := by
  have hnil : ∀ c ∈ ([] : List Char), isLayout c = true := nofun
  have htokens := Cursor.tokens_start_render (wellFormed_spaced hnil hls) (isChain_spaced h)
  rwa [map_lexeme_spaced] at htokens

def blanked (ls : List Lexeme) : List Piece := ls.map (Piece.mk [' '])

theorem map_lexeme_blanked (ls : List Lexeme) : (blanked ls).map Piece.lexeme = ls := by
  rw [blanked, List.map_map]
  exact List.map_id ls

theorem wellFormed_blanked {ls : List Lexeme} (hls : ∀ l ∈ ls, l.Spelled) :
    ∀ p ∈ blanked ls, p.WellFormed := by
  intro p hp
  obtain ⟨l, hl, rfl⟩ := List.mem_map.1 hp
  exact ⟨List.forall_mem_singleton.2 (by decide), hls l hl⟩

theorem isChain_blanked (ls : List Lexeme) : (blanked ls).IsChain Piece.Before := by
  rw [blanked, List.isChain_map]
  induction ls with
  | nil => exact .nil
  | cons l ls ih =>
    cases ls with
    | nil => exact .singleton l
    | cons m ls => exact List.isChain_cons_cons.2 ⟨nofun, ih⟩

theorem tokens_blanked {ls : List Lexeme} (hls : ∀ l ∈ ls, l.Spelled) :
    ∃ ts, (Cursor.start (String.ofList (render (blanked ls)))).tokens = (ts, none) ∧
      ts.map Token.toLexeme = ls := by
  have htokens := Cursor.tokens_start_render (wellFormed_blanked hls) (isChain_blanked ls)
  rwa [map_lexeme_blanked] at htokens

def joined : List Lexeme → List Piece
  | [] => []
  | l :: ls => ⟨[], l⟩ :: blanked ls

theorem render_joined (ls : List Lexeme) :
    render (joined ls) = (" ".intercalate (ls.map Lexeme.text)).toList := by
  cases ls with
  | nil => rfl
  | cons l ls =>
    induction ls generalizing l with
    | nil => simp [joined, blanked, Piece.chars, render]
    | cons m ls ih =>
      rw [List.map_cons, List.map_cons, String.intercalate_cons_cons, String.toList_append,
        String.toList_append, ← List.map_cons, ← ih m]
      simp [joined, blanked, Piece.chars]

theorem map_lexeme_joined (ls : List Lexeme) : (joined ls).map Piece.lexeme = ls := by
  cases ls with
  | nil => rfl
  | cons l ls => exact congrArg (l :: ·) (map_lexeme_blanked ls)

theorem wellFormed_joined {ls : List Lexeme} (hls : ∀ l ∈ ls, l.Spelled) :
    ∀ p ∈ joined ls, p.WellFormed := by
  cases ls with
  | nil => exact nofun
  | cons l ls =>
    obtain ⟨hl, hls⟩ := List.forall_mem_cons.1 hls
    exact List.forall_mem_cons.2 ⟨⟨nofun, hl⟩, wellFormed_blanked hls⟩

theorem isChain_joined (ls : List Lexeme) : (joined ls).IsChain Piece.Before := by
  cases ls with
  | nil => exact .nil
  | cons l ls =>
    have htail := isChain_blanked ls
    cases ls with
    | nil => exact .singleton _
    | cons m ls => exact List.isChain_cons_cons.2 ⟨nofun, htail⟩

theorem getElem?_place (n : Nat) (before : List Piece) (p : Piece) (after : List Piece) :
    (place n (before ++ p :: after))[before.length]? =
      some ⟨p.lexeme, n + (render before ++ p.gap).length⟩ := by
  induction before generalizing n with
  | nil => rfl
  | cons q before ih =>
    rw [List.cons_append, place, List.length_cons, List.getElem?_cons_succ, ih]
    simp [Nat.add_assoc]

/-- An iteration over pieces that keep names and integers apart gives their lexemes, each at the
place where it was put. So does one over the lexemes of any text without errors that are joined by
single blanks. -/
theorem items_render :
    (∀ (ps : List Piece) (last : List Char), (∀ p ∈ ps, p.WellFormed) → ps.IsChain Piece.Before →
      (∀ c ∈ last, isLayout c = true) →
        (Cursor.start (String.ofList (render ps ++ last))).items =
        Cursor.itemsOf (place 0 ps) none ∧ (place 0 ps).map Token.toLexeme = ps.map Piece.lexeme ∧
          ∀ before p after, ps = before ++ p :: after →
            (place 0 ps)[before.length]? = some ⟨p.lexeme, (render before ++ p.gap).length⟩) ∧
      ∀ (text : String) (ts : List Token), (Cursor.start text).items = Cursor.itemsOf ts none →
        ∃ us, (Cursor.start (" ".intercalate (ts.map fun t => t.text))).items =
        Cursor.itemsOf us none ∧ us.map Token.toLexeme = ts.map Token.toLexeme := by
  constructor
  · intro ps last hps hchain hlast
    refine ⟨?_, toLexeme_place 0 ps, ?_⟩
    · rw [Cursor.items_eq_itemsOf, Cursor.start, String.toList_ofList]
      exact Cursor.tokens_render hps hchain hlast 0
    · rintro before p after rfl
      rw [getElem?_place, Nat.zero_add]
  · intro text ts h
    have htiles := (Cursor.tokens_eq_iff_tiles.1 (Cursor.items_eq_itemsOf.1 h)).1
    have hspelled : ∀ l ∈ ts.map Token.toLexeme, l.Spelled := by
      intro l hl
      obtain ⟨t, ht, rfl⟩ := List.mem_map.1 hl
      exact htiles.spelled t ht
    obtain ⟨us, hus, hlexemes⟩ :=
      Cursor.tokens_start_render (wellFormed_joined hspelled)
        (isChain_joined (ts.map Token.toLexeme))
    rw [map_lexeme_joined] at hlexemes
    rw [render_joined, String.ofList_toList, List.map_map] at hus
    exact ⟨us, Cursor.items_eq_itemsOf.2 hus, hlexemes⟩

theorem items_render_touching :
    let ps : List Piece :=
      [⟨[' '], ⟨.name, "sum"⟩⟩, ⟨[], ⟨.leftBracket, "("⟩⟩, ⟨['\t'], ⟨.integer, "05"⟩⟩,
        ⟨[], ⟨.name, "sec"⟩⟩, ⟨['\n', '\r'], ⟨.name, "on"⟩⟩]
    let text := " sum(\t05sec\n\ron "
    (∀ p ∈ ps, p.WellFormed) ∧ ps.IsChain Piece.Before ∧ (∀ c ∈ [' '], isLayout c = true) ∧
      String.ofList (render ps ++ [' ']) = text ∧
      (Cursor.start text).items = Cursor.itemsOf [⟨⟨.name, "sum"⟩, 1⟩, ⟨⟨.leftBracket, "("⟩, 4⟩,
        ⟨⟨.integer, "05"⟩, 6⟩, ⟨⟨.name, "sec"⟩, 8⟩, ⟨⟨.name, "on"⟩, 13⟩] none ∧
      ∃ us, (Cursor.start "sum ( 05 sec on").items = Cursor.itemsOf us none ∧
        us.map Token.toLexeme = ps.map Piece.lexeme := by
  intro ps text
  have gap (cs : List Char) (hcs : cs.all isLayout = true) : ∀ c ∈ cs, isLayout c = true :=
    List.all_eq_true.1 hcs
  have hps : ∀ p ∈ ps, p.WellFormed := by
    simp only [ps, List.forall_mem_cons]
    exact ⟨⟨gap _ (by decide), .name (by decide) (List.all_eq_true.1 (by decide))⟩,
      ⟨gap _ rfl, .leftBracket⟩,
      ⟨gap _ (by decide), .integer (by decide) (List.all_eq_true.1 (by decide))⟩,
      ⟨gap _ rfl, .name (by decide) (List.all_eq_true.1 (by decide))⟩,
      ⟨gap _ (by decide), .name (by decide) (List.all_eq_true.1 (by decide))⟩, nofun⟩
  have hchain : ps.IsChain Piece.Before := by simp [ps, Piece.Before]
  have hlast : ∀ c ∈ [' '], isLayout c = true := List.forall_mem_singleton.2 (by decide)
  have htext : String.ofList (render ps ++ [' ']) = text := by decide
  have hitems := (items_render.1 ps [' '] hps hchain hlast).1
  rw [htext] at hitems
  exact ⟨hps, hchain, hlast, htext, hitems, items_render.2 text _ hitems⟩

end Rollup
