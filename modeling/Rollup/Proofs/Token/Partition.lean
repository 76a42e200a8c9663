import Rollup.Proofs.Token.Place

/-!
The tokens of a text are a partition of it.

An iteration gives the tokens one behind the other, and at most one error behind the last of them.
The tokens tile the text up to the first character outside the alphabet, or up to its end if there
is none: nothing but layout stands between them, and none of them could be longer. There is no other
way to tile a text (`items_eq_iff_tiles`).
-/

namespace Rollup

def Token.Covers (t : Token) (i : Nat) : Prop := t.position ≤ i ∧ i < t.position + t.text.length

/-- Tokens tile a text from the place `n` up to the place `m`: they stand there one behind the
other, and nothing but layout stands between them. -/
structure Tiles (text : String) (n m : Nat) (ts : List Token) : Prop where
  slice : ∀ t ∈ ts, Occurs text t.text.toList t.position
  spelled : ∀ t ∈ ts, t.Spelled
  maximal : ∀ t ∈ ts, ∀ c, text.toList[t.position + t.text.length]? = some c →
    t.kind.extendedBy c = false
  between : ∀ t ∈ ts, n ≤ t.position ∧ t.position + t.text.length ≤ m
  apart : ts.Pairwise fun s t => s.position < t.position ∧ s.position + s.text.length ≤ t.position
  layout : ∀ i c, n ≤ i → i < m → text.toList[i]? = some c → (∀ t ∈ ts, ¬ t.Covers i) →
    isLayout c = true

/-- The error that a text is due: the first of its characters outside the alphabet. -/
inductive Stops (text : String) : Option LexError → Prop
  | ended : (∀ c ∈ text.toList, InAlphabet c) → Stops text none
  | foreign : text.toList[n]? = some c → ¬ InAlphabet c →
      (∀ i d, i < n → text.toList[i]? = some d → InAlphabet d) →
      Stops text (some (.unexpectedCharacter c n))

def extent (text : String) : Option LexError → Nat
  | none => text.length
  | some e => e.position

namespace Cursor

variable {text : String}

theorem tiles_nil_iff {n : Nat} {gap after : List Char} (h : Within text ⟨n, gap ++ after⟩) :
    Tiles text n (n + gap.length) [] ↔ ∀ ch ∈ gap, isLayout ch = true := by
  have hat := h.append.1
  constructor
  · intro htiles ch hch
    obtain ⟨i, hi, rfl⟩ := List.mem_iff_getElem.1 hch
    refine htiles.layout (n + i) _ (Nat.le_add_right _ _) (Nat.add_lt_add_left hi n) ?_ nofun
    rw [hat.getElem? hi, List.getElem?_eq_getElem hi]
  · intro hgap
    refine ⟨nofun, nofun, nofun, nofun, .nil, fun i ch hn hm hi _ => ?_⟩
    obtain ⟨j, rfl⟩ := Nat.exists_eq_add_of_le hn
    rw [hat.getElem? (Nat.lt_of_add_lt_add_left hm)] at hi
    exact hgap ch (List.mem_of_getElem? hi)

theorem tiles_token {n : Nat} {k : TokenKind} {run after : List Char}
    (h : Within text ⟨n, run ++ after⟩)
    (hrun : k.Spells run) (hstop : ∀ ch ∈ after.head?, k.extendedBy ch = false) :
    Tiles text n (n + run.length) [⟨⟨k, String.ofList run⟩, n⟩] where
  slice := by simpa using h.append.1
  spelled := by simpa [Lexeme.Spelled] using hrun
  maximal := by
    have hnext := h.append.2.getElem? 0
    simp only [Nat.add_zero, ← List.head?_eq_getElem?] at hnext
    simpa [hnext] using hstop
  between := by simp
  apart := List.pairwise_singleton _ _
  layout i ch hn hm _ hout := absurd ⟨hn, by simpa using hm⟩ (hout _ List.mem_cons_self)

end Cursor

open Cursor

namespace Tiles

variable {text : String} {n k m : Nat} {ss ts : List Token}

theorem length_pos (h : Tiles text n m ts) {t : Token} (ht : t ∈ ts) : 0 < t.text.length := by
  rw [← String.length_toList]
  exact List.length_pos_of_ne_nil (h.spelled t ht).ne_nil

theorem append (hs : Tiles text n k ss) (ht : Tiles text k m ts) (hnk : n ≤ k) (hkm : k ≤ m) :
    Tiles text n m (ss ++ ts) where
  slice := List.forall_mem_append.2 ⟨hs.slice, ht.slice⟩
  spelled := List.forall_mem_append.2 ⟨hs.spelled, ht.spelled⟩
  maximal := List.forall_mem_append.2 ⟨hs.maximal, ht.maximal⟩
  between := by
    refine List.forall_mem_append.2 ⟨fun t h => ?_, fun t h => ?_⟩
    · exact ⟨(hs.between t h).1, (hs.between t h).2.trans hkm⟩
    · exact ⟨hnk.trans (ht.between t h).1, (ht.between t h).2⟩
  apart := by
    refine List.pairwise_append.2 ⟨hs.apart, ht.apart, fun s h t h' => ?_⟩
    have hpos := hs.length_pos h
    have hs := (hs.between s h).2
    have ht := (ht.between t h').1
    omega
  layout i ch hn hm hi hout := by
    obtain ⟨houts, houtt⟩ := List.forall_mem_append.1 hout
    rcases Nat.lt_or_ge i k with hik | hki
    · exact hs.layout i ch hn hik hi houts
    · exact ht.layout i ch hki hm hi houtt

theorem gap_of_cons {t : Token} (h : Tiles text n m (t :: ts)) : Tiles text n t.position [] := by
  refine ⟨nofun, nofun, nofun, nofun, .nil, fun i ch hn hi hat _ => ?_⟩
  have hpos := h.length_pos List.mem_cons_self
  have hm := (h.between t List.mem_cons_self).2
  have hbehind := (List.pairwise_cons.1 h.apart).1
  refine h.layout i ch hn (by omega) hat
    (List.forall_mem_cons.2 ⟨fun hcovers => ?_, fun s hs hcovers => ?_⟩)
  · exact absurd hcovers.1 (Nat.not_le.2 hi)
  · exact absurd hcovers.1 (Nat.not_le.2 (hi.trans (hbehind s hs).1))

theorem of_cons {t : Token} (h : Tiles text n m (t :: ts)) :
    Tiles text (t.position + t.text.length) m ts := by
  obtain ⟨hbehind, hapart⟩ := List.pairwise_cons.1 h.apart
  have hn := (h.between t List.mem_cons_self).1
  exact
    { slice := (List.forall_mem_cons.1 h.slice).2
      spelled := (List.forall_mem_cons.1 h.spelled).2
      maximal := (List.forall_mem_cons.1 h.maximal).2
      between := fun s hs => ⟨(hbehind s hs).2, (h.between s (List.mem_cons_of_mem t hs)).2⟩
      apart := hapart
      layout := fun i ch hi hm hat hout =>
        h.layout i ch (by omega) hm hat
          (List.forall_mem_cons.2 ⟨fun hcovers => absurd hcovers.2 (Nat.not_lt.2 hi), hout⟩) }

theorem inAlphabet (h : Tiles text 0 m ts) {i : Nat} {ch : Char} (hm : i < m)
    (hi : text.toList[i]? = some ch) :
    InAlphabet ch := by
  by_cases hout : ∀ t ∈ ts, ¬ t.Covers i
  · exact .inl (h.layout i ch (Nat.zero_le i) hm hi hout)
  · push Not at hout
    obtain ⟨t, ht, hle, hlt⟩ := hout
    obtain ⟨j, rfl⟩ := Nat.exists_eq_add_of_le hle
    have hj : j < t.text.toList.length := by
      rw [String.length_toList]
      exact Nat.lt_of_add_lt_add_left hlt
    rw [(h.slice t ht).getElem? hj] at hi
    exact (h.spelled t ht).inAlphabet ch (List.mem_of_getElem? hi)

end Tiles

namespace Cursor

variable {text : String} {c d : Cursor}

theorem tiles_of_next (h : c.Within text) {t : Token} (hnext : next c = .ok (some t) d) :
    Tiles text c.offset d.offset [t] ∧ c.offset ≤ d.offset := by
  obtain ⟨n, cs⟩ := c
  cases finds_of_next hnext with
  | token hrest hgap hrun hstop =>
    subst hrest
    have hgapped := (tiles_nil_iff h).2 hgap
    have htoken := tiles_token h.append.2 hrun hstop
    exact ⟨hgapped.append htoken (Nat.le_add_right _ _) (Nat.le_add_right _ _), by simp only; omega⟩

theorem tiles_of_reads {ts : List Token} (hreads : Reads c ts d) (h : c.Within text) :
    Tiles text c.offset d.offset ts ∧ c.offset ≤ d.offset := by
  induction hreads with
  | @nil c =>
    have hnil : Within text ⟨c.offset, [] ++ c.rest⟩ := h
    exact ⟨(tiles_nil_iff hnil).2 nofun, Nat.le_refl _⟩
  | cons hnext _ ih =>
    obtain ⟨hhead, hle⟩ := tiles_of_next h hnext
    obtain ⟨htail, hle'⟩ := ih (h.of_next hnext).2
    exact ⟨hhead.append htail hle hle', hle.trans hle'⟩

theorem tiles_of_end (h : c.Within text) (hnext : next c = .ok none d) :
    Tiles text c.offset text.length [] := by
  cases finds_of_next hnext with
  | ended hgap =>
    rw [← h.offset_add_length]
    obtain ⟨n, cs⟩ := c
    rw [← cs.append_nil] at h
    exact (tiles_nil_iff h).2 hgap

theorem tiles_of_error (h : c.Within text) {e : LexError} (hnext : next c = .error e d) :
    Tiles text c.offset e.position [] ∧ c.offset ≤ e.position ∧
      ∃ ch, e = .unexpectedCharacter ch e.position ∧ text.toList[e.position]? = some ch ∧
      ¬ InAlphabet ch := by
  obtain ⟨n, cs⟩ := c
  cases finds_of_next hnext with
  | @foreign gap ch after hrest hgap hforeign =>
    subst hrest
    have hchar : Within text ⟨n + gap.length, [ch] ++ after⟩ := h.append.2
    exact ⟨(tiles_nil_iff h).2 hgap, Nat.le_add_right _ _, ch, rfl,
      occurs_singleton.1 hchar.append.1, hforeign⟩

theorem tiles_of_tokens {ts : List Token} {stop : Option LexError}
    (h : (start text).tokens = (ts, stop)) :
    Tiles text 0 (extent text stop) ts ∧ Stops text stop := by
  have hsplit : (start text).tokens.1 = ts ++ [] := by rw [h, List.append_nil]
  obtain ⟨d, hreads, hd⟩ := exists_reads hsplit
  rw [h] at hd
  have hwithin := ((within_start text).of_reads hreads).2
  obtain ⟨htiles, hle⟩ := tiles_of_reads hreads (within_start text)
  cases stop with
  | none =>
    obtain ⟨e, hend⟩ := exists_end hd
    have hle' : d.offset ≤ text.length := by
      rw [← hwithin.offset_add_length]
      exact Nat.le_add_right _ _
    have hall := htiles.append (tiles_of_end hwithin hend) hle hle'
    rw [List.append_nil] at hall
    refine ⟨hall, .ended fun ch hch => ?_⟩
    obtain ⟨i, hi, rfl⟩ := List.mem_iff_getElem.1 hch
    rw [String.length_toList] at hi
    exact hall.inAlphabet hi (List.getElem?_eq_getElem _)
  | some e =>
    obtain ⟨e', herror⟩ := exists_error hd
    obtain ⟨hgap, hle', ch, hch, hat, hforeign⟩ := tiles_of_error hwithin herror
    have hall := htiles.append hgap hle hle'
    rw [List.append_nil] at hall
    refine ⟨hall, ?_⟩
    rw [hch]
    exact .foreign hat hforeign fun i d hi hd => hall.inAlphabet hi hd

theorem next_of_tiles {m : Nat} {t : Token} {ts : List Token} (hc : c.Within text)
    (h : Tiles text c.offset m (t :: ts)) :
    ∃ d, next c = .ok (some t) d ∧ d.Within text ∧ d.offset ≤ m ∧ Tiles text d.offset m ts := by
  obtain ⟨n, cs⟩ := c
  obtain ⟨hn, hm⟩ := h.between t List.mem_cons_self
  obtain ⟨gap, after, rfl, hposition⟩ := hc.exists_gap (h.slice t List.mem_cons_self) hn
  -- What stands in front of the token is tiled by no token, so a step passes over it.
  have hgap : ∀ ch ∈ gap, isLayout ch = true := by
    refine (tiles_nil_iff hc).1 ?_
    rw [hposition]
    exact h.gap_of_cons
  have hwithin : Within text ⟨t.position + t.text.length, after⟩ := by
    have htail := hc.append.2.append.2
    rwa [hposition, String.length_toList] at htail
  have hstop : ∀ ch ∈ after.head?, t.kind.extendedBy ch = false := by
    intro ch hch
    apply h.maximal t List.mem_cons_self
    rw [List.head?_eq_getElem?] at hch
    exact (hwithin.getElem? 0).trans hch
  have hnext := next_append (h.spelled t List.mem_cons_self) hstop (n + gap.length)
  refine ⟨⟨t.position + t.text.length, after⟩, ?_, hwithin, hm, h.of_cons⟩
  rw [next_layout hgap, hnext, String.ofList_toList, String.length_toList, hposition]

theorem reads_of_tiles {m : Nat} {ts : List Token} (hc : c.Within text) (hm : c.offset ≤ m)
    (h : Tiles text c.offset m ts) : ∃ d, Reads c ts d ∧ d.Within text ∧ d.offset ≤ m ∧
    Tiles text d.offset m [] := by
  induction ts generalizing c with
  | nil => exact ⟨c, .nil, hc, hm, h⟩
  | cons t ts ih =>
    obtain ⟨d, hnext, hd, hdm, htail⟩ := next_of_tiles hc h
    obtain ⟨e, hreads, he⟩ := ih hd hdm htail
    exact ⟨e, .cons hnext hreads, he⟩

theorem tokens_of_tiles_nil {stop : Option LexError} (hc : c.Within text)
    (hle : c.offset ≤ extent text stop)
    (h : Tiles text c.offset (extent text stop) []) (hstop : Stops text stop) :
    c.tokens = ([], stop) := by
  obtain ⟨n, cs⟩ := c
  cases hstop with
  | ended =>
    rw [extent, ← hc.offset_add_length] at h
    rw [← cs.append_nil] at hc ⊢
    have hnext := next_layout ((tiles_nil_iff hc).1 h) n []
    exact tokens_of_end hnext
  | foreign hat hforeign =>
    obtain ⟨gap, after, rfl, hposition⟩ := hc.exists_gap (occurs_singleton.2 hat) hle
    rw [extent, LexError.position, ← hposition] at h
    have hnext := next_layout ((tiles_nil_iff hc).1 h) n
    rw [← hposition]
    exact tokens_of_error ((hnext _).trans (next_foreign hforeign _ after))

theorem tokens_eq_iff_tiles {ts : List Token} {stop : Option LexError} :
    (start text).tokens = (ts, stop) ↔ Tiles text 0 (extent text stop) ts ∧ Stops text stop := by
  constructor
  · exact tiles_of_tokens
  · rintro ⟨htiles, hstop⟩
    obtain ⟨d, hreads, hd, hle, hnil⟩ := reads_of_tiles (within_start text) (Nat.zero_le _) htiles
    rw [hreads.tokens_eq, tokens_of_tiles_nil hd hle hnil hstop, List.append_nil]

theorem length_lt_of_iterate {x : Except LexError Token} (h : iterate c = (some x, d)) :
    d.rest.length < c.rest.length := by
  unfold iterate at h
  split at h
  · rename_i hnext
    cases h
    cases finds_of_next hnext with
    | foreign hrest => simp [hrest, toEnd]
  · cases h
  · rename_i hnext
    cases h
    exact length_lt_of_next hnext

def items (c : Cursor) : List (Except LexError Token) :=
  match h : iterate c with
  | (none, _) => []
  | (some x, d) =>
    have := length_lt_of_iterate h
    x :: d.items
termination_by c.rest.length

def itemsOf (ts : List Token) (stop : Option LexError) : List (Except LexError Token) :=
  ts.map .ok ++ stop.toList.map .error

theorem items_of_iterate {x : Except LexError Token} (h : iterate c = (some x, d)) :
    c.items = x :: d.items := by
  rw [items]
  split <;> rename_i hiterate <;> cases h.symm.trans hiterate
  rfl

theorem items_of_ended (h : iterate c = (none, d)) : c.items = [] := by
  rw [items]
  split <;> rename_i hiterate <;> cases h.symm.trans hiterate
  rfl

theorem items_toEnd (c : Cursor) : c.toEnd.items = [] := items_of_ended rfl

theorem items_eq (c : Cursor) : c.items = itemsOf c.tokens.1 c.tokens.2 := by
  cases hnext : next c with
  | error e d =>
    have hiterate : iterate c = (some (.error e), d.toEnd) := by simp only [iterate, hnext]
    rw [items_of_iterate hiterate, items_toEnd, tokens_of_error hnext]
    rfl
  | ok t? d =>
    cases t? with
    | none =>
      have hiterate : iterate c = (none, d) := by simp only [iterate, hnext]
      rw [items_of_ended hiterate, tokens_of_end hnext]
      rfl
    | some t =>
      have hiterate : iterate c = (some (.ok t), d) := by simp only [iterate, hnext]
      have := length_lt_of_next hnext
      rw [items_of_iterate hiterate, tokens_of_next hnext, items_eq d]
      rfl
termination_by c.rest.length

theorem itemsOf_inj {ts us : List Token} {stop stop' : Option LexError} :
    itemsOf ts stop = itemsOf us stop' ↔ ts = us ∧ stop = stop' := by
  induction ts generalizing us with
  | nil =>
    cases us with
    | nil => cases stop <;> cases stop' <;> simp [itemsOf]
    | cons u us => cases stop <;> simp [itemsOf]
  | cons t ts ih =>
    cases us with
    | nil => cases stop' <;> simp [itemsOf]
    | cons u us =>
      have hcons : itemsOf (t :: ts) stop = itemsOf (u :: us) stop' ↔ t = u ∧
          itemsOf ts stop = itemsOf us stop' := by
        simp [itemsOf]
      rw [hcons, ih, List.cons.injEq, and_assoc]

theorem items_eq_itemsOf {ts : List Token} {stop : Option LexError} :
    c.items = itemsOf ts stop ↔ c.tokens = (ts, stop) := by
  rw [items_eq, itemsOf_inj, Prod.ext_iff]

/-- An iteration gives the only tokens that tile the text up to where it has to stop, one behind the
other, and then, if there is a character outside the alphabet, an error at the first of these. -/
theorem items_eq_iff_tiles (text : String) :
    (∃ ts stop, (start text).items = itemsOf ts stop) ∧
      ∀ ts stop, (start text).items = itemsOf ts stop ↔ Tiles text 0 (extent text stop) ts ∧
      Stops text stop := by
  refine ⟨⟨_, _, items_eq (start text)⟩, fun ts stop => ?_⟩
  rw [items_eq_itemsOf, tokens_eq_iff_tiles]

end Cursor

end Rollup
