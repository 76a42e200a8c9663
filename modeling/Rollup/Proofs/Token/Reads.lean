import Mathlib
import Rollup.Token.Cursor

namespace Rollup

theorem Unicode.covers_of_lt {s : Span} {rest : List Span} {n : Nat} (h : n < s.first) :
    covers (s :: rest) n = false := by
  simp [covers, h]

theorem isLetter_ge {c : Char} (h : isLetter c = true) : 65 ≤ c.toNat := by
  by_contra hlt
  have hcovers : Unicode.isAlphabetic c = false := Unicode.covers_of_lt (by simpa using hlt)
  have hscore : c ≠ '_' := by
    rintro rfl
    exact hlt (by decide)
  simp [isLetter, hcovers, hscore] at h

theorem isDigit_bounds {c : Char} (h : c.isDigit = true) : 48 ≤ c.toNat ∧ c.toNat ≤ 57 := by
  simp only [Char.isDigit, Bool.and_eq_true, decide_eq_true_eq, ge_iff_le] at h
  exact h

def InAlphabet (c : Char) : Prop :=
  isLayout c = true ∨ c ∈ ['(', ')', ',', '$'] ∨ isLetter c = true ∨ c.isDigit = true

namespace TokenKind

inductive Spells : TokenKind → List Char → Prop
  | name : cs ≠ [] → (∀ c ∈ cs, isLetter c = true) → Spells .name cs
  | integer : cs ≠ [] → (∀ c ∈ cs, c.isDigit = true) → Spells .integer cs
  | leftBracket : Spells .leftBracket ['(']
  | rightBracket : Spells .rightBracket [')']
  | comma : Spells .comma [',']
  | dollar : Spells .dollar ['$']

theorem ofChar?_of_isLetter {c : Char} (h : isLetter c = true) : ofChar? c = some .name := by
  have hge := isLetter_ge h
  unfold ofChar?
  split
  case h_5 => simp [h]
  all_goals exact absurd hge (by decide)

theorem ofChar?_of_isDigit {c : Char} (h : c.isDigit = true) : ofChar? c = some .integer := by
  have hbounds := isDigit_bounds h
  have hletter : isLetter c = false := by
    by_contra hl
    have := isLetter_ge (by simpa using hl)
    omega
  unfold ofChar?
  split
  case h_5 => simp [h, hletter]
  all_goals exact absurd hbounds (by decide)

theorem spells_of_ofChar? {c : Char} {k : TokenKind} (h : ofChar? c = some k) (cs : List Char) :
    k.Spells (c :: cs.takeWhile k.extendedBy) := by
  unfold ofChar? at h
  split at h
  · cases h; cases cs <;> exact .leftBracket
  · cases h; cases cs <;> exact .rightBracket
  · cases h; cases cs <;> exact .comma
  · cases h; cases cs <;> exact .dollar
  · split at h
    · rename_i hletter
      cases h
      refine .name (List.cons_ne_nil _ _) fun d hd => ?_
      rcases List.mem_cons.1 hd with rfl | hd
      · exact hletter
      · exact List.mem_takeWhile_imp hd
    · split at h
      · rename_i hdigit
        cases h
        refine .integer (List.cons_ne_nil _ _) fun d hd => ?_
        rcases List.mem_cons.1 hd with rfl | hd
        · exact hdigit
        · exact List.mem_takeWhile_imp hd
      · cases h

theorem Spells.ne_nil (h : Spells k cs) : cs ≠ [] := by
  cases h <;> first | assumption | exact List.cons_ne_nil _ _

theorem Spells.cons (h : Spells k (c :: cs)) :
    ofChar? c = some k ∧ ∀ d ∈ cs, k.extendedBy d = true := by
  cases h with
  | name _ h =>
    obtain ⟨hc, hcs⟩ := List.forall_mem_cons.1 h
    exact ⟨ofChar?_of_isLetter hc, hcs⟩
  | integer _ h =>
    obtain ⟨hc, hcs⟩ := List.forall_mem_cons.1 h
    exact ⟨ofChar?_of_isDigit hc, hcs⟩
  | leftBracket | rightBracket | comma | dollar => exact ⟨rfl, fun _ h => nomatch h⟩

theorem ofChar?_of_isLayout {c : Char} (h : isLayout c = true) : ofChar? c = none := by
  simp only [isLayout, Bool.or_eq_true, beq_iff_eq] at h
  rcases h with ((rfl | rfl) | rfl) | rfl <;> decide

theorem isLayout_eq_false {c : Char} {k : TokenKind} (h : ofChar? c = some k) :
    isLayout c = false := by
  by_contra hlayout
  simp [ofChar?_of_isLayout (by simpa using hlayout)] at h

theorem ofChar?_eq_none {c : Char} :
    ofChar? c = none ↔ c ∉ ['(', ')', ',', '$'] ∧ isLetter c = false ∧ c.isDigit = false := by
  unfold ofChar?
  split
  case h_5 => grind
  all_goals simp

theorem inAlphabet_iff {c : Char} : InAlphabet c ↔ isLayout c = true ∨ ofChar? c ≠ none := by
  rw [InAlphabet, ne_eq, ofChar?_eq_none]
  simp only [not_and_or, not_not, Bool.not_eq_false]

theorem Spells.inAlphabet {k : TokenKind} {cs : List Char} (h : k.Spells cs) :
    ∀ c ∈ cs, InAlphabet c := by
  intro c hc
  cases h with
  | name _ h => exact .inr (.inr (.inl (h c hc)))
  | integer _ h => exact .inr (.inr (.inr (h c hc)))
  | leftBracket | rightBracket | comma | dollar =>
    obtain rfl := List.mem_singleton.1 hc
    exact .inr (.inl (by decide))

end TokenKind

def Lexeme.Spelled (l : Lexeme) : Prop := l.kind.Spells l.text.toList

theorem Lexeme.Spelled.eq_mark {l m : Lexeme} (h : l.Spelled) (hkind : l.kind = m.kind)
    (hm : ∀ cs, m.kind.Spells cs → String.ofList cs = m.text := by rintro _ ⟨⟩; rfl) : l = m := by
  obtain ⟨k, s⟩ := l
  subst hkind
  have htext := hm _ h
  rw [String.ofList_toList] at htext
  subst htext
  rfl

namespace Cursor

open TokenKind

theorem next_layout {gap : List Char} (h : ∀ c ∈ gap, isLayout c = true)
    (n : Nat) (cs : List Char) :
    next ⟨n, gap ++ cs⟩ = next ⟨n + gap.length, cs⟩ := by
  have hskip : skipLayout ⟨n, gap ++ cs⟩ = skipLayout ⟨n + gap.length, cs⟩ := by
    simp [skipLayout, List.takeWhile_append_of_pos h, List.dropWhile_append_of_pos h, Nat.add_assoc]
  unfold next
  rw [hskip]

theorem next_append {k : TokenKind} {run rest : List Char} (h : k.Spells run)
    (hrest : ∀ c ∈ rest.head?, k.extendedBy c = false) (n : Nat) :
    next ⟨n, run ++ rest⟩ = .ok (some ⟨⟨k, String.ofList run⟩, n⟩) ⟨n + run.length, rest⟩ := by
  cases run with
  | nil => exact absurd rfl h.ne_nil
  | cons c cs =>
    obtain ⟨hkind, hcs⟩ := h.cons
    have hstop : rest.takeWhile k.extendedBy = [] ∧ rest.dropWhile k.extendedBy = rest := by
      cases rest with
      | nil => exact ⟨rfl, rfl⟩
      | cons d ds => simp [hrest d rfl]
    simp [next, skipLayout, isLayout_eq_false hkind, hkind, List.takeWhile_append_of_pos hcs,
      List.dropWhile_append_of_pos hcs, hstop]

inductive Finds (c : Cursor) : EStateM.Result LexError Cursor (Option Token) → Prop
  | ended : (∀ ch ∈ c.rest, isLayout ch = true) → Finds c (.ok none c.toEnd)
  | token : c.rest = gap ++ (run ++ after) → (∀ ch ∈ gap, isLayout ch = true) → k.Spells run →
      (∀ ch ∈ after.head?, k.extendedBy ch = false) →
      Finds c (.ok (some ⟨⟨k, String.ofList run⟩, c.offset + gap.length⟩)
      ⟨c.offset + gap.length + run.length, after⟩)
  | foreign : c.rest = gap ++ ch :: after → (∀ ch ∈ gap, isLayout ch = true) → ¬ InAlphabet ch →
      Finds c (.error (.unexpectedCharacter ch (c.offset + gap.length))
      ⟨c.offset + gap.length, ch :: after⟩)

theorem next_foreign {ch : Char} (h : ¬ InAlphabet ch) (n : Nat) (rest : List Char) :
    next ⟨n, ch :: rest⟩ = .error (.unexpectedCharacter ch n) ⟨n, ch :: rest⟩ := by
  rw [inAlphabet_iff] at h
  push Not at h
  simp [next, skipLayout, h.1, h.2]

theorem finds_next (c : Cursor) : Finds c (next c) := by
  obtain ⟨n, cs⟩ := c
  have hgap : ∀ ch ∈ cs.takeWhile isLayout, isLayout ch = true := fun _ => List.mem_takeWhile_imp
  have hsplit := (List.takeWhile_append_dropWhile (p := isLayout) (l := cs)).symm
  generalize cs.takeWhile isLayout = gap at hgap hsplit
  cases hrest : cs.dropWhile isLayout with
  | nil =>
    rw [hrest, List.append_nil] at hsplit
    subst hsplit
    have hnext := next_layout hgap n []
    rw [List.append_nil] at hnext
    rw [hnext]
    exact .ended hgap
  | cons ch rest =>
    have hlayout : isLayout ch = false := by
      simpa [hrest] using List.head?_dropWhile_not isLayout cs
    rw [hrest] at hsplit
    subst hsplit
    rw [next_layout hgap]
    cases hkind : ofChar? ch with
    | none =>
      have hforeign : ¬ InAlphabet ch := by simp [inAlphabet_iff, hlayout, hkind]
      rw [next_foreign hforeign]
      exact .foreign rfl hgap hforeign
    | some k =>
      have hrun := spells_of_ofChar? hkind rest
      have hstop : ∀ d ∈ (rest.dropWhile k.extendedBy).head?, k.extendedBy d = false := by
        intro d hd
        simpa [Option.mem_def.1 hd] using List.head?_dropWhile_not k.extendedBy rest
      have hcons : ch :: rest = (ch :: rest.takeWhile k.extendedBy) ++
          rest.dropWhile k.extendedBy := by
        rw [List.cons_append, List.takeWhile_append_dropWhile]
      rw [hcons, next_append hrun hstop]
      exact .token rfl hgap hrun hstop

theorem finds_of_next {c : Cursor} {r : EStateM.Result LexError Cursor (Option Token)}
    (h : next c = r) : Finds c r :=
  h ▸ finds_next c

theorem spells_of_next {c d : Cursor} {t : Token} (h : next c = .ok (some t) d) :
    t.kind.Spells t.text.toList := by
  cases finds_of_next h with
  | token _ _ hrun _ => simpa using hrun

theorem required_eq_ok {k : TokenKind} {c d : Cursor} {t : Token} :
    required k c = .ok t d ↔ next c = .ok (some t) d := by
  unfold required
  cases next c with
  | error _ _ => simp
  | ok t? _ => cases t? <;> simp

theorem expect_eq_ok {k : TokenKind} {c d : Cursor} {t : Token} :
    expect k c = .ok t d ↔ next c = .ok (some t) d ∧ t.kind = k := by
  rw [← required_eq_ok (k := k)]
  unfold expect
  cases required k c with
  | error _ _ => simp
  | ok s e =>
    by_cases hs : s.kind = k
    · simp only [hs, if_true, EStateM.Result.ok.injEq]
      exact ⟨fun h => ⟨h, h.1 ▸ hs⟩, fun h => h.1⟩
    · simp only [hs, if_false, EStateM.Result.ok.injEq, reduceCtorEq, false_iff]
      rintro ⟨⟨rfl, _⟩, h⟩
      exact hs h

/-- The tokens between two places. -/
inductive Reads : Cursor → List Token → Cursor → Prop
  | nil : Reads c [] c
  | cons : next c = .ok (some t) d → Reads d ts e → Reads c (t :: ts) e

theorem Reads.spells {c d : Cursor} {ts : List Token} (h : Reads c ts d) :
    ∀ t ∈ ts, t.kind.Spells t.text.toList := by
  induction h with
  | nil => exact fun _ h => nomatch h
  | cons hnext _ ih => exact List.forall_mem_cons.2 ⟨spells_of_next hnext, ih⟩

theorem reads_singleton {c d : Cursor} {t : Token} : Reads c [t] d ↔ next c = .ok (some t) d := by
  constructor
  · rintro (_ | ⟨hnext, ⟨⟩⟩)
    exact hnext
  · exact fun h => .cons h .nil

theorem reads_append {c e : Cursor} {ss ts : List Token} :
    Reads c (ss ++ ts) e ↔ ∃ d, Reads c ss d ∧ Reads d ts e := by
  induction ss generalizing c with
  | nil =>
    constructor
    · exact fun h => ⟨c, .nil, h⟩
    · rintro ⟨_, ⟨⟩, h⟩
      exact h
  | cons s ss ih =>
    constructor
    · rintro (_ | ⟨hnext, h⟩)
      obtain ⟨d, hss, hts⟩ := ih.1 h
      exact ⟨d, .cons hnext hss, hts⟩
    · rintro ⟨d, _ | ⟨hnext, hss⟩, hts⟩
      exact .cons hnext (ih.2 ⟨d, hss, hts⟩)

theorem Reads.length_le {c d : Cursor} {ts : List Token} (h : Reads c ts d) :
    ts.length + d.rest.length ≤ c.rest.length := by
  induction h with
  | nil => exact (Nat.zero_add _).le
  | cons hnext _ ih =>
    have hlt := length_lt_of_next hnext
    rw [List.length_cons]
    omega

theorem Reads.unique {c d : Cursor} {ts us : List Token} (hts : Reads c ts d) (hus : Reads c us d) :
    ts = us := by
  induction hts generalizing us with
  | nil =>
    have hle := hus.length_le
    exact (List.length_eq_zero_iff.1 (by omega)).symm
  | cons hnext hts ih =>
    cases hus with
    | nil =>
      have hlt := length_lt_of_next hnext
      have hle := hts.length_le
      omega
    | cons hnext' hus =>
      cases hnext.symm.trans hnext'
      exact congrArg _ (ih hus)

theorem offset_of_next {c d : Cursor} {t : Token} (h : next c = .ok (some t) d) :
    d.offset = t.position + t.text.length := by
  cases finds_of_next h with
  | token => simp

theorem tokens_eq_iff {c : Cursor} {ts : List Token} :
    c.tokens = (ts, none) ↔ ∃ d e, Reads c ts d ∧ next d = .ok none e := by
  induction ts generalizing c with
  | nil =>
    rw [tokens]
    constructor
    · intro h
      split at h <;> simp at h
      exact ⟨c, _, .nil, by assumption⟩
    · rintro ⟨d, e, ⟨⟩, hnext⟩
      split <;> rename_i hnext' <;> cases hnext.symm.trans hnext'
      rfl
  | cons t ts ih =>
    rw [tokens]
    constructor
    · intro h
      split at h <;> simp at h
      rename_i t' d hnext
      obtain ⟨⟨rfl, hts⟩, hstop⟩ := h
      obtain ⟨e, f, hreads, hend⟩ := ih.1 (Prod.ext hts hstop)
      exact ⟨e, f, .cons hnext hreads, hend⟩
    · rintro ⟨e, f, _ | ⟨hnext, hreads⟩, hend⟩
      have htail := ih.2 ⟨e, f, hreads, hend⟩
      split <;> rename_i hnext' <;> cases hnext.symm.trans hnext'
      simp [htail]

theorem tokens_of_next {c d : Cursor} {t : Token} (h : next c = .ok (some t) d) :
    c.tokens = (t :: d.tokens.1, d.tokens.2) := by
  rw [tokens]
  split <;> rename_i hnext <;> cases h.symm.trans hnext
  rfl

theorem tokens_of_end {c d : Cursor} (h : next c = .ok none d) : c.tokens = ([], none) := by
  rw [tokens]
  split <;> rename_i hnext <;> cases h.symm.trans hnext
  rfl

theorem tokens_of_error {c d : Cursor} {e : LexError} (h : next c = .error e d) :
    c.tokens = ([], some e) := by
  rw [tokens]
  split <;> rename_i hnext <;> cases h.symm.trans hnext
  rfl

theorem Reads.tokens_eq {c d : Cursor} {ts : List Token} (h : Reads c ts d) :
    c.tokens = (ts ++ d.tokens.1, d.tokens.2) := by
  induction h with
  | nil => rfl
  | cons hnext _ ih => rw [tokens_of_next hnext, ih, List.cons_append]

theorem exists_reads {c : Cursor} {ts us : List Token} (h : c.tokens.1 = ts ++ us) :
    ∃ d, Reads c ts d ∧ d.tokens = (us, c.tokens.2) := by
  induction ts generalizing c with
  | nil => exact ⟨c, .nil, Prod.ext h rfl⟩
  | cons t ts ih =>
    cases hnext : next c with
    | error e d => simp [tokens_of_error hnext] at h
    | ok t? d =>
      cases t? with
      | none => simp [tokens_of_end hnext] at h
      | some s =>
        rw [tokens_of_next hnext] at h ⊢
        obtain ⟨rfl, htail⟩ := List.cons.inj h
        obtain ⟨e, hreads, he⟩ := ih htail
        exact ⟨e, .cons hnext hreads, he⟩

theorem exists_next {c : Cursor} {t : Token} {us : List Token} (h : c.tokens.1 = t :: us) :
    ∃ d, next c = .ok (some t) d := by
  obtain ⟨d, hreads, _⟩ : ∃ d, Reads c [t] d ∧ _ := exists_reads h
  exact ⟨d, reads_singleton.1 hreads⟩

theorem exists_end {c : Cursor} (h : c.tokens = ([], none)) : ∃ d, next c = .ok none d := by
  obtain ⟨_, d, ⟨⟩, hnext⟩ := tokens_eq_iff.1 h
  exact ⟨d, hnext⟩

theorem exists_error {c : Cursor} {e : LexError} (h : c.tokens = ([], some e)) :
    ∃ d, next c = .error e d := by
  cases hnext : next c with
  | error _ d =>
    rw [tokens_of_error hnext] at h
    cases h
    exact ⟨d, rfl⟩
  | ok t? d =>
    cases t? with
    | none => simp [tokens_of_end hnext] at h
    | some t => simp [tokens_of_next hnext] at h

end Cursor

end Rollup
