import Rollup.Proofs.Number.Numeral
import Rollup.Proofs.Plan.Parse
import Rollup.Proofs.Token.Rendering

/-!
The canonical text of a plan, read again.

The text is its lexemes with a blank behind every comma. It is read as the plan itself if every
field of the plan has a text in the grammar (`Plan.Writable`), and, ranges of doubles apart, only
then. The plan of a formula has such fields, with one exception: the end of a range of doubles that
was rounded up to `2 ^ 63`, the first integer that no formula can name.
-/

namespace Rollup

open Lexeme (Apart)

namespace Plan

def intervalLexemes (i : Interval) : List Lexeme :=
  [.integer (toString i.amount.toNat), .comma, .name i.unit.symbol]

def argumentLexemes : Plan → List Lexeme
  | max | min | flag | gaugeFp none | gaugeInt none | extract _ [] => []
  | sum i | avg i => intervalLexemes i
  | percentile n i => .integer (toString n.toNat) :: .comma :: intervalLexemes i
  | correl operand => [.dollar, .name operand]
  | extract _ (field :: path) => .name field :: path.flatMap fun field => [.comma, .name field]
  | gaugeFp (some b) =>
    [.integer (NumeralStyle.plain.double b.lower), .comma,
      .integer (NumeralStyle.plain.double b.upper)]
  | gaugeInt (some b) =>
    [.integer (toString b.lower.toInt), .comma, .integer (toString b.upper.toInt)]

def lexemes (p : Plan) : List Lexeme :=
  .name p.kind.name :: .leftBracket :: (p.argumentLexemes ++ [.rightBracket])

section Rendering

variable (gap : List Char) (s : String) (ls : List Lexeme)

@[simp] theorem render_name :
    render (spaced gap (.name s :: ls)) = gap ++ (s.toList ++ render (spaced [] ls)) := by
  simp [spaced, Piece.chars, Lexeme.name]

@[simp] theorem render_integer :
    render (spaced gap (.integer s :: ls)) = gap ++ (s.toList ++ render (spaced [] ls)) := by
  simp [spaced, Piece.chars, Lexeme.integer]

@[simp] theorem render_leftBracket :
    render (spaced gap (.leftBracket :: ls)) = gap ++ '(' :: render (spaced [] ls) := by
  simp [spaced, Piece.chars, Lexeme.leftBracket]

@[simp] theorem render_rightBracket :
    render (spaced gap (.rightBracket :: ls)) = gap ++ ')' :: render (spaced [] ls) := by
  simp [spaced, Piece.chars, Lexeme.rightBracket]

@[simp] theorem render_comma :
    render (spaced gap (.comma :: ls)) = gap ++ ',' :: render (spaced [' '] ls) := by
  simp [spaced, Piece.chars, Lexeme.comma]

@[simp] theorem render_dollar :
    render (spaced gap (.dollar :: ls)) = gap ++ '$' :: render (spaced [] ls) := by
  simp [spaced, Piece.chars, Lexeme.dollar]

@[simp] theorem render_nil : render (spaced gap []) = [] := rfl

end Rendering

theorem toString_string (s : String) : toString s = s := rfl

theorem render_interval (gap : List Char) (i : Interval) (ls : List Lexeme) :
    render (spaced gap (intervalLexemes i ++ ls)) =
      gap ++ (i.text.toList ++ render (spaced [] ls)) := by
  simp [intervalLexemes, Interval.text, toString_string]

theorem render_fields (field : String) (path : List String) (ls : List Lexeme) :
    render (spaced [] (.name field :: ((path.flatMap fun field => [.comma, .name field]) ++ ls))) =
      (", ".intercalate (field :: path)).toList ++ render (spaced [] ls) := by
  induction path generalizing field with
  | nil => simp
  | cons next path ih =>
    rw [String.intercalate_cons_cons, String.toList_append, List.append_assoc, ← ih]
    simp

theorem render_arguments (p : Plan) (ls : List Lexeme) :
    render (spaced [] (p.argumentLexemes ++ ls)) = p.argumentText.toList ++
      render (spaced [] ls) := by
  cases p with
  | max | min | flag => simp [argumentLexemes, argumentText]
  | sum i | avg i => simp [argumentLexemes, argumentText, render_interval]
  | percentile n i => simp [argumentLexemes, argumentText, render_interval, toString_string]
  | correl => simp [argumentLexemes, argumentText]
  | extract t path =>
    cases path with
    | nil => simp [argumentLexemes, argumentText]
    | cons field path => exact render_fields field path ls
  | gaugeFp range | gaugeInt range =>
    cases range with
    | none => simp [argumentLexemes, argumentText]
    | some b => simp [argumentLexemes, argumentText, toString_string]

theorem text_eq (p : Plan) : p.text = String.ofList (render (spaced [] p.lexemes)) := by
  apply String.toList_injective
  simp [text, lexemes, render_arguments]

theorem isChain_fields (field : String) (path : List String) :
    (Lexeme.name field :: ((path.flatMap fun field => [.comma, .name field]) ++
      [.rightBracket])).IsChain Apart := by
  induction path generalizing field with
  | nil => exact List.isChain_cons_cons.2 ⟨nofun, .singleton _⟩
  | cons next path ih =>
    exact List.isChain_cons_cons.2 ⟨nofun, List.isChain_cons_cons.2 ⟨nofun, ih next⟩⟩

theorem isChain_lexemes (p : Plan) : p.lexemes.IsChain Apart := by
  refine List.isChain_cons_cons.2 ⟨nofun, ?_⟩
  cases p with
  | extract t path =>
    cases path with
    | nil => exact List.isChain_cons_cons.2 ⟨fun _ => id, .singleton _⟩
    | cons field path => exact List.isChain_cons_cons.2 ⟨nofun, isChain_fields field path⟩
  | max | min | sum | avg | percentile | correl | flag =>
    simp [argumentLexemes, intervalLexemes, Apart, TokenKind.IsRun, Lexeme.name,
      Lexeme.integer, Lexeme.leftBracket, Lexeme.rightBracket, Lexeme.comma, Lexeme.dollar]
  | gaugeFp range | gaugeInt range =>
    cases range <;>
      simp [argumentLexemes, Apart, TokenKind.IsRun, Lexeme.integer, Lexeme.leftBracket,
        Lexeme.rightBracket, Lexeme.comma]

theorem spelled_natural (n : Nat) : (Lexeme.integer (toString n)).Spelled := by
  change TokenKind.integer.Spells n.repr.toList
  rw [Nat.toList_repr]
  exact .integer Nat.toDigits_ne_nil fun c hc =>
    Nat.isDigit_of_mem_toDigits (by decide) (by decide) hc

theorem number_natural (n : Nat) : Grammar.number (toString n) = n := by
  change digitsValue n.repr.toList = n
  rw [Nat.toList_repr, digitsValue_eq, Nat.ofDigitChars_ten_toDigits]

theorem spelled_symbol (u : TimeUnit) : (Lexeme.name u.symbol).Spelled := by
  cases u <;> exact .name (by decide) (List.all_eq_true.1 (by decide))

theorem spelled_interval (i : Interval) : ∀ l ∈ intervalLexemes i, l.Spelled := by
  simp only [intervalLexemes, List.forall_mem_cons]
  exact ⟨spelled_natural _, .comma, spelled_symbol _, nofun⟩

theorem isInterval_lexemes (i : Interval) : Grammar.IsInterval (intervalLexemes i) i := by
  have hnumber := number_natural i.amount.toNat
  have hsymbol : i.unit.symbol ∈ i.unit.names := by cases i.unit <;> decide
  have hinterval := Grammar.IsInterval.mk (s := toString i.amount.toNat)
    (by rw [hnumber]; exact i.amount.toNat_lt)
    (.comma hsymbol)
  rw [hnumber, UInt64.ofNat_toNat] at hinterval
  exact hinterval

theorem isFields_lexemes (path : List String) :
    Grammar.IsFields (path.flatMap fun field => [.comma, .name field]) path := by
  induction path with
  | nil => exact .nil
  | cons field path ih => exact .cons ih

theorem exists_natural {n : Int64} (h : 0 ≤ n) :
    ∃ k : Nat, k < 2 ^ 63 ∧ n.toInt = k ∧ Int64.ofNat k = n := by
  have hnonneg : 0 ≤ n.toInt := by simpa [Int64.le_iff_toInt_le] using h
  have hlt := n.toInt_lt
  have hcast : (n.toInt.toNat : Int) = n.toInt := by omega
  refine ⟨n.toInt.toNat, by omega, by omega, ?_⟩
  rw [← Int64.ofInt_eq_ofNat, hcast, Int64.ofInt_toInt]

/-- The end of a range whose text is an integer that a formula may name, and that rounds to the
end. -/
structure IsBound (x : Float) : Prop where
  spelled : (Lexeme.integer (NumeralStyle.plain.double x)).Spelled
  number_lt : Grammar.number (NumeralStyle.plain.double x) < 2 ^ 63
  ofNat_number : Double.ofNat (Grammar.number (NumeralStyle.plain.double x)) = x

/-- Plans every field of which has a text in the grammar. -/
def Writable : Plan → Prop
  | percentile n _ => n ≤ 100
  | correl operand => (Lexeme.name operand).Spelled
  | extract _ path => path ≠ [] ∧ ∀ field ∈ path, (Lexeme.name field).Spelled
  | gaugeFp (some b) => IsBound b.lower ∧ IsBound b.upper
  | gaugeInt (some b) => 0 ≤ b.lower ∧ 0 ≤ b.upper
  | _ => True

theorem spelled_arguments {p : Plan} (h : p.Writable) : ∀ l ∈ p.argumentLexemes, l.Spelled := by
  cases p with
  | max | min | flag => exact nofun
  | sum i | avg i => exact spelled_interval i
  | percentile n i =>
    simp only [argumentLexemes, List.forall_mem_cons]
    exact ⟨spelled_natural _, .comma, spelled_interval i⟩
  | correl operand =>
    simp only [argumentLexemes, List.forall_mem_cons]
    exact ⟨.dollar, h, nofun⟩
  | extract t path =>
    cases path with
    | nil => exact nofun
    | cons field path =>
      obtain ⟨hfield, hpath⟩ := List.forall_mem_cons.1 h.2
      simp only [argumentLexemes, List.forall_mem_cons, List.mem_flatMap]
      refine ⟨hfield, ?_⟩
      rintro l ⟨s, hs, hl⟩
      rcases List.mem_cons.1 hl with rfl | hl
      · exact .comma
      · obtain rfl := List.mem_singleton.1 hl
        exact hpath s hs
  | gaugeFp range =>
    cases range with
    | none => exact nofun
    | some b =>
      simp only [argumentLexemes, List.forall_mem_cons]
      exact ⟨h.1.spelled, .comma, h.2.spelled, nofun⟩
  | gaugeInt range =>
    cases range with
    | none => exact nofun
    | some b =>
      obtain ⟨lower, _, hlower, _⟩ := exists_natural h.1
      obtain ⟨upper, _, hupper, _⟩ := exists_natural h.2
      simp only [argumentLexemes, hlower, hupper, List.forall_mem_cons]
      exact ⟨spelled_natural lower, .comma, spelled_natural upper, nofun⟩

theorem isFormula_lexemes {p : Plan} (h : p.Writable) : Grammar.IsFormula p.lexemes p := by
  apply Grammar.IsFormula.mk
  apply Grammar.IsCall.mk
  cases p with
  | max => exact .max
  | min => exact .min
  | sum i => exact .sum (isInterval_lexemes i)
  | avg i => exact .avg (isInterval_lexemes i)
  | percentile n i =>
    have hnumber := number_natural n.toNat
    have harguments := Grammar.IsArguments.percentile (s := toString n.toNat)
      (by rw [hnumber]; exact h)
      (isInterval_lexemes i)
    rw [hnumber, UInt8.ofNat_toNat] at harguments
    exact harguments
  | correl => exact .correl
  | extract t path =>
    cases path with
    | nil => exact absurd rfl h.1
    | cons field path => exact .extract (isFields_lexemes path)
  | flag => exact .flag
  | gaugeFp range =>
    cases range with
    | none => exact .gaugeFp
    | some b =>
      have harguments := Grammar.IsArguments.rangedGaugeFp h.1.number_lt h.2.number_lt
      rw [h.1.ofNat_number, h.2.ofNat_number] at harguments
      exact harguments
  | gaugeInt range =>
    cases range with
    | none => exact .gaugeInt
    | some b =>
      obtain ⟨lower, hlt, hlower, hlower'⟩ := exists_natural h.1
      obtain ⟨upper, hlt', hupper, hupper'⟩ := exists_natural h.2
      have harguments := Grammar.IsArguments.rangedGaugeInt (s := toString lower)
        (t := toString upper)
        (by rwa [number_natural]) (by rwa [number_natural])
      rw [number_natural, number_natural, hlower', hupper'] at harguments
      rw [argumentLexemes, hlower, hupper]
      exact harguments

theorem exists_tokens_text {p : Plan} (h : ∀ l ∈ p.argumentLexemes, l.Spelled) :
    ∃ ts, (Cursor.start p.text).tokens = (ts, none) ∧ ts.map Token.toLexeme = p.lexemes := by
  rw [text_eq]
  apply tokens_spaced _ (isChain_lexemes p)
  simp only [lexemes, List.forall_mem_cons, List.forall_mem_append]
  exact ⟨spelled_kindName _, .leftBracket, h, .rightBracket, nofun⟩

theorem parse_text_of_writable {p : Plan} (h : p.Writable) : parse p.text = .ok p := by
  obtain ⟨ts, htokens, hlexemes⟩ := exists_tokens_text (spelled_arguments h)
  apply parse_of_tokens htokens
  rw [hlexemes]
  exact isFormula_lexemes h

theorem spelled_ofNat {n : Nat} (hn : n < 2 ^ 63) :
    (Lexeme.integer (NumeralStyle.plain.double (Double.ofNat n))).Spelled := by
  obtain ⟨ds, htext, hne, hdigits, _⟩ := Double.plain_ofNat hn
  rw [htext]
  change TokenKind.integer.Spells (String.ofList ds).toList
  rw [String.toList_ofList]
  exact .integer hne hdigits

theorem isBound_ofNat {n : Nat} (hn : n < 2 ^ 63)
    (hlimit : Double.ofNat n ≠ Double.ofNat (2 ^ 63)) :
    IsBound (Double.ofNat n) := by
  obtain ⟨ds, htext, _, _, hvalue, hlt⟩ := Double.plain_ofNat hn
  have hnumber : Grammar.number (NumeralStyle.plain.double (Double.ofNat n)) = digitsValue ds := by
    rw [htext, Grammar.number, String.toList_ofList]
  refine ⟨spelled_ofNat hn, ?_, ?_⟩
  · rw [hnumber]
    exact hlt hlimit
  · rw [hnumber, hvalue]

theorem ne_limit_of_number_lt {x : Float}
    (h : Grammar.number (NumeralStyle.plain.double x) < 2 ^ 63) :
    x ≠ Double.ofNat (2 ^ 63) := by
  -- The text of `2 ^ 63` names a larger integer, which no formula can name.
  rintro rfl
  rw [Double.plain_ofNat_two_pow_63] at h
  exact absurd h (by decide)

/-- Plans without an end of a range of doubles at `2 ^ 63`. -/
def InRange : Plan → Prop
  | gaugeFp (some b) => b.lower ≠ Double.ofNat (2 ^ 63) ∧ b.upper ≠ Double.ofNat (2 ^ 63)
  | _ => True

theorem spelled_of_isFields {ls : List Lexeme} {path : List String} (h : Grammar.IsFields ls path)
    (hls : ∀ l ∈ ls, l.Spelled) : ∀ field ∈ path, (Lexeme.name field).Spelled := by
  induction h with
  | nil => exact nofun
  | cons _ ih =>
    obtain ⟨_, hls⟩ := List.forall_mem_cons.1 hls
    obtain ⟨hfield, hls⟩ := List.forall_mem_cons.1 hls
    exact List.forall_mem_cons.2 ⟨hfield, ih hls⟩

theorem writable_of_isFormula {ls : List Lexeme} {p : Plan} (h : Grammar.IsFormula ls p)
    (hls : ∀ l ∈ ls, l.Spelled) (hrange : p.InRange) : p.Writable := by
  obtain ⟨⟨harguments⟩⟩ := h
  simp only [List.forall_mem_cons, List.forall_mem_append] at hls
  obtain ⟨_, _, hls, _⟩ := hls
  cases harguments with
  | max | min | sum | avg | flag | gaugeFp | gaugeInt => trivial
  | percentile hpercent _ =>
    apply UInt8.le_iff_toNat_le.2
    rw [UInt8.toNat_ofNat_of_lt' (Nat.lt_of_le_of_lt hpercent (by decide))]
    exact hpercent
  | correl => exact hls _ (List.mem_cons_of_mem _ List.mem_cons_self)
  | extract hfields =>
    obtain ⟨hfield, hls⟩ := List.forall_mem_cons.1 hls
    exact ⟨List.cons_ne_nil _ _, List.forall_mem_cons.2 ⟨hfield, spelled_of_isFields hfields hls⟩⟩
  | rangedGaugeFp hlower hupper =>
    exact ⟨isBound_ofNat hlower hrange.1, isBound_ofNat hupper hrange.2⟩
  | rangedGaugeInt hlower hupper =>
    constructor
    · rw [Int64.le_iff_toInt_le, Parse.toInt_ofNat_number hlower]
      exact Int.natCast_nonneg _
    · rw [Int64.le_iff_toInt_le, Parse.toInt_ofNat_number hupper]
      exact Int.natCast_nonneg _

theorem kindName_injective {k k' : Kind} (h : k.name = k'.name) : k = k' := by
  have hfind := Registry.find?_builtin.2 h
  rw [Registry.find?_builtin.2 rfl] at hfind
  exact Option.some.inj hfind

theorem number_lt_of_isFormula {ls : List Lexeme} {p : Plan} (h : Grammar.IsFormula ls p)
    {s t : String} (hls : ls = [.name Kind.rangedGaugeFp.name, .leftBracket, .integer s, .comma,
      .integer t, .rightBracket]) :
    Grammar.number s < 2 ^ 63 ∧ Grammar.number t < 2 ^ 63 := by
  obtain ⟨⟨harguments⟩⟩ := h
  obtain ⟨hkind, hls⟩ := List.cons.inj hls
  cases @kindName_injective _ .rangedGaugeFp (congrArg Lexeme.text hkind)
  cases harguments with
  | rangedGaugeFp hlower hupper =>
    simp only [List.cons_append, List.nil_append, List.cons.injEq, Lexeme.integer,
      Lexeme.mk.injEq, true_and, and_true] at hls
    obtain ⟨rfl, rfl⟩ := hls
    exact ⟨hlower, hupper⟩

/-- The plan of a formula is read from its own text, unless an end of its range was rounded up to
`2 ^ 63`: then its text is no formula. -/
theorem parse_text_of_parse (text : String) (p : Plan) (h : parse text = .ok p) :
    (p.InRange → parse p.text = .ok p) ∧ (¬ p.InRange → ∀ q, parse p.text ≠ .ok q) := by
  obtain ⟨ts, htokens, hformula⟩ := exists_tokens_of_parse h
  obtain ⟨_, _, hreads, _⟩ := Cursor.tokens_eq_iff.1 htokens
  constructor
  · intro hrange
    exact parse_text_of_writable
      (writable_of_isFormula hformula (Parse.spelled_of_reads hreads) hrange)
  · intro hrange q hq
    apply hrange
    generalize ts.map Token.toLexeme = ls at hformula
    obtain ⟨⟨harguments⟩⟩ := hformula
    cases harguments with
    | @rangedGaugeFp s t hlower hupper =>
      have hspelled : ∀ l ∈ argumentLexemes (gaugeFp (some ⟨Double.ofNat (Grammar.number s),
          Double.ofNat (Grammar.number t)⟩)), l.Spelled := by
        simp only [argumentLexemes, List.forall_mem_cons]
        exact ⟨spelled_ofNat hlower, .comma, spelled_ofNat hupper, nofun⟩
      obtain ⟨us, hus, hlexemes⟩ := exists_tokens_text hspelled
      obtain ⟨vs, hvs, hformula⟩ := exists_tokens_of_parse hq
      rw [hus] at hvs
      cases hvs
      obtain ⟨hlower, hupper⟩ := number_lt_of_isFormula hformula hlexemes
      exact ⟨ne_limit_of_number_lt hlower, ne_limit_of_number_lt hupper⟩
    | _ => trivial

theorem parse_text_of_parse_range :
    let p := gaugeFp (some ⟨Double.ofNat 1, Double.ofNat (2 ^ 53 + 1)⟩)
    let q := gaugeFp (some ⟨Double.ofNat 0, Double.ofNat (2 ^ 63 - 1)⟩)
    parse "ranged_gauge_fp(1, 9007199254740993)" = .ok p ∧ parse p.text = .ok p ∧
      parse "ranged_gauge_fp(0, 9223372036854775807)" = .ok q ∧ ∀ r, parse q.text ≠ .ok r := by
  intro p q
  have hp : parse "ranged_gauge_fp(1, 9007199254740993)" = .ok p := by decide +kernel
  have hq : parse "ranged_gauge_fp(0, 9223372036854775807)" = .ok q := by decide +kernel
  refine ⟨hp, (parse_text_of_parse _ _ hp).1 ⟨by decide +kernel, by decide +kernel⟩, hq,
    (parse_text_of_parse _ _ hq).2 ?_⟩
  intro hrange
  exact hrange.2 ((Double.ofNat_eq_two_pow_63 (by decide)).2 (by decide))

theorem inRange_of_kind {p : Plan} (h : p.kind ≠ .rangedGaugeFp) : p.InRange := by
  cases p with
  | gaugeFp range =>
    cases range with
    | none => trivial
    | some b => exact absurd rfl h
  | _ => trivial

/-- A plan is read from its own text exactly if it can be written. -/
theorem parse_text_eq_ok_iff (p : Plan) (h : p.kind ≠ .rangedGaugeFp) :
    parse p.text = .ok p ↔ p.Writable := by
  constructor
  · intro hp
    obtain ⟨ts, htokens, hformula⟩ := exists_tokens_of_parse hp
    obtain ⟨_, _, hreads, _⟩ := Cursor.tokens_eq_iff.1 htokens
    exact writable_of_isFormula hformula (Parse.spelled_of_reads hreads) (inRange_of_kind h)
  · exact parse_text_of_writable

theorem parse_text_eq_ok_iff_extract :
    let p := extract .int ["a, b"]
    let q := extract .int ["a", "b"]
    p.kind ≠ .rangedGaugeFp ∧ q.kind ≠ .rangedGaugeFp ∧ ¬ p.Writable ∧ q.Writable ∧
      parse p.text ≠ .ok p ∧ parse p.text = .ok q := by
  intro p q
  have hkind : p.kind ≠ .rangedGaugeFp := nofun
  have hkind' : q.kind ≠ .rangedGaugeFp := nofun
  have hp : ¬ p.Writable := by
    rintro ⟨_, hfields⟩
    cases hfields _ List.mem_cons_self with
    | name _ hall => exact absurd (hall ',' (by decide)) (by decide)
  have hq : q.Writable := by
    refine ⟨List.cons_ne_nil _ _, ?_⟩
    simp only [List.forall_mem_cons]
    exact ⟨.name (by decide) (List.all_eq_true.1 (by decide)),
      .name (by decide) (List.all_eq_true.1 (by decide)), nofun⟩
  have htext : p.text = q.text := by decide
  refine ⟨hkind, hkind', hp, hq, fun hparse => hp ((parse_text_eq_ok_iff p hkind).1 hparse), ?_⟩
  rw [htext]
  exact (parse_text_eq_ok_iff q hkind').2 hq

end Plan

end Rollup
