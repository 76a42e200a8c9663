import Rollup.Proofs.Plan.Follows
import Rollup.Proofs.Token.Place
import Rollup.Proofs.Token.Rendering

namespace Rollup

def TokenKind.sample : TokenKind → Lexeme
  | name => .name "s"
  | integer => .integer "0"
  | leftBracket => .leftBracket
  | rightBracket => .rightBracket
  | comma => .comma
  | dollar => .dollar

theorem TokenKind.kind_sample (k : TokenKind) : k.sample.kind = k := by cases k <;> rfl

theorem TokenKind.spelled_sample (k : TokenKind) : k.sample.Spelled := by
  cases k with
  | name => exact .name (by decide) (List.all_eq_true.1 (by decide))
  | integer => exact .integer (by decide) (List.all_eq_true.1 (by decide))
  | leftBracket => exact .leftBracket
  | rightBracket => exact .rightBracket
  | comma => exact .comma
  | dollar => exact .dollar

namespace Slot

def IsArgument : Slot → Prop
  | function _ | operand => False
  | _ => True

theorem isArgument_slots (k : Kind) : ∀ x ∈ k.slots, x.IsArgument := by
  cases k <;> simp [Kind.slots, IsArgument]

theorem isArgument_fill {x : Slot} {l : Lexeme} {opened : List Slot} (hx : x.IsArgument)
    (h : x.fill l = .ok opened) : ∀ y ∈ opened, y.IsArgument := by
  cases x with
  | token | integer | percent | unit | unitName =>
    simp only [fill, fillInteger, fillPercent, fillUnit] at h
    grind [IsArgument]
  | fields =>
    simp only [fill] at h
    split at h <;> cases h
    · exact List.forall_mem_nil _
    · exact List.forall_mem_cons.2 ⟨trivial, List.forall_mem_singleton.2 trivial⟩
  | function | operand => exact hx.elim

theorem isArgument_step {σ τ : List Slot} {l : Lexeme} (hσ : ∀ x ∈ σ, x.IsArgument)
    (h : step σ l = .ok τ) :
    ∀ x ∈ τ, x.IsArgument := by
  cases σ with
  | nil => cases h
  | cons x σ =>
    obtain ⟨hx, hσ⟩ := List.forall_mem_cons.1 hσ
    obtain ⟨opened, hfill, rfl⟩ := step_eq_ok.1 h
    exact List.forall_mem_append.2 ⟨isArgument_fill hx hfill, hσ⟩

theorem isArgument_advance {σ τ : List Slot} {ls : List Lexeme} (hσ : ∀ x ∈ σ, x.IsArgument)
    (h : advance σ ls = .ok τ) : ∀ x ∈ τ, x.IsArgument := by
  induction ls generalizing σ with
  | nil =>
    cases h
    exact hσ
  | cons l ls ih =>
    obtain ⟨ρ, hstep, hρ⟩ := advance_cons.1 h
    exact ih (isArgument_step hσ hstep) hρ

theorem advance_append {σ τ : List Slot} {ls ms : List Lexeme} :
    advance σ (ls ++ ms) = .ok τ ↔ ∃ ρ, advance σ ls = .ok ρ ∧ advance ρ ms = .ok τ := by
  induction ls generalizing σ with
  | nil => exact ⟨fun h => ⟨σ, rfl, h⟩, fun ⟨_, h, hτ⟩ => by cases h; exact hτ⟩
  | cons l ls ih =>
    simp only [List.cons_append, advance_cons, ih]
    tauto

theorem exists_advance_snoc {σ τ : List Slot} {ls : List Lexeme} {l : Lexeme}
    (h : advance σ ls = .ok τ) :
    (∃ υ, advance σ (ls ++ [l]) = .ok υ) ↔ ∃ ρ, step τ l = .ok ρ := by
  constructor
  · rintro ⟨υ, hυ⟩
    obtain ⟨ρ, hρ, hυ⟩ := advance_append.1 hυ
    cases h.symm.trans hρ
    obtain ⟨π, hstep, -⟩ := advance_cons.1 hυ
    exact ⟨π, hstep⟩
  · rintro ⟨π, hstep⟩
    exact ⟨π, advance_append.2 ⟨τ, h, advance_cons.2 ⟨π, hstep, rfl⟩⟩⟩

theorem step_sample {x : Slot} (hx : x.IsArgument) (σ : List Slot) :
    step (x :: σ) x.wanted.sample = .ok σ := by
  have hfill : x.fill x.wanted.sample = .ok [] := by
    cases x with
    | token k => exact if_pos k.kind_sample
    | integer bits =>
      have hnumber : Grammar.number "0" < 2 ^ bits := Nat.two_pow_pos bits
      change fillInteger bits "0" = .ok []
      exact if_pos hnumber
    | percent | unit | unitName | fields => rfl
    | function | operand => exact hx.elim
  rw [step, hfill]
  rfl

theorem advance_sample {σ : List Slot} (hσ : ∀ x ∈ σ, x.IsArgument) :
    advance σ (σ.map fun x => x.wanted.sample) = .ok [] := by
  induction σ with
  | nil => rfl
  | cons x σ ih =>
    obtain ⟨hx, hσ⟩ := List.forall_mem_cons.1 hσ
    exact advance_cons.2 ⟨σ, step_sample hx σ, ih hσ⟩

end Slot

def ParseError.position? : ParseError → Option Nat
  | lex e => some e.position
  | unknownFunction _ n | unknownTimeUnit _ n | integerOutOfRange _ n | percentOutOfRange _ n =>
    some n
  | expectedFunction _ => none
  | unexpectedToken t => some t.position

theorem Slot.position?_about {σ : List Slot} {l : Lexeme} {complaint : Complaint}
    (hσ : ∀ x ∈ σ, x.IsArgument) (h : step σ l = .error complaint) (t : Token) :
    (complaint.about t).position? = some t.position := by
  have hfunction : ∀ found, complaint ≠ .notFunction found := by
    cases σ with
    | nil =>
      cases h
      exact nofun
    | cons x σ =>
      have hx := hσ x List.mem_cons_self
      have hfill := step_eq_error.1 h
      cases x with
      | token | integer | percent | unit | unitName | fields =>
        simp only [fill, fillInteger, fillPercent, fillUnit] at hfill
        grind
      | function | operand => exact hx.elim
  cases complaint with
  | notFunction found => exact absurd rfl (hfunction found)
  | _ => rfl

namespace Plan

open Slot

/-- Lexemes that some formula begins with. -/
def Begins (ls : List Lexeme) : Prop :=
  ∃ text p ts, parse text = .ok p ∧ (Cursor.start text).tokens = (ts, none) ∧
    ls <+: ts.map Token.toLexeme

theorem advance_of_parse {text : String} {p : Plan} {ts : List Token} (hp : parse text = .ok p)
    (htokens : (Cursor.start text).tokens = (ts, none)) :
    advance [.function .builtin] (ts.map Token.toLexeme) = .ok [] := by
  obtain ⟨e, hjudge⟩ := exists_parse_eq_ok.1 ⟨p, hp⟩
  obtain ⟨us, d, τ, hreads, hτ, hhalts⟩ := exists_halts [.function .builtin] (Cursor.start text)
  rw [hjudge] at hhalts
  cases hhalts with
  | finished hnext =>
    cases htokens.symm.trans (Cursor.tokens_eq_iff.2 ⟨d, e, hreads, hnext⟩)
    exact hτ

theorem exists_parse_of_advance {ls : List Lexeme} (hls : ∀ l ∈ ls, l.Spelled)
    (h : advance [.function .builtin] ls = .ok []) :
    ∃ text p ts, parse text = .ok p ∧ (Cursor.start text).tokens = (ts, none) ∧
      ts.map Token.toLexeme = ls := by
  obtain ⟨ts, htokens, rfl⟩ := tokens_blanked hls
  obtain ⟨d, e, hreads, hnext⟩ := Cursor.tokens_eq_iff.1 htokens
  obtain ⟨p, hp⟩ :=
    exists_parse_eq_ok.2 ⟨e, (judge_of_reads hreads h).trans (judge_of_halts (.finished hnext))⟩
  exact ⟨_, p, ts, hp, htokens, rfl⟩

theorem step_name (k : Kind) : step [.function .builtin] (.name k.name) = .ok k.slots := by
  have hfind : Registry.builtin.find? k.name = some k := Registry.find?_builtin.2 rfl
  have hfill : (function .builtin).fill (.name k.name) = .ok k.slots := by
    simp only [fill, Lexeme.name, hfind]
  rw [step, hfill]
  exact congrArg Except.ok (List.append_nil _)

theorem begins_of_advance {ls : List Lexeme} {τ : List Slot} (hls : ∀ l ∈ ls, l.Spelled)
    (h : advance [.function .builtin] ls = .ok τ) (hτ : ∀ x ∈ τ, x.IsArgument) : Begins ls := by
  have hall := advance_append.2 ⟨τ, h, advance_sample hτ⟩
  have hsample : ∀ l ∈ τ.map fun x => x.wanted.sample, l.Spelled :=
    List.forall_mem_map.2 fun x _ => x.wanted.spelled_sample
  obtain ⟨text, p, ts, hp, htokens, hts⟩ :=
    exists_parse_of_advance (List.forall_mem_append.2 ⟨hls, hsample⟩) hall
  exact ⟨text, p, ts, hp, htokens, hts ▸ List.prefix_append _ _⟩

theorem exists_advance_of_begins {ls : List Lexeme} (h : Begins ls) :
    ∃ τ, advance [.function .builtin] ls = .ok τ := by
  obtain ⟨text, p, ts, hp, htokens, rest, hts⟩ := h
  have hadvance := advance_of_parse hp htokens
  rw [← hts] at hadvance
  obtain ⟨τ, hτ, _⟩ := advance_append.1 hadvance
  exact ⟨τ, hτ⟩

theorem begins_iff {k : Kind} {ls : List Lexeme} (hls : ∀ l ∈ ls, l.Spelled) :
    Begins (.name k.name :: ls) ↔ ∃ τ, advance k.slots ls = .ok τ := by
  constructor
  · intro h
    obtain ⟨τ, hτ⟩ := exists_advance_of_begins h
    obtain ⟨ρ, hname, hτ⟩ := advance_cons.1 hτ
    cases (step_name k).symm.trans hname
    exact ⟨τ, hτ⟩
  · rintro ⟨τ, hτ⟩
    exact begins_of_advance (List.forall_mem_cons.2 ⟨spelled_kindName k, hls⟩)
      (advance_cons.2 ⟨_, step_name k, hτ⟩)
      (isArgument_advance (isArgument_slots k) hτ)

/-- An error is about the first token with which the lexemes no longer begin a formula, or about
what stands behind the tokens, all of which begin one. -/
inductive FirstOffence (text : String) : ParseError → Prop
  | token : (Cursor.start text).tokens.1 = before ++ t :: after →
    Occurs text t.text.toList t.position →
      (Complaint.about complaint t).position? = some t.position →
      Begins (before.map Token.toLexeme) →
      ¬ Begins ((before ++ [t]).map Token.toLexeme) → FirstOffence text (complaint.about t)
  | character : (Cursor.start text).tokens.2 = some (.unexpectedCharacter ch n) →
      Occurs text [ch] n → Begins ((Cursor.start text).tokens.1.map Token.toLexeme) →
      FirstOffence text (.lex (.unexpectedCharacter ch n))
  | cutOff : (Cursor.start text).tokens.2 = none →
      Begins ((Cursor.start text).tokens.1.map Token.toLexeme ++ [l]) →
      FirstOffence text (.lex (.unexpectedEnd l.kind text.length))

theorem firstOffence_of_halts {text : String} {k : Kind} {t₀ : Token} {ts : List Token}
    {d f : Cursor} {τ : List Slot} {e : ParseError} (ht₀ : t₀.toLexeme = .name k.name)
    (hreads : (Cursor.start text).Reads (t₀ :: ts) d)
    (hτ : advance k.slots (ts.map Token.toLexeme) = .ok τ) (hhalts : Halts τ d (.error e f)) :
    FirstOffence text e := by
  -- Where a run halts behind the name of a function, everything before is the beginning of a
  -- formula, and a token that is refused there is not.
  have htokens := hreads.tokens_eq
  have hplace := ((Cursor.within_start text).of_reads hreads).2
  have harguments := isArgument_advance (isArgument_slots k) hτ
  have hspelled : ∀ l ∈ ts.map Token.toLexeme, l.Spelled := by
    have hall := Parse.spelled_of_reads hreads
    exact (List.forall_mem_cons.1 hall).2
  have hbefore : Begins ((t₀ :: ts).map Token.toLexeme) := by
    rw [List.map_cons, ht₀, begins_iff hspelled]
    exact ⟨τ, hτ⟩
  -- One more lexeme begins a formula exactly if the machine takes it.
  have hsnoc {l : Lexeme} (hl : l.Spelled) :
      Begins ((t₀ :: ts).map Token.toLexeme ++ [l]) ↔ ∃ ρ, step τ l = .ok ρ := by
    have hall := List.forall_mem_append.2 ⟨hspelled, List.forall_mem_singleton.2 hl⟩
    rw [List.map_cons, ht₀, List.cons_append, begins_iff hall]
    exact exists_advance_snoc hτ
  cases hhalts with
  | cutOff hnext =>
    rename_i x σ
    rw [Cursor.tokens_of_end hnext, List.append_nil] at htokens
    rw [hplace.of_end hnext, ← x.wanted.kind_sample]
    refine .cutOff (by rw [htokens]) ?_
    rw [htokens, hsnoc (TokenKind.spelled_sample _)]
    exact ⟨σ, step_sample (harguments x List.mem_cons_self) σ⟩
  | refused hnext hstep =>
    rename_i complaint t
    rw [Cursor.tokens_of_next hnext] at htokens
    refine .token (by rw [htokens]) (hplace.of_next hnext).1 (position?_about harguments hstep t)
      hbefore ?_
    rw [List.map_append, List.map_singleton, hsnoc (Cursor.spells_of_next hnext)]
    rintro ⟨ρ, hok⟩
    cases hstep.symm.trans hok
  | illegal hnext =>
    rw [Cursor.tokens_of_error hnext, List.append_nil] at htokens
    obtain ⟨ch, n, rfl, hch⟩ := hplace.of_error hnext
    exact .character (by rw [htokens]) hch (by rwa [htokens])

/-- A text that starts with the name of a function and is no formula is blamed for its first token
that no formula has there. -/
theorem firstOffence (text : String) (k : Kind) (e : ParseError)
    (hname : ((Cursor.start text).tokens.1.map Token.toLexeme).head? = some (.name k.name))
    (h : parse text = .error e) : FirstOffence text e := by
  obtain ⟨f, hjudge⟩ := parse_eq_error.1 h
  obtain ⟨t₀, us, htokens₀, ht₀⟩ : ∃ t₀ us, (Cursor.start text).tokens.1 = t₀ :: us ∧
      t₀.toLexeme = .name k.name := by
    cases htokens : (Cursor.start text).tokens.1 with
    | nil => simp [htokens] at hname
    | cons t us => exact ⟨t, us, rfl, by simpa [htokens] using hname⟩
  obtain ⟨c, hnext₀⟩ := Cursor.exists_next htokens₀
  obtain ⟨ts, d, τ, hreads, hτ, hhalts⟩ := exists_halts k.slots c
  rw [← judge_of_next hnext₀ (ht₀ ▸ step_name k), hjudge] at hhalts
  exact firstOffence_of_halts ht₀ (.cons hnext₀ hreads) hτ hhalts

theorem firstOffence_percentile :
    let text := "percentile( 101, 5 fortnight"
    let e := ParseError.percentOutOfRange "101" 12
    ((Cursor.start text).tokens.1.map Token.toLexeme).head? = some (.name Kind.percentile.name) ∧
      parse text = .error e ∧ FirstOffence text e := by
  intro text e
  have hname : ((Cursor.start text).tokens.1.map Token.toLexeme).head? =
      some (.name Kind.percentile.name) := by
    have hnext : (Cursor.start text).next = .ok (some ⟨.name "percentile", 0⟩)
        ⟨10, text.toList.drop 10⟩ := by decide +kernel
    rw [Cursor.tokens_of_next hnext]
    rfl
  have hparse : parse text = .error e := by decide +kernel
  exact ⟨hname, hparse, firstOffence text .percentile e hname hparse⟩

end Plan

end Rollup
