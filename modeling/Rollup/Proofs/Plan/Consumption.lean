import Rollup.Proofs.Plan.Blame
import Rollup.Proofs.Token.Calls

namespace Rollup

open Slot

namespace Parse

abbrev Production (α : Type) := List Token → α → Prop

def Language.production (L : Language α) : Production α := fun ts a => L (ts.map Token.toLexeme) a

def Starts (P : Production α) (ls : List Lexeme) : Prop :=
  ∃ c ts d a, Cursor.Reads c ts d ∧ P ts a ∧ ls <+: ts.map Token.toLexeme

/-- A step fails behind the first token that does not belong there, in front of a character outside
the alphabet, or at the end of the text. -/
inductive Fails (P : Production α) (text : String) (c : Cursor) : ParseError → Cursor → Prop
  | token : c.Reads (before ++ [t]) d → d.offset = t.position + t.text.length →
      (Complaint.about complaint t).position? = some t.position →
      Starts P (before.map Token.toLexeme) →
      ¬ Starts P ((before ++ [t]).map Token.toLexeme) → Fails P text c (complaint.about t) d
  | character : c.Reads before b → Call.Meets b ch d → Starts P (before.map Token.toLexeme) →
      Fails P text c (.lex (.unexpectedCharacter ch d.offset)) d
  | cutOff : c.Reads before b → (∀ ch ∈ b.rest, isLayout ch = true) →
      Starts P (before.map Token.toLexeme ++ [l]) →
      Fails P text c (.lex (.unexpectedEnd l.kind text.length)) ⟨text.length, []⟩

/-- A step reads the tokens of its production, and not one more. -/
structure Consumes (s : Parse α) (P : Production α) : Prop where
  ok_iff : ∀ {c a d}, s c = .ok a d ↔ ∃ ts, c.Reads ts d ∧ P ts a
  behind : ∀ {c a d}, s c = .ok a d →
    ∃ before t, c.Reads (before ++ [t]) d ∧ P (before ++ [t]) a ∧
    d.offset = t.position + t.text.length
  fails : ∀ {text c e d}, Cursor.Within text c → s c = .error e d → Fails P text c e d

variable {s : Parse α} {P : Production α} {σ τ : List Slot} {c d : Cursor} {ls : List Lexeme}

theorem Fails.of_error {text : String} {before : List Token} {b : Cursor} {x : LexError}
    (hreads : c.Reads before b)
    (hnext : b.next = .error x d) (h : Starts P (before.map Token.toLexeme)) :
    Fails P text c (.lex x) d := by
  obtain ⟨n, cs⟩ := b
  cases Cursor.finds_of_next hnext with
  | foreign hrest hgap hch =>
    obtain rfl := hrest
    exact .character hreads (.mk hgap hch) h

theorem Fails.of_end {text : String} {before : List Token} {b : Cursor}
    {l : Lexeme} (hc : c.Within text) (hreads : c.Reads before b) (hnext : b.next = .ok none d)
    (h : Starts P (before.map Token.toLexeme ++ [l])) :
    Fails P text c (.lex (.unexpectedEnd l.kind d.offset)) d := by
  have hb := (hc.of_reads hreads).2
  cases Cursor.finds_of_next hnext with
  | ended hlayout =>
    have hend : b.toEnd = ⟨text.length, []⟩ := congrArg (Cursor.mk · []) hb.offset_add_length
    rw [hend]
    exact .cutOff hreads hlayout h

theorem Follows.advance_of_ok (h : Follows s σ) {a : α} (hok : s c = .ok a d) {ts : List Token}
    (hreads : c.Reads ts d) : advance σ (ts.map Token.toLexeme) = .ok [] := by
  obtain ⟨us, e, τ, hus, hτ, ⟨rfl, hrun⟩ | ⟨hne, hhalts⟩⟩ := exists_run σ c
  · simp only [h.run_eq, hok] at hrun
    cases hrun
    rwa [hreads.unique hus]
  · simp only [h.run_eq, hok] at hhalts
    cases hhalts
    exact absurd rfl hne

theorem Follows.exists_ok (h : Follows s σ) {ts : List Token} (hreads : c.Reads ts d)
    (hadvance : advance σ (ts.map Token.toLexeme) = .ok []) : ∃ a, s c = .ok a d := by
  have hrun := run_of_reads hreads hadvance
  rw [run_nil, h.run_eq] at hrun
  cases hs : s c with
  | error e f =>
    rw [hs] at hrun
    cases hrun
  | ok a f =>
    rw [hs] at hrun
    cases hrun
    exact ⟨a, rfl⟩

theorem Follows.starts_iff (h : Follows s σ) (hσ : ∀ x ∈ σ, x.IsArgument)
    (hok : ∀ c a d, s c = .ok a d ↔ ∃ ts, c.Reads ts d ∧ P ts a) (hls : ∀ l ∈ ls, l.Spelled) :
    Starts P ls ↔ ∃ τ, advance σ ls = .ok τ := by
  constructor
  · rintro ⟨c, ts, d, a, hreads, ha, rest, hrest⟩
    have hadvance := h.advance_of_ok ((hok c a d).2 ⟨ts, hreads, ha⟩) hreads
    rw [← hrest] at hadvance
    obtain ⟨τ, hτ, -⟩ := advance_append.1 hadvance
    exact ⟨τ, hτ⟩
  · rintro ⟨τ, hτ⟩
    -- What is still waited for is supplied.
    have hall := advance_append.2 ⟨τ, hτ, advance_sample (isArgument_advance hσ hτ)⟩
    have hsample : ∀ l ∈ τ.map fun x => x.wanted.sample, l.Spelled :=
      List.forall_mem_map.2 fun x _ => x.wanted.spelled_sample
    obtain ⟨ts, htokens, hts⟩ := tokens_blanked (List.forall_mem_append.2 ⟨hls, hsample⟩)
    obtain ⟨d, e, hreads, -⟩ := Cursor.tokens_eq_iff.1 htokens
    rw [← hts] at hall
    obtain ⟨a, ha⟩ := h.exists_ok hreads hall
    obtain ⟨us, hus, hP⟩ := (hok _ a d).1 ha
    cases hreads.unique hus
    exact ⟨_, ts, d, a, hreads, hP, hts ▸ List.prefix_append _ _⟩

theorem exists_last (hP : ∀ a, ¬ P [] a) {ts : List Token} {a : α} (hreads : c.Reads ts d)
    (ha : P ts a) :
    ∃ before t, c.Reads (before ++ [t]) d ∧ P (before ++ [t]) a ∧
      d.offset = t.position + t.text.length := by
  obtain rfl | ⟨before, t, rfl⟩ := ts.eq_nil_or_concat'
  · exact absurd ha (hP a)
  · obtain ⟨_, -, hlast⟩ := Cursor.reads_append.1 hreads
    exact ⟨before, t, hreads, ha, Cursor.offset_of_next (Cursor.reads_singleton.1 hlast)⟩

theorem Follows.consumes (h : Follows s σ) (hne : σ ≠ []) (hσ : ∀ x ∈ σ, x.IsArgument)
    (hok : ∀ c a d, s c = .ok a d ↔ ∃ ts, c.Reads ts d ∧ P ts a) : Consumes s P where
  ok_iff := hok _ _ _
  behind {c a d} ha := by
    obtain ⟨ts, hreads, hP⟩ := (hok c a d).1 ha
    refine exists_last (fun b hb => hne ?_) hreads hP
    have hadvance := h.advance_of_ok ((hok c b c).2 ⟨[], .nil, hb⟩) .nil
    cases hadvance
    rfl
  fails {text c e f} hc he := by
    obtain ⟨ts, d, τ, hreads, hτ, ⟨-, hrun⟩ | ⟨-, hhalts⟩⟩ := exists_run σ c
    · simp [h.run_eq, he] at hrun
    simp only [h.run_eq, he] at hhalts
    have hspelled := spelled_of_reads hreads
    have harguments := isArgument_advance hσ hτ
    have hbefore : Starts P (ts.map Token.toLexeme) := (h.starts_iff hσ hok hspelled).2 ⟨τ, hτ⟩
    -- One more lexeme belongs there exactly if the machine takes it.
    have hsnoc {l : Lexeme} (hl : l.Spelled) :
        Starts P (ts.map Token.toLexeme ++ [l]) ↔ ∃ ρ, step τ l = .ok ρ := by
      rw [h.starts_iff hσ hok (List.forall_mem_append.2 ⟨hspelled, List.forall_mem_singleton.2 hl⟩)]
      exact exists_advance_snoc hτ
    cases hhalts with
    | cutOff hnext =>
      rename_i y υ
      have hstep := step_sample (harguments y List.mem_cons_self) υ
      rw [← y.wanted.kind_sample]
      exact .of_end hc hreads hnext ((hsnoc y.wanted.spelled_sample).2 ⟨υ, hstep⟩)
    | refused hnext hstep =>
      rename_i t
      have hall := Cursor.reads_append.2 ⟨d, hreads, Cursor.reads_singleton.2 hnext⟩
      refine .token hall (Cursor.offset_of_next hnext)
        (position?_about harguments hstep t) hbefore ?_
      rw [List.map_append, List.map_singleton, hsnoc (Cursor.spells_of_next hnext)]
      rintro ⟨ρ, hρ⟩
      cases hstep.symm.trans hρ
    | illegal hnext => exact .of_error hreads hnext hbefore

theorem starts_production {L : Language α} :
    Starts L.production ls ↔ ∃ ms a, (∀ l ∈ ms, l.Spelled) ∧ L ms a ∧ ls <+: ms := by
  constructor
  · rintro ⟨c, ts, d, a, hreads, ha, hbegins⟩
    exact ⟨_, a, spelled_of_reads hreads, ha, hbegins⟩
  · rintro ⟨ms, a, hms, ha, hbegins⟩
    obtain ⟨ts, htokens, rfl⟩ := tokens_blanked hms
    obtain ⟨d, _, hreads, -⟩ := Cursor.tokens_eq_iff.1 htokens
    exact ⟨_, ts, d, a, hreads, ha, hbegins⟩

theorem Fails.cons {P : Production α} {Q : Production β} {text : String} {t : Token}
    {e : ParseError} {f : Cursor}
    (hnext : c.next = .ok (some t) d) (hstarts : ∀ ls, Starts P (t.toLexeme :: ls) ↔ Starts Q ls)
    (h : Fails Q text d e f) : Fails P text c e f := by
  cases h with
  | token hreads hoffset hposition hbefore hafter =>
    have hall : c.Reads ((t :: _) ++ [_]) f := .cons hnext hreads
    exact .token hall hoffset hposition ((hstarts _).2 hbefore) fun h => hafter ((hstarts _).1 h)
  | character hreads hmeets hbefore =>
    exact .character (.cons hnext hreads) hmeets ((hstarts _).2 hbefore)
  | cutOff hreads hlayout hbefore =>
    exact .cutOff (.cons hnext hreads) hlayout ((hstarts _).2 hbefore)

open Grammar

theorem consumes_parameters (k : Kind) : Consumes (parameters k) (Language.production (IsCall k)) :=
  (follows_parameters k).consumes (by cases k <;> exact List.cons_ne_nil _ _) (isArgument_slots k)
    (accepts_parameters k)

abbrev expressions : Production Expression := Language.production (IsExpression .builtin)

theorem starts_call {k : Kind} {name : String} (hname : Registry.builtin.find? name = some k)
    (hspelled : (Lexeme.name name).Spelled) (ls : List Lexeme) :
    Starts expressions (.name name :: ls) ↔ Starts (Language.production (IsCall k)) ls := by
  simp only [starts_production]
  constructor
  · rintro ⟨_, e, hms, he, hbegins⟩
    cases he with
    | plan hk hcall =>
      obtain ⟨⟨⟩, hrest⟩ := List.cons_prefix_cons.1 hbegins
      cases hname.symm.trans hk
      exact ⟨_, _, (List.forall_mem_cons.1 hms).2, hcall, hrest⟩
    | integer => cases (List.cons_prefix_cons.1 hbegins).1
    | operand => cases (List.cons_prefix_cons.1 hbegins).1
  · rintro ⟨ms, p, hms, hcall, hbegins⟩
    exact ⟨_, _, List.forall_mem_cons.2 ⟨hspelled, hms⟩, .plan hname hcall,
      (List.prefix_cons_inj _).2 hbegins⟩

theorem starts_operand (ls : List Lexeme) :
    Starts expressions (.dollar :: ls) ↔
      Starts (Language.production fun ms e => ∃ s, ms = [.name s] ∧
        e = Expression.operand s) ls := by
  simp only [starts_production]
  constructor
  · rintro ⟨_, e, hms, he, hbegins⟩
    cases he with
    | plan => cases (List.cons_prefix_cons.1 hbegins).1
    | integer => cases (List.cons_prefix_cons.1 hbegins).1
    | operand =>
      exact ⟨_, _, (List.forall_mem_cons.1 hms).2, ⟨_, rfl, rfl⟩,
        (List.cons_prefix_cons.1 hbegins).2⟩
  · rintro ⟨_, _, hms, ⟨s, rfl, rfl⟩, hbegins⟩
    have hdollar : Lexeme.dollar.Spelled := .dollar
    exact ⟨_, _, List.forall_mem_cons.2 ⟨hdollar, hms⟩, .operand,
      (List.prefix_cons_inj _).2 hbegins⟩

theorem Starts.nil {P : Production α} {ls : List Lexeme} (h : Starts P ls) : Starts P [] := by
  obtain ⟨c, ts, d, a, hreads, ha, -⟩ := h
  exact ⟨c, ts, d, a, hreads, ha, List.nil_prefix⟩

theorem first_of_starts {l : Lexeme} (h : Starts expressions [l]) :
    l.kind = .name ∧ (∃ k, Registry.builtin.find? l.text = some k) ∨
      l.kind = .integer ∧ number l.text < 2 ^ 64 ∨ l.kind = .dollar := by
  obtain ⟨_, e, -, he, hbegins⟩ := starts_production.1 h
  cases he with
  | plan hk =>
    obtain rfl := (List.cons_prefix_cons.1 hbegins).1
    exact .inl ⟨rfl, _, hk⟩
  | integer hn =>
    obtain rfl := (List.cons_prefix_cons.1 hbegins).1
    exact .inr (.inl ⟨rfl, hn⟩)
  | operand =>
    obtain rfl := (List.cons_prefix_cons.1 hbegins).1
    exact .inr (.inr rfl)

theorem starts_max : Starts expressions [.name "max"] := by
  have hmax : Registry.builtin.find? "max" = some .max := Registry.find?_builtin.2 rfl
  have hbrackets : ∀ l ∈ [Lexeme.leftBracket, .rightBracket], l.Spelled :=
    List.forall_mem_cons.2 ⟨.leftBracket, List.forall_mem_singleton.2 .rightBracket⟩
  refine (starts_call hmax (Plan.spelled_kindName .max) []).2 ?_
  exact starts_production.2 ⟨_, .max, hbrackets, .mk .max, List.nil_prefix⟩

theorem Fails.first {P : Production α} {text : String} {t : Token} (complaint : Complaint)
    (hnext : c.next = .ok (some t) d) (hposition : (complaint.about t).position? = some t.position)
    (hnil : Starts P []) (h : ¬ Starts P [t.toLexeme]) : Fails P text c (complaint.about t) d := by
  have hreads : c.Reads ([] ++ [t]) d := Cursor.reads_singleton.2 hnext
  exact .token hreads (Cursor.offset_of_next hnext) hposition hnil h

theorem expression_of_next {t : Token} (r : Registry) (h : c.next = .ok (some t) d) :
    expression r c =
      (match t.kind with
        | .name =>
          match r.find? t.text with
          | some k => Expression.plan <$> parameters k
          | none => throw (.unknownFunction t.text t.position)
        | .integer => Expression.integer <$> integerOf t
        | .dollar => expect .name >>= fun t => pure (.operand t.text)
        | _ => throw (.unexpectedToken t) : Parse Expression) d :=
  bind_of_ok _ (ofScan_eq_ok.2 (Cursor.required_eq_ok.2 h))

theorem consumes_operand :
    Consumes (expect .name >>= fun t => pure (Expression.operand t.text))
      (Language.production fun ls e => ∃ s, ls = [.name s] ∧ e = Expression.operand s) := by
  have hfollows : Follows (expect .name >>= fun t => pure (Expression.operand t.text))
      [.token .name] :=
    follows_token _ fun _ => follows_pure _
  have haccepts : Accepts (expect .name >>= fun t => pure (Expression.operand t.text))
      fun ls e => ∃ s, ls = [.name s] ∧ e = Expression.operand s := by
    refine (accepts_expect (M := fun s ls e => ls = [] ∧ e = Expression.operand s) fun t =>
      accepts_pure _).congr
      fun ls e _ => ?_
    constructor
    · rintro ⟨s, _, rfl, rfl, rfl⟩
      exact ⟨s, rfl, rfl⟩
    · rintro ⟨s, rfl, rfl⟩
      exact ⟨s, [], rfl, rfl, rfl⟩
  exact hfollows.consumes (List.cons_ne_nil _ _) (List.forall_mem_singleton.2 trivial) haccepts

theorem map_eq_error {s : Parse α} {f : α → β} {e : ParseError} :
    (f <$> s) c = .error e d ↔ s c = .error e d := by
  change EStateM.map f s c = _ ↔ _
  unfold EStateM.map
  cases s c <;> simp

theorem fails_expression {text : String} (hc : c.Within text) {e : ParseError} {f : Cursor}
    (he : expression .builtin c = .error e f) : Fails expressions text c e f := by
  -- What an expression refuses is its first token, or refused by what goes on behind it.
  have hnil := starts_max.nil
  cases hnext : c.next with
  | error x d =>
    have hrequired : Cursor.required .name c = .error x d := by simp only [Cursor.required, hnext]
    cases he.symm.trans (bind_of_error _ (ofScan_of_error hrequired))
    exact .of_error .nil hnext hnil
  | ok t? d =>
    cases t? with
    | none =>
      have hrequired : Cursor.required .name c = .error (.unexpectedEnd .name d.offset) d := by
        simp only [Cursor.required, hnext]
      cases he.symm.trans (bind_of_error _ (ofScan_of_error hrequired))
      exact .of_end (l := .name "max") hc .nil hnext starts_max
    | some t =>
      rw [expression_of_next .builtin hnext] at he
      have hspelled := Cursor.spells_of_next hnext
      have hd := (hc.of_next hnext).2
      obtain ⟨⟨kind, s⟩, n⟩ := t
      cases kind with
      | name =>
        cases hfind : Registry.builtin.find? s with
        | some k =>
          simp only [hfind, map_eq_error] at he
          exact ((consumes_parameters k).fails hd he).cons hnext (starts_call hfind hspelled)
        | none =>
          simp only [hfind] at he
          cases he
          refine .first .unknownFunction hnext rfl hnil fun h => ?_
          simpa [hfind] using first_of_starts h
      | integer =>
        simp only [map_eq_error] at he
        by_cases hlt : number s < 2 ^ 64
        · have hinteger : integerOf ⟨⟨.integer, s⟩, n⟩ = pure (.ofNat (number s)) := if_pos hlt
          rw [hinteger] at he
          cases he
        · have hinteger : integerOf ⟨⟨.integer, s⟩, n⟩ = throw (.integerOutOfRange s n) :=
            if_neg hlt
          rw [hinteger] at he
          cases he
          refine .first .integerOutOfRange hnext rfl hnil fun h => ?_
          rcases first_of_starts h with ⟨hname, -⟩ | ⟨-, hn⟩ | hdollar
          · cases hname
          · exact hlt hn
          · cases hdollar
      | dollar =>
        have hdollar : (⟨.dollar, s⟩ : Lexeme) = .dollar := Lexeme.Spelled.eq_mark hspelled rfl
        refine (consumes_operand.fails hd he).cons hnext ?_
        rw [hdollar]
        exact starts_operand
      | leftBracket | rightBracket | comma =>
        cases he
        refine .first .unexpected hnext rfl hnil fun h => ?_
        simpa using first_of_starts h

def round : Parse (Option String) := fun c =>
  match Cursor.required .rightBracket c with
  | .error e d => .error (.lex e) d
  | .ok t d =>
    match t.kind with
    | .rightBracket => .ok none d
    | .comma =>
      match Cursor.expect .name d with
      | .error e f => .error (.lex e) f
      | .ok field f => .ok (some field.text) f
    | _ => .error (.unexpectedToken t) d

def rounds : Nat → Parse (Option (List String))
  | 0, c => .ok none c
  | n + 1, c =>
    match round c with
    | .error e d => .error e d
    | .ok none d => .ok (some []) d
    | .ok (some field) d =>
      match rounds n d with
      | .error e f => .error e f
      | .ok fields? f => .ok (fields?.map (field :: ·)) f

theorem rounds_eq {n : Nat} (h : c.rest.length < 2 * (n + 1)) :
    rounds (n + 1) c =
      match moreFields c with
      | .ok names d => .ok (some names) d
      | .error e d => .error e d := by
  -- The loop is over after at most one round for every two characters that are left, and one
  -- more.
  rw [rounds]
  fun_induction moreFields c generalizing n with
  | case1 c e d hc => simp only [round, hc]
  | case2 c t d hc hkind => simp only [round, hc, hkind]
  | case3 c t d hc hkind e f hd => simp only [round, hc, hkind, hd]
  | case4 c t d hc hkind field g hd hlt names e hnames ih
  | case5 c t d hc hkind field g hd hlt names e hnames ih =>
    have hcomma := Cursor.length_lt_of_required hc
    have hfield := Cursor.length_lt_of_expect hd
    obtain ⟨m, rfl⟩ := Nat.exists_eq_add_one_of_ne_zero (n := n) (by omega)
    have hrest : rounds (m + 1) g = _ := ih (n := m) (by omega)
    simp only [round, hc, hkind, hd, hrest, hnames, Option.map_some]
  | case6 c t d hc hbracket hcomma => simp only [round, hc]

theorem length_of_isFields {names : List String} (h : IsFields ls names) :
    ls.length = 2 * names.length := by
  induction h with
  | nil => rfl
  | cons _ ih =>
    simp only [List.length_cons, ih]
    omega

theorem consumes_expect (k : TokenKind) :
    Consumes (expect k) fun ts t => ts = [t] ∧ t.kind = k := by
  have hfollows : Follows (expect k) [.token k] := by
    rw [← bind_pure (expect k)]
    exact follows_token k follows_pure
  refine hfollows.consumes (List.cons_ne_nil _ _) (List.forall_mem_singleton.2 trivial)
    fun c t d => ?_
  rw [expect, ofScan_eq_ok, Cursor.expect_eq_ok]
  constructor
  · rintro ⟨hnext, hkind⟩
    exact ⟨[t], Cursor.reads_singleton.2 hnext, rfl, hkind⟩
  · rintro ⟨_, hreads, rfl, hkind⟩
    exact ⟨Cursor.reads_singleton.1 hreads, hkind⟩

theorem consumes_expression : Consumes (expression .builtin) expressions where
  ok_iff := accepts_expression .builtin _ _ _
  behind {c x d} hx := by
    obtain ⟨ts, hreads, hP⟩ := (accepts_expression .builtin c x d).1 hx
    exact exists_last (fun _ h => nomatch h) hreads hP
  fails hc he := fails_expression hc he

/-- The steps of the parser consume their productions. For a path, the loop reads two tokens for
every name, the closing bracket included, and is over on every text. -/
theorem steps_consume :
    (∀ k, Consumes (expect k) fun ts t => ts = [t] ∧ t.kind = k) ∧
      Consumes integer (Language.production fun ls n =>
        ∃ s, ls = [.integer s] ∧ number s < 2 ^ 64 ∧ n = .ofNat (number s)) ∧
      Consumes timeUnit (Language.production IsUnit) ∧
      Consumes noParameters (Language.production fun ls _ => ls = [.leftBracket, .rightBracket]) ∧
      Consumes intervalParameters (Language.production fun ls i =>
        ∃ ms, ls = .leftBracket :: (ms ++ [.rightBracket]) ∧ IsInterval ms i) ∧
      Consumes (expression .builtin) (Language.production (IsExpression .builtin)) ∧
      Consumes extractParameters (fun ts path =>
        (∃ s ms names, ts.map Token.toLexeme = .leftBracket :: .name s :: (ms ++ [.rightBracket]) ∧
          IsFields ms names ∧ path = s :: names) ∧ ts.length = 1 + 2 * path.length) ∧
      ∀ c : Cursor, rounds (c.rest.length / 2 + 1) c =
        match moreFields c with
        | .ok names d => .ok (some names) d
        | .error e d => .error e d := by
  refine ⟨consumes_expect, ?_, ?_, ?_, ?_, consumes_expression, ?_, fun c => rounds_eq (by omega)⟩
  · exact follows_integer.consumes (List.cons_ne_nil _ _) (by simp [IsArgument]) accepts_integer
  · exact follows_timeUnit.consumes (List.cons_ne_nil _ _) (by simp [IsArgument]) accepts_timeUnit
  · exact follows_noParameters.consumes (List.cons_ne_nil _ _)
      (by simp [IsArgument]) accepts_noParameters
  · exact follows_intervalParameters.consumes (List.cons_ne_nil _ _) (by simp [IsArgument])
      accepts_intervalParameters
  · refine follows_extractParameters.consumes (List.cons_ne_nil _ _)
      (by simp [IsArgument]) fun c path d => ?_
    rw [accepts_path c path d]
    refine exists_congr fun ts => and_congr_right fun _ => (and_iff_left_of_imp ?_).symm
    rintro ⟨s, ms, names, hts, hfields, rfl⟩
    have hlength := congrArg List.length hts
    simp only [List.length_map, List.length_cons, List.length_append, length_of_isFields hfields]
      at hlength
    simp only [hlength, List.length_cons, List.length_nil]
    omega

theorem steps_consume_fortnights :
    let text := "sum(5 fortnights) x"
    let e := ParseError.unknownTimeUnit "fortnights" 6
    expression .builtin (.start text) = .error e ⟨16, [')', ' ', 'x']⟩ ∧
      Fails (Language.production (IsExpression .builtin)) text (.start text) e
      ⟨16, [')', ' ', 'x']⟩ := by
  intro text e
  have herror : expression .builtin (.start text) = .error e ⟨16, [')', ' ', 'x']⟩ := by
    decide +kernel
  obtain ⟨-, -, -, -, -, hconsumes, -, -⟩ := steps_consume
  exact ⟨herror, hconsumes.fails (Cursor.within_start text) herror⟩

end Parse

end Rollup
