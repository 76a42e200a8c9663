import Rollup.Proofs.Plan.Slots

namespace Rollup

open Slot

namespace Parse

/-- A step that fills the slots of a stack, and makes its value besides. -/
def Follows (s : Parse α) (σ : List Slot) : Prop := (fun _ => ()) <$> s = run σ

theorem discard_eq (s : Parse α) (c : Cursor) :
    ((fun _ => ()) <$> s) c =
      match s c with
      | .ok _ d => .ok () d
      | .error e d => .error e d := by
  change EStateM.map _ s c = _
  unfold EStateM.map
  cases s c <;> rfl

theorem Follows.run_eq {s : Parse α} {σ : List Slot} (h : Follows s σ) (c : Cursor) :
    run σ c =
      match s c with
      | .ok _ d => .ok () d
      | .error e d => .error e d :=
  (congrFun h c).symm.trans (discard_eq s c)

theorem follows_pure (a : α) : Follows (pure a) [] := by
  rw [Follows, run_nil, map_pure]

theorem Follows.bind {s : Parse α} {f : α → Parse β} {σ τ : List Slot} (hs : Follows s σ)
    (hf : ∀ a, Follows (f a) τ) : Follows (s >>= f) (σ ++ τ) := by
  have hconst : (fun a => (fun _ => ()) <$> f a) = fun _ => run τ := funext hf
  rw [Follows, map_bind, hconst, run_append, ← hs, bind_map_left]

theorem Follows.map {s : Parse α} {σ : List Slot} (hs : Follows s σ) (f : α → β) :
    Follows (f <$> s) σ := by
  rw [Follows, Functor.map_map]
  exact hs

theorem follows_required {x : Slot} {σ : List Slot} {f : Token → Parse α}
    (h : ∀ t, (fun _ => ()) <$> f t = resume (x.fill t.toLexeme) σ t) :
    Follows (required x.wanted >>= f) (x :: σ) := by
  have hread : (fun t => (fun _ => ()) <$> f t) = fun t => resume (x.fill t.toLexeme) σ t :=
    funext h
  rw [Follows, map_bind, run_cons, hread]

theorem expect_eq (k : TokenKind) :
    expect k = required k >>= fun t =>
      if t.kind = k then pure t else throw (Complaint.about (.expected k) t) := by
  funext c
  change ofScan (Cursor.expect k) c = EStateM.bind (ofScan (Cursor.required k)) _ c
  unfold EStateM.bind ofScan Cursor.expect
  cases Cursor.required k c with
  | error => rfl
  | ok t d =>
    by_cases ht : t.kind = k <;> simp only [ht, if_true, if_false] <;> rfl

theorem follows_expect {x : Slot} {σ : List Slot} {f : Token → Parse α} (check : String →
    Except Complaint (List Slot))
    (hx : ∀ l, x.fill l = if l.kind = x.wanted then check l.text else .error (.expected x.wanted))
    (h : ∀ t, (fun _ => ()) <$> f t = resume (check t.text) σ t) :
    Follows (expect x.wanted >>= f) (x :: σ) := by
  rw [expect_eq, bind_assoc]
  apply follows_required
  intro t
  rw [hx]
  by_cases ht : t.kind = x.wanted
  · rw [if_pos ht, if_pos ht, pure_bind]
    exact h t
  · rw [if_neg ht, if_neg ht]
    rfl

theorem follows_token {f : Token → Parse α} {σ : List Slot} (k : TokenKind)
    (h : ∀ t, Follows (f t) σ) :
    Follows (expect k >>= f) (.token k :: σ) :=
  follows_expect (x := .token k) (fun _ => .ok []) (fun _ => rfl) h

theorem discard_ite {p : Prop} [Decidable p] (a : α) (complaint : Complaint) (t : Token) :
    (fun _ => ()) <$> (if p then pure a else throw (complaint.about t) : Parse α) =
      resume (if p then .ok [] else .error complaint) [] t := by
  by_cases hp : p
  · rw [if_pos hp, if_pos hp]
    exact follows_pure a
  · rw [if_neg hp, if_neg hp]
    rfl

theorem follows_noParameters : Follows noParameters [.token .leftBracket, .token .rightBracket] :=
  follows_token _ fun _ => follows_token _ fun _ => follows_pure ()

theorem discard_integerOf (t : Token) :
    (fun _ => ()) <$> integerOf t = resume (fillInteger 64 t.text) [] t :=
  discard_ite _ .integerOutOfRange t

theorem follows_integer : Follows integer [.integer 64] :=
  follows_expect (x := .integer 64) (fillInteger 64) (fun _ => rfl) discard_integerOf

theorem follows_bound : Follows bound [.integer 63] :=
  follows_expect (x := .integer 63) (fillInteger 63) (fun _ => rfl) fun t =>
    discard_ite _ .integerOutOfRange t

theorem follows_percent : Follows percent [.percent] := by
  refine follows_expect (x := .percent) fillPercent (fun _ => rfl) fun t => ?_
  unfold fillPercent
  by_cases hlt : Grammar.number t.text < 2 ^ 64
  · have hinteger : integerOf t = pure (.ofNat (Grammar.number t.text)) := if_pos hlt
    have hle : UInt64.ofNat (Grammar.number t.text) ≤ 100 ↔ Grammar.number t.text ≤ 100 := by
      rw [UInt64.le_iff_toNat_le, UInt64.toNat_ofNat_of_lt' hlt]
      rfl
    simp only [hinteger, pure_bind, hle, if_pos hlt]
    exact discard_ite _ .percentOutOfRange t
  · have hinteger : integerOf t = throw (.integerOutOfRange t.text t.position) := if_neg hlt
    rw [hinteger, if_neg hlt]
    rfl

theorem discard_unitOf (t : Token) :
    (fun _ => ()) <$> unitOf t = resume (fillUnit t.text) [] t := by
  unfold unitOf fillUnit
  cases TimeUnit.ofName? t.text with
  | none => rfl
  | some u => exact follows_pure u

theorem follows_timeUnit : Follows timeUnit [.unit] := by
  refine follows_required (x := .unit) fun t => ?_
  obtain ⟨⟨kind, text⟩, position⟩ := t
  cases kind with
  | name => exact discard_unitOf _
  | comma => exact follows_expect (x := .unitName) fillUnit (fun _ => rfl) discard_unitOf
  | _ => rfl

theorem follows_interval : Follows interval [.integer 64, .unit] :=
  follows_integer.bind fun _ => follows_timeUnit.bind fun _ => follows_pure _

theorem follows_intervalParameters :
    Follows intervalParameters [.token .leftBracket, .integer 64, .unit, .token .rightBracket] :=
  follows_token _ fun _ => follows_interval.bind fun _ => follows_token _ fun _ => follows_pure _

theorem follows_percentileParameters : Follows percentileParameters Kind.percentile.slots :=
  follows_token _ fun _ => follows_percent.bind fun _ => follows_token _ fun _ =>
    follows_interval.bind fun _ => follows_token _ fun _ => follows_pure _

theorem follows_correlParameters : Follows correlParameters Kind.correl.slots :=
  follows_token _ fun _ => follows_token _ fun _ => follows_token _ fun _ =>
    follows_token _ fun _ => follows_pure _

theorem run_token (k : TokenKind) (σ : List Slot) :
    run (.token k :: σ) = expect k >>= fun _ => run σ :=
  (follows_token k fun _ => id_map _).symm.trans (id_map _)

theorem run_fields_comma {c d : Cursor} {t : Token} (hc : Cursor.required .rightBracket c = .ok t d)
    (ht : t.kind = .comma) :
    run [.fields] c =
      match Cursor.expect .name d with
      | .ok _ e => run [.fields] e
      | .error e f => .error (.lex e) f := by
  have hfill : Slot.fields.fill t.toLexeme = .ok [.token .name, .fields] := by simp only [fill, ht]
  rw [run_of_required (x := .fields) [] hc, hfill]
  change run (.token .name :: [.fields]) d = _
  rw [run_token]
  change EStateM.bind (ofScan (Cursor.expect .name)) _ d = _
  unfold EStateM.bind ofScan
  cases Cursor.expect .name d <;> rfl

theorem follows_moreFields : Follows moreFields [.fields] := by
  funext c
  change EStateM.map _ moreFields c = run [.fields] c
  unfold EStateM.map
  fun_induction moreFields c with
  | case1 c e d hc => exact (run_of_required_error (x := .fields) [] hc).symm
  | case2 c t d hc hkind =>
    have hfill : Slot.fields.fill t.toLexeme = .ok [] := by simp only [fill, hkind]
    rw [run_of_required (x := .fields) [] hc, hfill]
    exact (congrFun run_nil d).symm
  | case3 c t d hc hkind e f hd => simp only [run_fields_comma hc hkind, hd]
  | case4 c t d hc hkind field g hd hlt fields e hfields ih =>
    simp only [run_fields_comma hc hkind, hd, ← ih, hfields]
  | case5 c t d hc hkind field g hd hlt fields e hfields ih =>
    simp only [run_fields_comma hc hkind, hd, ← ih, hfields]
  | case6 c t d hc hbracket hcomma =>
    have hfill : Slot.fields.fill t.toLexeme = .error .unexpected := by simp only [fill]
    rw [run_of_required (x := .fields) [] hc, hfill]
    rfl

theorem follows_extractParameters :
    Follows extractParameters [.token .leftBracket, .token .name, .fields] :=
  follows_token _ fun _ => follows_token _ fun _ => follows_moreFields.bind fun _ => follows_pure _

theorem follows_rangeParameters : Follows rangeParameters Kind.rangedGaugeInt.slots :=
  follows_token _ fun _ => follows_bound.bind fun _ => follows_token _ fun _ =>
    follows_bound.bind fun _ => follows_token _ fun _ => follows_pure _

theorem follows_parameters (k : Kind) : Follows (parameters k) k.slots := by
  cases k with
  | max | min | flag | gaugeFp | gaugeInt => exact follows_noParameters.bind fun _ => follows_pure _
  | sum | avg => exact follows_intervalParameters.map _
  | percentile => exact follows_percentileParameters
  | correl => exact follows_correlParameters
  | extract => exact follows_extractParameters.map _
  | rangedGaugeFp | rangedGaugeInt => exact follows_rangeParameters.bind fun _ => follows_pure _

def conclude : Expression → Parse Plan
  | .plan p => next >>= fun
    | none => pure p
    | some t => throw (.unexpectedToken t)
  | e => throw (.expectedFunction e)

theorem discard_conclude_plan (p : Plan) : (fun _ => ()) <$> conclude (.plan p) = ending := by
  rw [conclude, ending, map_bind]
  congr 1
  funext t?
  cases t? <;> rfl

theorem formula_eq (r : Registry) : formula r = expression r >>= conclude := by
  rw [formula]
  congr 1

theorem follows_formula (r : Registry) : (fun _ => ()) <$> formula r = judge [.function r] := by
  rw [formula_eq, expression, judge, run_cons, bind_assoc, bind_assoc, map_bind]
  congr 1
  funext t
  obtain ⟨⟨kind, text⟩, position⟩ := t
  cases kind with
  | name =>
    cases hr : r.find? text with
    | none =>
      simp only [fill, hr]
      rfl
    | some k =>
      have hparameters := follows_parameters k
      rw [Follows] at hparameters
      simp only [fill, hr, bind_map_left, map_bind, discard_conclude_plan, resume,
        List.append_nil, ← hparameters]
  | integer =>
    simp only [fill]
    by_cases hlt : Grammar.number text < 2 ^ 64
    · have hinteger (n : Nat) : integerOf ⟨⟨.integer, text⟩, n⟩ =
          pure (.ofNat (Grammar.number text)) := if_pos hlt
      rw [hinteger, if_pos hlt]
      rfl
    · have hinteger (n : Nat) : integerOf ⟨⟨.integer, text⟩, n⟩ =
          throw (.integerOutOfRange text n) := if_neg hlt
      rw [hinteger, if_neg hlt]
      rfl
  | dollar =>
    change _ = run [.operand] >>= _
    rw [bind_assoc, expect_eq, run_cons, bind_assoc, bind_assoc, map_bind]
    congr 1
    funext t
    by_cases ht : t.kind = .name <;> simp only [fill, ht, if_true, if_false] <;> rfl
  | _ => rfl

end Parse

namespace Plan

theorem judge_start (text : String) :
    judge [.function .builtin] (Cursor.start text) =
      match Parse.formula .builtin (Cursor.start text) with
      | .ok _ d => .ok () d
      | .error e d => .error e d := by
  rw [← Parse.follows_formula]
  refine (Parse.discard_eq _ _).trans ?_
  cases Parse.formula .builtin (Cursor.start text) <;> rfl

theorem parse_eq_error {text : String} {e : ParseError} :
    parse text = .error e ↔ ∃ d, judge [.function .builtin] (Cursor.start text) = .error e d := by
  rw [judge_start, parse]
  cases Parse.formula .builtin (Cursor.start text) <;> simp

theorem exists_parse_eq_ok {text : String} :
    (∃ p, parse text = .ok p) ↔ ∃ d, judge [.function .builtin] (Cursor.start text) = .ok () d := by
  rw [judge_start, parse]
  cases Parse.formula .builtin (Cursor.start text) <;> simp

end Plan

end Rollup
