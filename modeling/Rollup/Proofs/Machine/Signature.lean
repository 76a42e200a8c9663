import Rollup.Proofs.Command.Decoding
import Rollup.Proofs.Machine.Run
import Rollup.Proofs.Plan.Parse

namespace Rollup

namespace Value

theorem isSome_number? (v : Value) : v.number?.isSome = v.tag?.any TypeTag.isNumeric := by
  cases v <;> rfl

theorem isSome_integer? (v : Value) : v.integer?.isSome = v.tag?.any TypeTag.isIntegral := by
  cases v <;> rfl

theorem isSome_bool? (v : Value) : v.bool?.isSome = v.tag?.any (· == .bool) := by
  cases v <;> rfl

theorem isSome_fields? (v : Value) : v.fields?.isSome = v.tag?.any (· == .composite) := by
  cases v <;> rfl

end Value

namespace Target

theorem tag?_fallback (t : Target) : t.fallback.tag? = some t.tag := by
  cases t <;> rfl

theorem tag?_of_read? {t : Target} {v w : Value} (h : t.read? v = some w) :
    w.tag? = some t.tag := by
  unfold read? at h
  split at h
  · cases h
    exact tag?_fallback t
  · cases t with
    | string => cases h; rfl
    | int | double =>
      obtain ⟨_, _, rfl⟩ := Option.map_eq_some_iff.1 h
      rfl

theorem isSome_read?_string (v : Value) : (read? string v).isSome = true := by
  unfold read?
  split <;> rfl

end Target

namespace Kind

/-- The errors that an accepted sample may meet. -/
def mayRaise : Kind → EvalError → Prop
  | extract _, .fieldNotFound _ _ => True
  | extract t, .numberFormat _ _ => t ≠ .string
  | correl, .resolution _ => True
  | _, _ => False

inductive Answers (k : Kind) : Except EvalError Value → Prop
  | value : w.tag? = some k.returns → Answers k (.ok w)
  | failure : k.mayRaise e → Answers k (.error e)

theorem mayRaise.cases {k : Kind} {e : EvalError} (h : k.mayRaise e) :
    (∃ field path, e = .fieldNotFound field path) ∨ (∃ text t, e = .numberFormat text t) ∨
      ∃ d, e = .resolution d := by
  cases e with
  | fieldNotFound field path => exact .inl ⟨field, path, rfl⟩
  | numberFormat text t => exact .inr (.inl ⟨text, t, rfl⟩)
  | resolution d => exact .inr (.inr ⟨d, rfl⟩)
  | missingArgument | typeMismatch => cases k <;> cases h

end Kind

namespace Machine

theorem kind_start (p : Plan) (c : Config) (now : Nat) : (start p c now).kind = p.kind := by
  cases p with
  | gaugeFp range | gaugeInt range => cases range <;> rfl
  | _ => rfl

theorem start_eq_extract {p : Plan} {c : Config} {now : Nat} {t : Target} {path : List String} :
    start p c now = extract t path ↔ p = .extract t path := by
  cases p <;> simp [start]

theorem kind_eval (m : Machine) (r : Resolver) (now : Nat) (args : List Value) :
    (m.eval r now args).2.kind = m.kind := by
  generalize hk : m.kind = k
  cases m with
  | extract => exact hk
  | extremum | sum | avg | percentile | correl | flag | gaugeFp | gaugeInt =>
    simp only [kind] at hk
    subst hk
    exact fold_induction (P := fun m' => m'.kind = _) rfl fun _ => rfl

theorem eval_eq_extract {m : Machine} {r : Resolver} {now : Nat} {args : List Value} {t : Target}
    {path : List String} : (m.eval r now args).2 = extract t path ↔ m = extract t path := by
  cases m with
  | extract => rfl
  | extremum | sum | avg | percentile | correl | flag | gaugeFp | gaugeInt =>
    exact fold_induction (P := fun m' => m' = extract t path ↔ _) Iff.rfl fun _ => by simp

theorem kind_step (m : Machine) (s : Step) : (m.step s).2.kind = m.kind := by
  cases s with
  | eval r now args => exact kind_eval m r now args
  | reset now => cases m <;> rfl

theorem step_eq_extract {m : Machine} {s : Step} {t : Target} {path : List String} :
    (m.step s).2 = extract t path ↔ m = extract t path := by
  cases s with
  | eval r now args => exact eval_eq_extract
  | reset now => cases m <;> simp [step, reset]

theorem kind_after (m : Machine) (steps : List Step) : (m.after steps).kind = m.kind := by
  induction steps generalizing m with
  | nil => rfl
  | cons s steps ih => rw [after, ih, kind_step]

theorem after_eq_extract {m : Machine} {steps : List Step} {t : Target} {path : List String} :
    m.after steps = extract t path ↔ m = extract t path := by
  induction steps generalizing m with
  | nil => rfl
  | cons s steps ih => rw [after, ih, step_eq_extract]

theorem readArgument_of_head {read : Value → Option α} {k : Kind} {args : List Value} {a : α}
    (h : args.head?.bind read = some a) : readArgument read k args 0 = .ok a := by
  obtain ⟨v, hv, ha⟩ := Option.bind_eq_some_iff.1 h
  rw [List.head?_eq_getElem?] at hv
  simp only [readArgument, argument, hv, ha]

theorem readArgument_of_none {read : Value → Option α} {args : List Value} (k : Kind)
    (h : args.head?.bind read = none) : ∃ e, readArgument read k args 0 = .error e := by
  rw [List.head?_eq_getElem?] at h
  cases hv : args[0]? with
  | none =>
    simp only [readArgument, argument, hv]
    exact ⟨_, rfl⟩
  | some v =>
    rw [hv, Option.bind_some] at h
    simp only [readArgument, argument, hv, h]
    exact ⟨_, rfl⟩

theorem fold_readArgument_of_isSome {m : Machine} {read : Value → Option α} {k : Kind} {v : Value}
    {f : α → Value × Machine} (h : (read v).isSome = true) :
    ∃ a, (m.fold (readArgument read k [v] 0) f).1 = .ok (f a).1 := by
  obtain ⟨a, ha⟩ := Option.isSome_iff_exists.1 h
  have hread : readArgument read k [v] 0 = .ok a := readArgument_of_head ha
  exact ⟨a, by rw [hread]; rfl⟩

theorem readArgument_of_isNone {read : Value → Option α} {k : Kind} {v : Value}
    (h : (read v).isSome = false) :
    readArgument read k [v] 0 = .error (.typeMismatch k 0 v.tag?) := by
  simp only [Option.isSome_eq_false_iff, Option.isNone_iff_eq_none] at h
  simp [readArgument, argument, h]

theorem isSome_clampedInteger? (v : Value) :
    (clampedInteger? v).isSome = v.tag?.any TypeTag.isIntegral := by
  rw [clampedInteger?, Option.isSome_map, Value.isSome_integer?]

theorem operandValue_error {name : String} {r : Resolver} {e : EvalError}
    (h : operandValue name r = .error e) :
    ∃ e', e = .resolution e' := by
  unfold operandValue at h
  split at h
  · cases h
    exact ⟨_, rfl⟩
  · split at h <;> cases h
    exact ⟨_, rfl⟩

theorem accepts_gaugeFp (g : Gauge Float Float) :
    (gaugeFp g).kind.accepts 0 = TypeTag.isNumeric := by
  simp only [kind]
  split <;> rfl

theorem accepts_gaugeInt (g : Gauge Int64 Float) :
    (gaugeInt g).kind.accepts 0 = TypeTag.isIntegral := by
  simp only [kind]
  split <;> rfl

theorem returns_gaugeFp (g : Gauge Float Float) : (gaugeFp g).kind.returns = .composite := by
  simp only [kind]
  split <;> rfl

theorem returns_gaugeInt (g : Gauge Int64 Float) : (gaugeInt g).kind.returns = .composite := by
  simp only [kind]
  split <;> rfl

theorem extractFrom_of_record {t : Target} {path : List String} {v : Value} (hpath : path ≠ [])
    (hv : v.fields?.isSome = true) : (Kind.extract t).Answers (extractFrom t path [v]) := by
  have hrecord : v.fields?.isNone = false := by simpa using hv
  cases path with
  | nil => exact absurd rfl hpath
  | cons name path =>
    simp only [extractFrom, hrecord, Bool.false_eq_true, if_false]
    split
    · exact .failure trivial
    · rename_i leaf _
      split
      · rename_i w hw
        exact .value (Target.tag?_of_read? hw)
      · rename_i hw
        refine .failure ?_
        rintro rfl
        simpa [hw] using Target.isSome_read?_string leaf

theorem extractFrom_of_other {t : Target} {path : List String} {v : Value} (hpath : path ≠ [])
    (hv : v.fields?.isSome = false) :
    extractFrom t path [v] = .error (.typeMismatch (.extract t) 0 v.tag?) := by
  have hother : v.fields?.isNone = true := by simpa using hv
  cases path with
  | nil => exact absurd rfl hpath
  | cons name path => simp only [extractFrom, hother, if_true]

theorem eval_of_accepted {m : Machine} (hm : ∀ t, m ≠ extract t []) (r : Resolver) (now : Nat)
    {v : Value} (h : v.tag?.any (m.kind.accepts 0) = true) :
    m.kind.Answers (m.eval r now [v]).1 := by
  cases m with
  | extremum e =>
    obtain ⟨side, seed, current⟩ := e
    cases side with
    | max | min =>
      obtain ⟨x, hx⟩ := fold_readArgument_of_isSome ((Value.isSome_number? v).trans h)
      rw [eval, hx]
      exact .value rfl
  | sum | avg | percentile =>
    obtain ⟨x, hx⟩ := fold_readArgument_of_isSome ((Value.isSome_number? v).trans h)
    rw [eval, hx]
    exact .value rfl
  | correl operand c =>
    obtain ⟨x, hx⟩ := Option.isSome_iff_exists.1 ((Value.isSome_number? v).trans h)
    have hnumber : readArgument Value.number? (correl operand c).kind [v] 0 = .ok x :=
      readArgument_of_head hx
    rw [eval, hnumber]
    cases hy : operandValue operand r with
    | ok y => exact .value rfl
    | error e =>
      obtain ⟨e', rfl⟩ := operandValue_error hy
      exact .failure trivial
  | extract t path =>
    refine extractFrom_of_record (fun hpath => hm t (by rw [hpath])) ?_
    exact (Value.isSome_fields? v).trans h
  | flag t =>
    obtain ⟨x, hx⟩ := fold_readArgument_of_isSome ((Value.isSome_bool? v).trans h)
    rw [eval, hx]
    exact .value rfl
  | gaugeFp g =>
    rw [accepts_gaugeFp] at h
    obtain ⟨x, hx⟩ := fold_readArgument_of_isSome ((Value.isSome_number? v).trans h)
    rw [eval, hx]
    exact .value (by rw [returns_gaugeFp]; rfl)
  | gaugeInt g =>
    rw [accepts_gaugeInt] at h
    obtain ⟨x, hx⟩ := fold_readArgument_of_isSome ((isSome_clampedInteger? v).trans h)
    rw [eval, hx]
    exact .value (by rw [returns_gaugeInt]; rfl)

theorem eval_of_rejected {m : Machine} (hm : ∀ t, m ≠ extract t []) (r : Resolver) (now : Nat)
    {v : Value} (h : v.tag?.any (m.kind.accepts 0) = false) :
    (m.eval r now [v]).1 = .error (.typeMismatch m.kind 0 v.tag?) := by
  cases m with
  | extremum e =>
    obtain ⟨side, seed, current⟩ := e
    cases side with
    | max | min => rw [eval, readArgument_of_isNone ((Value.isSome_number? v).trans h)]; rfl
  | sum | avg | percentile | correl =>
    rw [eval, readArgument_of_isNone ((Value.isSome_number? v).trans h)]; rfl
  | extract t path =>
    refine extractFrom_of_other (fun hpath => hm t (by rw [hpath])) ?_
    exact (Value.isSome_fields? v).trans h
  | flag t => rw [eval, readArgument_of_isNone ((Value.isSome_bool? v).trans h)]; rfl
  | gaugeFp g =>
    rw [accepts_gaugeFp] at h
    rw [eval, readArgument_of_isNone ((Value.isSome_number? v).trans h)]
    rfl
  | gaugeInt g =>
    rw [accepts_gaugeInt] at h
    rw [eval, readArgument_of_isNone ((isSome_clampedInteger? v).trans h)]
    rfl

end Machine

namespace Run

theorem mayRaise_of_feedAt {m : Machine} (hm : ∀ t, m ≠ .extract t []) {now n k : Nat} {v : Value}
    {b : Bindings} {e : EvalError} (h : feedAt now m n v b = .error (.eval k e)) :
    m.kind.mayRaise e := by
  unfold feedAt at h
  split at h
  · rename_i haccepted
    have hanswers := Machine.eval_of_accepted hm b.resolver now haccepted
    split at h
    · rename_i heval
      cases h
      rw [heval] at hanswers
      cases hanswers
      assumption
    · cases h
  · cases h

theorem kept_of_feedAt {m m' : Machine} {now n : Nat} {v : Value} {b : Bindings} {j : Json}
    (h : feedAt now m n v b = .ok (j, m')) :
    m'.kind = m.kind ∧ ∀ t path, m' = .extract t path ↔ m = .extract t path := by
  unfold feedAt at h
  split at h
  · split at h
    · cases h
    · rename_i heval
      cases h
      have hm := congrArg Prod.snd heval
      dsimp only at hm
      subst hm
      exact ⟨Machine.kind_eval m _ _ _, fun _ _ => Machine.eval_eq_extract⟩
  · cases h

theorem mayRaise_of_resultsAt {w : Bool} {b : Bindings} {reading : Nat → Nat} {m : Machine}
    (hm : ∀ t, m ≠ .extract t []) {n k : Nat} {lines : List (List Char)} {e : EvalError}
    (h : resultsAt w b reading m n lines = .error (.eval k e)) : m.kind.mayRaise e := by
  induction lines generalizing reading m n with
  | nil => cases h
  | cons line lines ih =>
    simp only [resultsAt] at h
    split at h
    · exact ih hm h
    · split at h
      · rename_i hdecode
        cases h
        cases ofInput_of_decodes (decodes_iff.2 hdecode)
      · split at h
        · rename_i hfeed
          cases h
          exact mayRaise_of_feedAt hm hfeed
        · rename_i j m' hfeed
          obtain ⟨hkind, hextract⟩ := kept_of_feedAt hfeed
          rw [← hkind]
          exact ih (fun t => (hextract t []).not.2 (hm t)) (map_eq_error h)

theorem ne_extract_of_parse {text : String} {p : Plan} (h : Plan.parse text = .ok p) (t : Target) :
    p ≠ .extract t [] := by
  obtain ⟨ts, _, hformula⟩ := Plan.exists_tokens_of_parse h
  generalize ts.map Token.toLexeme = ls at hformula
  obtain ⟨⟨harguments⟩⟩ := hformula
  intro hp
  cases harguments <;> cases hp

theorem mayRaise_of_runAt {clock : Clock} {o : RunOptions} {n : Nat} {e : EvalError}
    (h : runAt clock o = .error (.eval n e)) :
    ∃ p, Plan.parse o.formula = .ok p ∧ p.kind.mayRaise e := by
  unfold runAt at h
  obtain h | ⟨p, hp, h⟩ := bind_eq_error h
  · obtain ⟨_, _, ⟨⟩⟩ := mapError_eq_error h
  · split at h
    · obtain h | ⟨b, _, h⟩ := bind_eq_error h
      · cases ofInput_of_bindAll h
      · cases hparse : Plan.parse o.formula with
        | error d => rw [hparse] at hp; cases hp
        | ok p' =>
          rw [hparse] at hp
          cases hp
          refine ⟨p, rfl, ?_⟩
          rw [← Machine.kind_start p o.config clock.opened]
          refine mayRaise_of_resultsAt (fun t => ?_) h
          exact Machine.start_eq_extract.not.2 (ne_extract_of_parse hparse t)
    · cases h

end Run

/-- A sample of an accepted type is answered with a value of the returned type, or, by the kinds
that may raise one, with an error that is not about its type; any other sample is a mismatch of
types. This holds in every state, and so a run over lines only raises errors that are not about
types. -/
theorem signature_kept :
    (∀ (p : Plan) (c : Config) (opened : Nat) (steps : List Machine.Step) (r : Resolver)
      (now : Nat) (v : Value), (∀ t, p ≠ .extract t []) →
        let m := (Machine.start p c opened).after steps
        m.kind = p.kind ∧
          (∀ t, v.tag? = some t → m.kind.accepts 0 t = true → m.kind.Answers (m.eval r now [v]).1) ∧
          ((∀ t, v.tag? = some t → m.kind.accepts 0 t = false) →
            (m.eval r now [v]).1 = .error (.typeMismatch m.kind 0 v.tag?))) ∧
    (∀ (clock : Clock) (o : RunOptions) (n : Nat) (e : EvalError),
      runAt clock o = .error (.eval n e) →
        (∃ field path, e = .fieldNotFound field path) ∨ (∃ text t, e = .numberFormat text t) ∨
          ∃ d, e = .resolution d) ∧
    ∀ o, run o = runAt .stopped o := by
  refine ⟨?_, ?_, run_eq_runAt⟩
  · intro p c opened steps r now v hp m
    have hm : ∀ t, m ≠ .extract t [] := fun t =>
      Machine.after_eq_extract.not.2 (Machine.start_eq_extract.not.2 (hp t))
    refine ⟨(Machine.kind_after _ _).trans (Machine.kind_start p c opened), ?_, ?_⟩
    · intro t ht haccepts
      apply Machine.eval_of_accepted hm
      rw [ht]
      exact haccepts
    · intro hrejects
      apply Machine.eval_of_rejected hm
      cases ht : v.tag? with
      | none => rfl
      | some t => exact hrejects t ht
  · intro clock o n e h
    obtain ⟨p, _, hraise⟩ := Run.mayRaise_of_runAt h
    exact hraise.cases

theorem signature_kept_correl :
    let m := (Machine.start (.correl "x") {} 0).after [.eval .none 1 [.null], .reset 2]
    let missing : EvalError := .resolution ⟨"x", .double, .missing⟩
    let clock : Clock := ⟨5, fun i => 7 + i⟩
    m.kind.Answers (m.eval .none 3 [.int 1]).1 ∧
      (m.eval .none 3 [.null]).1 = .error (.typeMismatch .correl 0 none) ∧
      runAt clock { formula := "correl($x)", input := some "1" } = .error (.eval 1 missing) ∧
      ((∃ field path, missing = .fieldNotFound field path) ∨
      (∃ text t, missing = .numberFormat text t) ∨ ∃ d, missing = .resolution d) := by
  intro m missing clock
  have hkept := signature_kept.1 (.correl "x") {} 0 [.eval .none 1 [.null], .reset 2] .none 3
  have hparse : Plan.parse "correl($x)" = .ok (.correl "x") := by decide +kernel
  have hjson : ∃ fits, Json.parse? "1" = some (.number (.integer 1 fits)) := by
    have hlex : JsonToken.ofChars? ['1'] = some [.number (.integer 1 (by decide))] := by
      with_unfolding_all rfl
    refine ⟨by decide, ?_⟩
    rw [Json.parse?, show "1".toList = ['1'] from rfl, hlex]
    simp [Json.value?]
  have hrun : runAt clock { formula := "correl($x)", input := some "1" } =
      .error (.eval 1 missing) := by
    obtain ⟨fits, hjson⟩ := hjson
    have hdecode : Run.decode false .empty ['1'] = .ok (.long 1, .empty) := by
      rw [Run.decode, show String.ofList ['1'] = "1" from rfl, hjson]
      rfl
    have hline : Unicode.isBlank '1' = false := by decide
    rw [runAt, hparse]
    change Run.resultsAt false .empty clock.reading (.start (.correl "x") {} 5) 1 [['1']] = _
    simp only [Run.resultsAt, List.all_cons, hline, hdecode]
    rfl
  refine ⟨?_, ?_, hrun, signature_kept.2.1 _ _ _ _ hrun⟩
  · exact (hkept (.int 1) (by simp)).2.1 .int rfl rfl
  · exact (hkept .null (by simp)).2.2 (by simp [Value.tag?])

end Rollup
