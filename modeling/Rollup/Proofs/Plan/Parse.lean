import Rollup.Proofs.Plan.Accepts

namespace Rollup

theorem TimeUnit.ofName?_eq_some {s : String} {u : TimeUnit} :
    ofName? s = some u ↔ s ∈ u.names := by
  constructor
  · intro h
    simpa using List.find?_some h
  · intro h
    cases u <;> simp only [names, List.mem_cons, List.not_mem_nil, or_false] at h <;>
      rcases h with rfl | rfl | rfl <;> decide

namespace Registry

theorem find?_register (r : Registry) (name : String) (k : Kind) (s : String) :
    (r.register name k).find? s = if s = name then some k else r.find? s :=
  Keyed.find?_insert s name k r

theorem find?_foldl_register (ks : List Kind) (r : Registry) (s : String) :
    (ks.foldl (fun r k => register r k.name k) r).find? s =
      (ks.reverse.find? fun k => s = k.name).or (r.find? s) := by
  induction ks generalizing r with
  | nil => rfl
  | cons k ks ih =>
    rw [List.foldl_cons, ih, find?_register, List.reverse_cons, List.find?_append]
    by_cases hs : s = k.name <;> simp [hs]

theorem find?_builtin {s : String} {k : Kind} : builtin.find? s = some k ↔ s = k.name := by
  have hempty : Registry.find? empty s = none := rfl
  rw [builtin, find?_foldl_register, hempty, Option.or_none]
  constructor
  · intro h
    simpa using List.find?_some h
  · rintro rfl
    rcases k with _ | _ | _ | _ | _ | _ | target | _ | _ | _ | _ | _
    case extract => cases target <;> decide
    all_goals decide

end Registry

namespace Parse

open Grammar

theorem accepts_noParameters :
    Accepts noParameters fun ls _ => ls = [.leftBracket, .rightBracket] := by
  refine (accepts_mark .leftBracket (accepts_mark .rightBracket (accepts_pure ()))).congr
    fun ls _ _ => ?_
  constructor
  · rintro ⟨_, rfl, _, rfl, rfl, _⟩
    rfl
  · rintro rfl
    exact ⟨_, rfl, _, rfl, rfl, rfl⟩

theorem accepts_integerOf (t : Token) :
    Accepts (integerOf t) fun ls n => ls = [] ∧ number t.text < 2 ^ 64 ∧
      n = .ofNat (number t.text) :=
  accepts_ite (by norm_num [number]) _ _

theorem accepts_checked {f : Token → Parse α} {q : String → Prop} {v : String → α}
    (h : ∀ t, Accepts (f t) fun ls a => ls = [] ∧ q t.text ∧ a = v t.text) :
    Accepts (expect .integer >>= f) fun ls a => ∃ s, ls = [.integer s] ∧ q s ∧ a = v s := by
  refine (accepts_expect (M := fun s ls a => ls = [] ∧ q s ∧ a = v s) h).congr fun ls a _ => ?_
  constructor
  · rintro ⟨s, _, rfl, rfl, hs, rfl⟩
    exact ⟨s, rfl, hs, rfl⟩
  · rintro ⟨s, rfl, hs, rfl⟩
    exact ⟨s, _, rfl, rfl, hs, rfl⟩

theorem accepts_integer :
    Accepts integer fun ls n => ∃ s, ls = [.integer s] ∧ number s < 2 ^ 64 ∧
      n = .ofNat (number s) :=
  accepts_checked accepts_integerOf

theorem accepts_unitOf (t : Token) : Accepts (unitOf t) fun ls u => ls = [] ∧ t.text ∈ u.names := by
  unfold unitOf
  simp only [← TimeUnit.ofName?_eq_some]
  split
  · rename_i u hu
    simpa [hu, eq_comm] using accepts_pure u
  · rename_i hu
    simpa [hu] using accepts_throw _

theorem accepts_timeUnit : Accepts timeUnit IsUnit := by
  refine (accepts_required (k := .name) (M := fun l ls u =>
    l.kind = .name ∧ ls = [] ∧ l.text ∈ u.names ∨
      l.kind = .comma ∧ ∃ s rest, ls = .name s :: rest ∧ rest = [] ∧ s ∈ u.names) fun t => ?_).congr
    fun ls u hls => ?_
  · split
    · rename_i hkind
      exact (accepts_unitOf t).congr fun ls u _ => by simp [hkind]
    · rename_i hkind
      exact (accepts_expect (M := fun s ls u => ls = [] ∧
        s ∈ TimeUnit.names u) accepts_unitOf).congr
        fun ls u _ => by simp [hkind, Lexeme.name]
    · rename_i hname hcomma
      refine (accepts_throw _).congr fun ls u _ => ?_
      simp only [false_iff, not_or, not_and]
      exact ⟨fun h => absurd h hname, fun h => absurd h hcomma⟩
  · constructor
    · rintro ⟨l, _, rfl, ⟨hkind, rfl, hs⟩ | ⟨hkind, s, _, rfl, rfl, hs⟩⟩
      · obtain ⟨_, _⟩ := l
        subst hkind
        exact .plain hs
      · rw [(hls l List.mem_cons_self).eq_mark (m := .comma) hkind]
        exact .comma hs
    · rintro (h | h)
      · exact ⟨_, _, rfl, .inl ⟨rfl, rfl, h⟩⟩
      · exact ⟨_, _, rfl, .inr ⟨rfl, _, _, rfl, rfl, h⟩⟩

theorem accepts_interval : Accepts interval IsInterval := by
  refine (accepts_integer.bind fun n => accepts_timeUnit.bind fun u =>
    accepts_pure (⟨n, u⟩ : Interval)).congr
    fun ls i _ => ?_
  constructor
  · rintro ⟨_, _, _, rfl, ⟨s, rfl, hs, rfl⟩, us, _, u, rfl, hu, rfl, rfl⟩
    rw [List.append_nil]
    exact .mk hs hu
  · rintro ⟨hs, hu⟩
    exact ⟨[_], _, _, rfl, ⟨_, rfl, hs, rfl⟩, _, [], _, (List.append_nil _).symm, hu, rfl, rfl⟩

theorem accepts_intervalParameters :
    Accepts intervalParameters fun ls i => ∃ ms, ls = .leftBracket :: (ms ++ [.rightBracket]) ∧
      IsInterval ms i := by
  refine (accepts_mark .leftBracket (accepts_interval.bind fun i =>
    accepts_mark .rightBracket (accepts_pure i))).congr
    fun ls i _ => ?_
  constructor
  · rintro ⟨_, rfl, ms, _, i, rfl, hi, _, rfl, rfl, rfl⟩
    exact ⟨ms, rfl, hi⟩
  · rintro ⟨ms, rfl, hi⟩
    exact ⟨_, rfl, ms, _, i, rfl, hi, _, rfl, rfl, rfl⟩

theorem accepts_percent :
    Accepts percent fun ls p => ∃ s, ls = [.integer s] ∧ number s ≤ 100 ∧
      p = .ofNat (number s) := by
  have hcheck (t : Token) (n : UInt64) :=
    accepts_ite (Iff.refl (n ≤ 100)) n.toUInt8 (.percentOutOfRange t.text t.position)
  refine accepts_checked fun t => ((accepts_integerOf t).bind (hcheck t)).congr fun ls p _ => ?_
  constructor
  · rintro ⟨_, _, n, rfl, ⟨rfl, hlt, rfl⟩, rfl, hle, rfl⟩
    rw [UInt64.le_iff_toNat_le, UInt64.toNat_ofNat_of_lt' hlt] at hle
    exact ⟨rfl, hle, UInt64.toUInt8_ofNat' ..⟩
  · rintro ⟨rfl, hle, rfl⟩
    have hlt : number t.text < 2 ^ 64 := by omega
    refine ⟨[], [], _, rfl, ⟨rfl, hlt, rfl⟩, rfl, ?_, (UInt64.toUInt8_ofNat' ..).symm⟩
    rw [UInt64.le_iff_toNat_le, UInt64.toNat_ofNat_of_lt' hlt]
    exact hle

theorem moreFields_eq_ok {c e : Cursor} {names : List String} :
    moreFields c = .ok names e ↔ ∃ t d, c.next = .ok (some t) d ∧
      (t.kind = .rightBracket ∧ names = [] ∧ d = e ∨
        t.kind = .comma ∧ ∃ f g rest, d.next = .ok (some f) g ∧ f.kind = .name ∧
          moreFields g = .ok rest e ∧ names = f.text :: rest) := by
  rw [moreFields]
  split
  · rename_i hreq
    constructor
    · intro h
      cases h
    · rintro ⟨t, d, hnext, _⟩
      cases hreq.symm.trans (Cursor.required_eq_ok.2 hnext)
  · rename_i t d hreq
    have hnext := Cursor.required_eq_ok.1 hreq
    simp only [hnext, EStateM.Result.ok.injEq, Option.some.injEq]
    split
    · rename_i hkind
      constructor
      · rintro ⟨⟩
        exact ⟨t, _, ⟨rfl, rfl⟩, .inl ⟨hkind, rfl, rfl⟩⟩
      · rintro ⟨_, _, ⟨rfl, rfl⟩, ⟨_, rfl, rfl⟩ | ⟨hcomma, _⟩⟩
        · rfl
        · cases hkind.symm.trans hcomma
    · rename_i hkind
      split
      · rename_i hexp
        constructor
        · intro h
          cases h
        · rintro ⟨_, _, ⟨rfl, rfl⟩, ⟨hbracket, _⟩ | ⟨_, f, g, _, hf, hname, _⟩⟩
          · cases hkind.symm.trans hbracket
          · cases hexp.symm.trans (Cursor.expect_eq_ok.2 ⟨hf, hname⟩)
      · rename_i f g hexp
        obtain ⟨hf, hname⟩ := Cursor.expect_eq_ok.1 hexp
        constructor
        · intro h
          split at h <;> cases h
          rename_i hrest
          exact ⟨t, d, ⟨rfl, rfl⟩, .inr ⟨hkind, f, g, _, hf, hname, hrest, rfl⟩⟩
        · rintro ⟨_, _, ⟨rfl, rfl⟩, ⟨hbracket, _⟩ | ⟨_, _, _, rest, hf', _, hrest, rfl⟩⟩
          · cases hkind.symm.trans hbracket
          · cases hf.symm.trans hf'
            simp [hrest]
    · rename_i hbracket hcomma
      constructor
      · intro h
        cases h
      · rintro ⟨_, _, ⟨rfl, rfl⟩, ⟨h, _⟩ | ⟨h, _⟩⟩
        · exact absurd h hbracket
        · exact absurd h hcomma

theorem accepts_moreFields :
    Accepts moreFields fun ls names => ∃ ms, ls = ms ++ [.rightBracket] ∧ IsFields ms names := by
  intro c names e
  rw [moreFields_eq_ok]
  induction names generalizing c with
  | nil =>
    constructor
    · rintro ⟨t, d, hnext, ⟨hkind, _, rfl⟩ | ⟨_, _, _, _, _, _, _, ⟨⟩⟩⟩
      have ht : t.toLexeme = .rightBracket :=
        Lexeme.Spelled.eq_mark (Cursor.spells_of_next hnext) hkind
      exact ⟨[t], Cursor.reads_singleton.2 hnext, [], by simp [ht], .nil⟩
    · rintro ⟨ts, hts, _, hsplit, ⟨⟩⟩
      obtain ⟨t, rfl, ht⟩ := List.map_eq_singleton_iff.1 hsplit
      refine ⟨t, e, Cursor.reads_singleton.1 hts, .inl ⟨?_, rfl, rfl⟩⟩
      rw [ht]
      rfl
  | cons name names ih =>
    constructor
    · rintro ⟨t, d, hnext, ⟨_, ⟨⟩, _⟩ | ⟨hkind, f, g, _, hf, hname, hrest, ⟨⟩⟩⟩
      obtain ⟨ts, hts, ms, hms, hfields⟩ := (ih g).1 (moreFields_eq_ok.1 hrest)
      have ht : t.toLexeme = .comma := Lexeme.Spelled.eq_mark (Cursor.spells_of_next hnext) hkind
      have hl : f.toLexeme = .name f.text := by rw [Lexeme.name, ← hname]
      exact ⟨t :: f :: ts, .cons hnext (.cons hf hts), _ :: _ :: ms,
        congrArg₂ List.cons ht (congrArg₂ List.cons hl hms), .cons hfields⟩
    · rintro ⟨ts, hts, _, hsplit, hfields⟩
      cases hfields with
      | cons hfields =>
        obtain ⟨t, us, rfl, ht, hus⟩ := List.map_eq_cons_iff.1 hsplit
        obtain ⟨f, vs, rfl, hf, hvs⟩ := List.map_eq_cons_iff.1 hus
        obtain _ | ⟨hnext, _ | ⟨hnextf, hrest⟩⟩ := hts
        have hkind : t.kind = .comma := by rw [ht]; rfl
        have hname : f.kind = .name := by rw [hf]; rfl
        have htext : f.text = name := by rw [hf]; rfl
        refine ⟨t, _, hnext, .inr ⟨hkind, f, _, names, hnextf, hname, ?_, by rw [htext]⟩⟩
        exact moreFields_eq_ok.2 ((ih _).2 ⟨vs, hrest, _, hvs, hfields⟩)

theorem accepts_bound :
    Accepts bound fun ls n => ∃ s, ls = [.integer s] ∧ number s < 2 ^ 63 ∧ n = .ofNat (number s) :=
  accepts_checked fun _ => accepts_ite (by norm_num [number]) _ _

theorem accepts_constant {k : Kind} {p : Plan} (h : ∀ ls q, IsArguments k ls q ↔ ls = [] ∧ q = p) :
    Accepts (do noParameters; return p) (IsCall k) := by
  refine (accepts_noParameters.bind fun _ => accepts_pure p).congr fun ls q _ => ?_
  constructor
  · rintro ⟨_, _, _, rfl, rfl, rfl, rfl⟩
    exact .mk ((h [] q).2 ⟨rfl, rfl⟩)
  · rintro ⟨harguments⟩
    obtain ⟨rfl, rfl⟩ := (h _ _).1 harguments
    exact ⟨_, [], (), rfl, rfl, rfl, rfl⟩

theorem accepts_ofInterval {k : Kind} {f : Interval → Plan}
    (h : ∀ ls q, IsArguments k ls q ↔ ∃ i, IsInterval ls i ∧ q = f i) :
    Accepts (f <$> intervalParameters) (IsCall k) := by
  refine (accepts_intervalParameters.map f).congr fun ls q _ => ?_
  constructor
  · rintro ⟨i, ⟨ms, rfl, hi⟩, rfl⟩
    exact .mk ((h _ _).2 ⟨i, hi, rfl⟩)
  · rintro ⟨harguments⟩
    obtain ⟨i, hi, rfl⟩ := (h _ _).1 harguments
    exact ⟨i, ⟨_, rfl, hi⟩, rfl⟩

theorem accepts_percentileParameters : Accepts percentileParameters (IsCall .percentile) := by
  refine (accepts_mark .leftBracket (accepts_percent.bind fun p => accepts_mark .comma
    (accepts_interval.bind fun i =>
      accepts_mark .rightBracket (accepts_pure (Plan.percentile p i))))).congr
      fun ls q _ => ?_
  constructor
  · rintro ⟨_, rfl, _, _, _, rfl, ⟨s, rfl, hs, rfl⟩, _, rfl, ms, _, i, rfl, hi, _, rfl, rfl, rfl⟩
    exact .mk (.percentile hs hi)
  · rintro ⟨harguments⟩
    cases harguments with
    | percentile hs hi =>
      exact ⟨_, rfl, [_], _, _, rfl, ⟨_, rfl, hs, rfl⟩, _, rfl, _, _, _, rfl, hi, _, rfl, rfl, rfl⟩

theorem accepts_correlParameters : Accepts correlParameters (IsCall .correl) := by
  refine (accepts_mark .leftBracket (accepts_mark .dollar (accepts_expect
    (M := fun s ls q => ∃ rest, ls = .rightBracket :: rest ∧ rest = [] ∧ q = Plan.correl s)
    fun t => accepts_mark .rightBracket (accepts_pure (Plan.correl t.text))))).congr
      fun ls q _ => ?_
  constructor
  · rintro ⟨_, rfl, _, rfl, s, _, rfl, _, rfl, rfl, rfl⟩
    exact .mk .correl
  · rintro ⟨harguments⟩
    cases harguments with
    | correl => exact ⟨_, rfl, _, rfl, _, _, rfl, _, rfl, rfl, rfl⟩

theorem accepts_path :
    Accepts extractParameters fun ls path => ∃ s ms names,
      ls = .leftBracket :: .name s :: (ms ++ [.rightBracket]) ∧ IsFields ms names ∧
      path = s :: names := by
  refine (accepts_mark .leftBracket (accepts_expect
    (M := fun s ls path => ∃ ks ms names, ls = ks ++ ms ∧
      (∃ fs, ks = fs ++ [.rightBracket] ∧ IsFields fs names) ∧ ms = [] ∧ path = s :: names)
    fun t => accepts_moreFields.bind fun names => accepts_pure (t.text :: names))).congr
      fun ls path _ => ?_
  constructor
  · rintro ⟨_, rfl, s, _, rfl, _, _, names, rfl, ⟨fs, rfl, hfs⟩, rfl, rfl⟩
    rw [List.append_nil]
    exact ⟨s, fs, names, rfl, hfs, rfl⟩
  · rintro ⟨s, fs, names, rfl, hfs, rfl⟩
    exact ⟨_, rfl, _, _, rfl, _, [], _, (List.append_nil _).symm, ⟨_, rfl, hfs⟩, rfl, rfl⟩

theorem accepts_extractParameters (target : Target) :
    Accepts (Plan.extract target <$> extractParameters) (IsCall (.extract target)) := by
  refine (accepts_path.map _).congr fun ls q _ => ?_
  constructor
  · rintro ⟨_, ⟨s, fs, names, rfl, hfs, rfl⟩, rfl⟩
    exact .mk (.extract hfs)
  · rintro ⟨harguments⟩
    cases harguments with
    | extract hfs => exact ⟨_, ⟨_, _, _, rfl, hfs, rfl⟩, rfl⟩

theorem accepts_rangeParameters :
    Accepts rangeParameters fun ls b => ∃ s t, number s < 2 ^ 63 ∧ number t < 2 ^ 63 ∧
      ls = [.leftBracket, .integer s, .comma, .integer t, .rightBracket] ∧
        b = ⟨.ofNat (number s), .ofNat (number t)⟩ := by
  refine (accepts_mark .leftBracket (accepts_bound.bind fun lower => accepts_mark .comma
    (accepts_bound.bind fun upper => accepts_mark .rightBracket
      (accepts_pure (Bounds.mk lower upper))))).congr fun ls b _ => ?_
  constructor
  · rintro ⟨_, rfl, _, _, _, rfl, ⟨s, rfl, hs, rfl⟩, _, rfl, _, _, _, rfl, ⟨t, rfl, ht, rfl⟩, _,
      rfl, rfl, rfl⟩
    exact ⟨s, t, hs, ht, rfl, rfl⟩
  · rintro ⟨s, t, hs, ht, rfl, rfl⟩
    exact ⟨_, rfl, [_], _, _, rfl, ⟨s, rfl, hs, rfl⟩, _, rfl, [_], _, _, rfl, ⟨t, rfl, ht, rfl⟩, _,
      rfl, rfl, rfl⟩

theorem toInt_ofNat_number {s : String} (h : number s < 2 ^ 63) :
    (Int64.ofNat (number s)).toInt = number s :=
  Int64.toInt_ofNat_of_lt h

theorem accepts_parameters (k : Kind) : Accepts (parameters k) (IsCall k) := by
  cases k with
  | max | min | flag | gaugeFp | gaugeInt =>
    refine accepts_constant fun ls q => ⟨?_, ?_⟩
    · rintro ⟨⟩
      exact ⟨rfl, rfl⟩
    · rintro ⟨rfl, rfl⟩
      constructor
  | sum =>
    refine accepts_ofInterval fun ls q => ⟨?_, ?_⟩
    · rintro ⟨⟩
      exact ⟨_, by assumption, rfl⟩
    · rintro ⟨i, hi, rfl⟩
      exact .sum hi
  | avg =>
    refine accepts_ofInterval fun ls q => ⟨?_, ?_⟩
    · rintro ⟨⟩
      exact ⟨_, by assumption, rfl⟩
    · rintro ⟨i, hi, rfl⟩
      exact .avg hi
  | percentile => exact accepts_percentileParameters
  | correl => exact accepts_correlParameters
  | extract target => exact accepts_extractParameters target
  | rangedGaugeFp =>
    refine (accepts_rangeParameters.bind fun b => accepts_pure _).congr fun ls q _ => ?_
    constructor
    · rintro ⟨_, _, _, rfl, ⟨s, t, hs, ht, rfl, rfl⟩, rfl, rfl⟩
      simp only [toInt_ofNat_number, hs, ht]
      exact .mk (.rangedGaugeFp hs ht)
    · rintro ⟨harguments⟩
      cases harguments with
      | rangedGaugeFp hs ht =>
        refine ⟨_, [], _, (List.append_nil _).symm, ⟨_, _, hs, ht, rfl, rfl⟩, rfl, ?_⟩
        simp only [toInt_ofNat_number, hs, ht]
        rfl
  | rangedGaugeInt =>
    refine (accepts_rangeParameters.bind fun b => accepts_pure _).congr fun ls q _ => ?_
    constructor
    · rintro ⟨_, _, _, rfl, ⟨s, t, hs, ht, rfl, rfl⟩, rfl, rfl⟩
      exact .mk (.rangedGaugeInt hs ht)
    · rintro ⟨harguments⟩
      cases harguments with
      | rangedGaugeInt hs ht =>
        exact ⟨_, [], _, (List.append_nil _).symm, ⟨_, _, hs, ht, rfl, rfl⟩, rfl, rfl⟩

theorem accepts_named (r : Registry) (t : Token) :
    Accepts
      (match r.find? t.text with
        | some k => Expression.plan <$> parameters k
        | none => throw (.unknownFunction t.text t.position))
      fun ls e => ∃ k p, r.find? t.text = some k ∧ IsCall k ls p ∧ e = .plan p := by
  split
  · rename_i k hk
    refine ((accepts_parameters k).map _).congr fun ls e _ => ?_
    simp [hk]
  · rename_i hk
    refine (accepts_throw _).congr fun ls e _ => ?_
    simp [hk]

theorem accepts_expression (r : Registry) : Accepts (expression r) (IsExpression r) := by
  refine (accepts_required (k := .name) (M := fun l ls e =>
    l.kind = .name ∧ (∃ k p, r.find? l.text = some k ∧ IsCall k ls p ∧ e = .plan p) ∨
      l.kind = .integer ∧ (∃ n, (ls = [] ∧ number l.text < 2 ^ 64 ∧ n = .ofNat (number l.text)) ∧
      e = .integer n) ∨
        l.kind = .dollar ∧ ∃ s rest, ls = .name s :: rest ∧ rest = [] ∧
        e = .operand s) fun t => ?_).congr
    fun ls e hls => ?_
  · split
    · rename_i hkind
      exact (accepts_named r t).congr fun ls e _ => by simp [hkind]
    · rename_i hkind
      exact ((accepts_integerOf t).map _).congr fun ls e _ => by simp [hkind]
    · rename_i hkind
      exact (accepts_expect (M := fun s ls e => ls = [] ∧ e = Expression.operand s)
        fun t => accepts_pure (Expression.operand t.text)).congr fun ls e _ =>
          by simp [hkind, Lexeme.name]
    · rename_i hname hinteger hdollar
      refine (accepts_throw _).congr fun ls e _ => ?_
      simp only [false_iff, not_or, not_and]
      exact ⟨fun h => absurd h hname, fun h => absurd h hinteger, fun h => absurd h hdollar⟩
  · constructor
    · rintro ⟨l, _, rfl, ⟨hkind, k, p, hk, hp, rfl⟩ | ⟨hkind, _, ⟨rfl, hn, rfl⟩, rfl⟩ |
        ⟨hkind, s, _, rfl, rfl, rfl⟩⟩
      · obtain ⟨_, _⟩ := l
        subst hkind
        exact .plan hk hp
      · obtain ⟨_, _⟩ := l
        subst hkind
        exact .integer hn
      · rw [(hls l List.mem_cons_self).eq_mark (m := .dollar) hkind]
        exact .operand
    · intro h
      cases h with
      | plan hk hp => exact ⟨_, _, rfl, .inl ⟨rfl, _, _, hk, hp, rfl⟩⟩
      | integer hn => exact ⟨_, _, rfl, .inr (.inl ⟨rfl, _, ⟨rfl, hn, rfl⟩, rfl⟩)⟩
      | operand => exact ⟨_, _, rfl, .inr (.inr ⟨rfl, _, _, rfl, rfl, rfl⟩)⟩

theorem next_eq_ok {c d : Cursor} {t? : Option Token} : next c = .ok t? d ↔ c.next = .ok t? d :=
  ofScan_eq_ok

theorem formula_eq_ok {r : Registry} {c e : Cursor} {p : Plan} :
    formula r c = .ok p e ↔ ∃ ts d, c.Reads ts d ∧
      IsExpression r (ts.map Token.toLexeme) (.plan p) ∧ d.next = .ok none e := by
  rw [formula, bind_eq_ok]
  constructor
  · rintro ⟨x, d, hx, hend⟩
    obtain ⟨ts, hts, hexpression⟩ := (accepts_expression r c x d).1 hx
    cases x with
    | plan q =>
      obtain ⟨t?, f, hnext, hlast⟩ := bind_eq_ok.1 hend
      cases t? with
      | none =>
        cases hlast
        exact ⟨ts, d, hts, hexpression, next_eq_ok.1 hnext⟩
      | some t => cases hlast
    | integer | operand => cases hend
  · rintro ⟨ts, d, hts, hexpression, hnext⟩
    refine ⟨_, d, (accepts_expression r c _ d).2 ⟨ts, hts, hexpression⟩, ?_⟩
    exact bind_eq_ok.2 ⟨none, e, next_eq_ok.2 hnext, rfl⟩

theorem isExpression_builtin {ls : List Lexeme} {p : Plan} :
    IsExpression .builtin ls (.plan p) ↔ IsFormula ls p := by
  constructor
  · intro h
    cases h with
    | plan hk hp =>
      cases Registry.find?_builtin.1 hk
      exact .mk hp
  · rintro ⟨hp⟩
    exact .plan (Registry.find?_builtin.2 rfl) hp

end Parse

namespace Plan

open Grammar

theorem spelled_kindName (k : Kind) : (Lexeme.name k.name).Spelled := by
  cases k with
  | extract t => cases t <;> exact .name (by decide) (List.all_eq_true.1 (by decide))
  | _ => exact .name (by decide) (List.all_eq_true.1 (by decide))

theorem parse_eq_ok {text : String} {p : Plan} :
    parse text = .ok p ↔ ∃ e, Parse.formula .builtin (Cursor.start text) = .ok p e := by
  unfold parse
  cases Parse.formula .builtin (Cursor.start text) <;> simp

theorem exists_tokens_of_parse {text : String} {p : Plan} (h : parse text = .ok p) :
    ∃ ts, (Cursor.start text).tokens = (ts, none) ∧ IsFormula (ts.map Token.toLexeme) p := by
  obtain ⟨e, he⟩ := parse_eq_ok.1 h
  obtain ⟨ts, d, hts, hexpression, hnext⟩ := Parse.formula_eq_ok.1 he
  exact ⟨ts, Cursor.tokens_eq_iff.2 ⟨d, e, hts, hnext⟩, Parse.isExpression_builtin.1 hexpression⟩

theorem parse_of_tokens {text : String} {ts : List Token} {p : Plan}
    (h : (Cursor.start text).tokens = (ts, none))
    (hp : IsFormula (ts.map Token.toLexeme) p) : parse text = .ok p := by
  obtain ⟨d, e, hts, hnext⟩ := Cursor.tokens_eq_iff.1 h
  exact parse_eq_ok.2
    ⟨e, Parse.formula_eq_ok.2 ⟨ts, d, hts, Parse.isExpression_builtin.2 hp, hnext⟩⟩

/-- Exactly the texts of formulas are accepted, and each with the one plan that its derivation
denotes. -/
theorem parse_eq_ok_iff (text : String) (p : Plan) :
    parse text = .ok p ↔ ∃ ts, (Cursor.start text).tokens = (ts, none) ∧
      IsFormula (ts.map Token.toLexeme) p ∧ ∀ q, IsFormula (ts.map Token.toLexeme) q → q = p := by
  constructor
  · intro h
    obtain ⟨ts, hts, hp⟩ := exists_tokens_of_parse h
    refine ⟨ts, hts, hp, fun q hq => ?_⟩
    have hok := h.symm.trans (parse_of_tokens hts hq)
    exact (Except.ok.inj hok).symm
  · rintro ⟨ts, hts, hp, _⟩
    exact parse_of_tokens hts hp

end Plan

end Rollup
