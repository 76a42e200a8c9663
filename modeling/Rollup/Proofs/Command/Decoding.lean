import Mathlib
import Rollup.Command.Clock

namespace Rollup

namespace Keyed

end Keyed

namespace Bindings

def overriddenBy (b own : Bindings) : Bindings := Keyed.insertAll b own.toList

end Bindings

namespace Run

theorem mapError_eq_error {x : Except ε α} {f : ε → δ} {e : δ} (h : x.mapError f = .error e) :
    ∃ d, x = .error d ∧ e = f d := by
  cases x with
  | ok _ => cases h
  | error d => cases h; exact ⟨d, rfl, rfl⟩

theorem bind_eq_error {x : Except ε α} {f : α → Except ε β} {e : ε} (h : x >>= f = .error e) :
    x = .error e ∨ ∃ a, x = .ok a ∧ f a = .error e := by
  cases x with
  | ok a => exact .inr ⟨a, rfl, h⟩
  | error d => cases h; exact .inl rfl

theorem map_eq_error {x : Except ε α} {f : α → β} {e : ε} (h : f <$> x = .error e) :
    x = .error e := by
  cases x with
  | ok _ => cases h
  | error _ => cases h; rfl

/-- A binding text is cut at its first `=`: in front of it is the name, between blanks, and behind
it the value. -/
inductive IsBinding (text : String) : Except CommandError (String × Value) → Prop
  | bound : text.toList = raw ++ '=' :: json → '=' ∉ raw → Unicode.trim raw ≠ [] →
      IsBinding text ((String.ofList (Unicode.trim raw), ·) <$> readValue (String.ofList json))
  | unnamed : text.toList = raw ++ '=' :: json → '=' ∉ raw → Unicode.trim raw = [] →
      IsBinding text (.error (.badBinding text))
  | uncut : '=' ∉ text.toList → IsBinding text (.error (.badBinding text))

theorem takeWhile_cut {raw : List Char} (h : '=' ∉ raw) (json : List Char) :
    (raw ++ '=' :: json).takeWhile (· != '=') = raw ∧
      (raw ++ '=' :: json).dropWhile (· != '=') = '=' :: json := by
  have hraw : ∀ c ∈ raw, (c != '=') = true := by
    intro c hc
    rw [bne_iff_ne]
    rintro rfl
    exact h hc
  rw [List.takeWhile_append_of_pos hraw, List.dropWhile_append_of_pos hraw]
  simp

theorem binding_of_cut {text : String} {raw json : List Char}
    (htext : text.toList = raw ++ '=' :: json) (hraw : '=' ∉ raw) :
    binding text = match Unicode.trim raw with
      | [] => .error (.badBinding text)
      | c :: cs => (String.ofList (c :: cs), ·) <$> readValue (String.ofList json) := by
  obtain ⟨htake, hdrop⟩ := takeWhile_cut hraw json
  simp only [binding, htext, htake, hdrop]
  cases Unicode.trim raw <;> rfl

theorem binding_of_isBinding {text : String} {r : Except CommandError (String × Value)}
    (h : IsBinding text r) :
    binding text = r := by
  cases h with
  | bound htext hraw hname =>
    obtain ⟨c, cs, hcons⟩ := List.exists_cons_of_ne_nil hname
    rw [binding_of_cut htext hraw, hcons]
  | unnamed htext hraw hname => rw [binding_of_cut htext hraw, hname]
  | uncut htext =>
    have hdrop : text.toList.dropWhile (· != '=') = [] := by
      rw [List.dropWhile_eq_nil_iff]
      intro c hc
      rw [bne_iff_ne]
      rintro rfl
      exact htext hc
    simp only [binding, hdrop]
    cases Unicode.trim _ <;> rfl

theorem exists_isBinding (text : String) : ∃ r, IsBinding text r := by
  by_cases htext : '=' ∈ text.toList
  · obtain ⟨raw, json, hcut, hraw⟩ := List.eq_append_cons_of_mem htext
    by_cases hname : Unicode.trim raw = []
    · exact ⟨_, .unnamed hcut hraw hname⟩
    · exact ⟨_, .bound hcut hraw hname⟩
  · exact ⟨_, .uncut htext⟩

theorem isBinding_iff {text : String} {r : Except CommandError (String × Value)} :
    IsBinding text r ↔ binding text = r := by
  constructor
  · exact binding_of_isBinding
  · intro h
    obtain ⟨r', hr'⟩ := exists_isBinding text
    rw [← h, binding_of_isBinding hr']
    exact hr'

theorem bindAll_eq_error {b : Bindings} {texts : List String} {e : CommandError} :
    bindAll b texts = .error e ↔
      ∃ before text after, texts = before ++ text :: after ∧
        (∃ pairs, List.Forall₂ (fun text p => IsBinding text (.ok p)) before pairs) ∧
        IsBinding text (.error e) := by
  induction texts generalizing b with
  | nil => simp [bindAll]
  | cons text texts ih =>
    simp only [bindAll]
    cases hbinding : binding text with
    | error d =>
      constructor
      · intro h
        cases h
        exact ⟨[], text, texts, rfl, ⟨[], .nil⟩, isBinding_iff.2 hbinding⟩
      · rintro ⟨before, bad, after, htexts, ⟨pairs, hpairs⟩, hbad⟩
        cases before with
        | nil =>
          cases htexts
          cases hbinding.symm.trans (isBinding_iff.1 hbad)
          rfl
        | cons good before =>
          cases htexts
          cases hpairs with
          | cons hgood _ => cases hbinding.symm.trans (isBinding_iff.1 hgood)
    | ok p =>
      obtain ⟨name, v⟩ := p
      simp only [ih]
      constructor
      · rintro ⟨before, bad, after, rfl, ⟨pairs, hpairs⟩, hbad⟩
        exact ⟨text :: before, bad, after, rfl, ⟨_, .cons (isBinding_iff.2 hbinding) hpairs⟩, hbad⟩
      · rintro ⟨before, bad, after, htexts, ⟨pairs, hpairs⟩, hbad⟩
        cases before with
        | nil =>
          cases htexts
          cases hbinding.symm.trans (isBinding_iff.1 hbad)
        | cons good before =>
          cases htexts
          cases hpairs with
          | cons _ hpairs => exact ⟨before, bad, after, rfl, ⟨_, hpairs⟩, hbad⟩

def sampleOf (members : Keyed Json) : Except ConversionError Value :=
  Value.ofJson ((Keyed.From.find? "sample" members).getD .null)

inductive IsEnvelope : Json → Except ConversionError (Value × Bindings) → Prop
  | notObject : (∀ members, j ≠ .object members) → IsEnvelope j (.error .notEnvelope)
  | bare : Keyed.From.find? "operands" members = none →
      IsEnvelope (.object members) ((·, .empty) <$> sampleOf members)
  | operands : Keyed.From.find? "operands" members = some (.object operands) →
      Value.fieldsOfJson operands = .ok own →
      IsEnvelope (.object members) ((·, own) <$> sampleOf members)
  | badOperand : Keyed.From.find? "operands" members = some (.object operands) →
      Value.fieldsOfJson operands = .error e → IsEnvelope (.object members) (.error e)
  | notOperands : Keyed.From.find? "operands" members = some j →
      (∀ operands, j ≠ .object operands) → IsEnvelope (.object members) (.error .operandsNotObject)

/-- A line holds the JSON text of a sample, or of an envelope whose own operands override the
bindings. -/
inductive Decodes : Bool → Bindings → List Char → Except CommandError (Value × Bindings) → Prop
  | unreadable : Json.parse? (String.ofList line) = none → Decodes w b line (.error .json)
  | sample : Json.parse? (String.ofList line) = some j →
      Decodes false b line ((·, b) <$> (Value.ofJson j).mapError .conversion)
  | envelope : Json.parse? (String.ofList line) = some j → IsEnvelope j x →
      Decodes true b line ((fun s => (s.1, b.overriddenBy s.2)) <$> x.mapError .conversion)

theorem bindMembers_eq (b : Bindings) (operands : Keyed.From Json lo) :
    bindMembers b operands = (fun own => Keyed.insertAll b own.toList) <$>
      Value.fieldsOfJson operands := by
  induction operands generalizing b with
  | nil => rfl
  | cons name above j rest ih =>
    simp only [bindMembers, Value.fieldsOfJson]
    cases Value.ofJson j with
    | error e => rfl
    | ok v =>
      simp only [ih]
      cases Value.fieldsOfJson rest <;> rfl

theorem openEnvelope_of_isEnvelope {j : Json} {x : Except ConversionError (Value × Bindings)}
    (h : IsEnvelope j x) (b : Bindings) :
    (openEnvelope b j >>= fun s => (·, s.2) <$> Value.ofJson s.1) =
      (fun s => (s.1, b.overriddenBy s.2)) <$> x := by
  cases h with
  | notObject hj =>
    cases j with
    | object members => exact absurd rfl (hj members)
    | _ => rfl
  | @bare members hnone =>
    simp only [openEnvelope, hnone]
    change (·, b) <$> sampleOf members = _
    cases sampleOf members <;> rfl
  | @operands members _ own hsome hown =>
    simp only [openEnvelope, hsome, bindMembers_eq, hown]
    change (·, b.overriddenBy own) <$> sampleOf members = _
    cases sampleOf members <;> rfl
  | badOperand hsome hown =>
    simp only [openEnvelope, hsome, bindMembers_eq, hown]
    rfl
  | @notOperands _ j hsome hj =>
    simp only [openEnvelope, hsome]
    cases j with
    | object operands => exact absurd rfl (hj operands)
    | _ => rfl

theorem exists_isEnvelope (j : Json) : ∃ x, IsEnvelope j x := by
  cases j with
  | object members =>
    cases hfind : Keyed.From.find? "operands" members with
    | none => exact ⟨_, .bare hfind⟩
    | some j =>
      cases j with
      | object operands =>
        cases hown : Value.fieldsOfJson operands with
        | error e => exact ⟨_, .badOperand hfind hown⟩
        | ok own => exact ⟨_, .operands hfind hown⟩
      | _ => exact ⟨_, .notOperands hfind (by simp)⟩
  | _ => exact ⟨_, .notObject (by simp)⟩

theorem decode_sample {b : Bindings} {line : List Char} {j : Json}
    (hparse : Json.parse? (String.ofList line) = some j) :
    decode false b line = (·, b) <$> (Value.ofJson j).mapError .conversion := by
  rw [decode, hparse]
  change ((Value.ofJson j).mapError _ >>= fun v => pure (v, b)) = _
  cases Value.ofJson j <;> rfl

theorem decode_envelope {b : Bindings} {line : List Char} {j : Json}
    (hparse : Json.parse? (String.ofList line) = some j) :
    decode true b line =
      (openEnvelope b j >>= fun s => (·, s.2) <$> Value.ofJson s.1).mapError .conversion := by
  rw [decode, hparse]
  change ((openEnvelope b j).mapError _ >>= fun s => (Value.ofJson s.1).mapError _ >>= fun v =>
    pure (v, s.2)) = _
  cases openEnvelope b j with
  | error e => rfl
  | ok s =>
    change ((Value.ofJson s.1).mapError _ >>= fun v => pure (v, s.2)) =
      ((·, s.2) <$> Value.ofJson s.1).mapError _
    cases Value.ofJson s.1 <;> rfl

theorem decode_of_decodes {w : Bool} {b : Bindings} {line : List Char}
    {r : Except CommandError (Value × Bindings)}
    (h : Decodes w b line r) : decode w b line = r := by
  cases h with
  | unreadable hparse =>
    rw [decode, hparse]
    rfl
  | sample hparse => exact decode_sample hparse
  | @envelope _ j x _ hparse henvelope =>
    rw [decode_envelope hparse, openEnvelope_of_isEnvelope henvelope b]
    cases x <;> rfl

theorem exists_decodes (w : Bool) (b : Bindings) (line : List Char) : ∃ r, Decodes w b line r := by
  cases hparse : Json.parse? (String.ofList line) with
  | none => exact ⟨_, .unreadable hparse⟩
  | some j =>
    cases w with
    | false => exact ⟨_, .sample hparse⟩
    | true =>
      obtain ⟨x, hx⟩ := exists_isEnvelope j
      exact ⟨_, .envelope hparse hx⟩

theorem decodes_iff {w : Bool} {b : Bindings} {line : List Char}
    {r : Except CommandError (Value × Bindings)} :
    Decodes w b line r ↔ decode w b line = r := by
  constructor
  · exact decode_of_decodes
  · intro h
    obtain ⟨r', hr'⟩ := exists_decodes w b line
    rw [← h, decode_of_decodes hr']
    exact hr'

inductive OfInput : CommandError → Prop
  | json : OfInput .json
  | conversion : OfInput (.conversion e)
  | badBinding : OfInput (.badBinding text)

theorem ofInput_of_readValue {text : String} {e : CommandError} (h : readValue text = .error e) :
    OfInput e := by
  unfold readValue at h
  split at h
  · cases h
    exact .json
  · obtain ⟨_, -, rfl⟩ := mapError_eq_error h
    exact .conversion

theorem ofInput_of_isBinding {text : String} {e : CommandError} (h : IsBinding text (.error e)) :
    OfInput e := by
  generalize hr : (Except.error e : Except CommandError (String × Value)) = r at h
  cases h with
  | bound => exact ofInput_of_readValue (map_eq_error hr.symm)
  | unnamed | uncut =>
    cases hr
    exact .badBinding

theorem ofInput_of_decodes {w : Bool} {b : Bindings} {line : List Char} {e : CommandError}
    (h : Decodes w b line (.error e)) : OfInput e := by
  generalize hr : (Except.error e : Except CommandError (Value × Bindings)) = r at h
  cases h with
  | unreadable =>
    cases hr
    exact .json
  | sample | envelope =>
    obtain ⟨_, -, rfl⟩ := mapError_eq_error (map_eq_error hr.symm)
    exact .conversion

theorem ofInput_of_bindAll {b : Bindings} {texts : List String} {e : CommandError}
    (h : bindAll b texts = .error e) :
    OfInput e := by
  obtain ⟨_, _, _, -, -, hbad⟩ := bindAll_eq_error.1 h
  exact ofInput_of_isBinding hbad

end Run

end Rollup
