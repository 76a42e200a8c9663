import Rollup.Proofs.Machine.Extraction
import Rollup.Proofs.Number.Reading

namespace Rollup

namespace Value

/-- The number that a value other than a decimal denotes. -/
inductive Denotes : Value → ℚ → Prop
  | bool : Denotes (.bool b) (if b then 1 else 0 : Int)
  | byte : Denotes (.byte n) n.toInt
  | short : Denotes (.short n) n.toInt
  | int : Denotes (.int n) n.toInt
  | long : Denotes (.long n) n.toInt
  | bigint : Denotes (.bigint n) n
  | float : x.isFinite = true → Denotes (.float x) (Double.singleValue x)
  | double : x.isFinite = true → Denotes (.double x) (Double.value x)
  | string : s.toList = before ++ numeral ++ after → (∀ c ∈ before, Unicode.isBlank c = true) →
      (∀ c ∈ after, Unicode.isBlank c = true) → Reading.IsNumeral numeral n →
      Denotes (.string s) (n : Int)

theorem int32?_eq_some {z : Int} {n : Int32} : int32? z = some n ↔ z = n.toInt := by
  unfold int32?
  split
  · rename_i h
    rw [Option.some_inj, ← Int32.toInt_inj, Int32.toInt_ofInt_of_le h.1 h.2]
  · rename_i h
    exact ⟨nofun, fun heq => absurd ⟨heq ▸ n.le_toInt, heq ▸ n.toInt_lt⟩ h⟩

def truncated? : Value → Option Int
  | bool b => some (if b then 1 else 0)
  | string s => Reading.int? (Unicode.trim s.toList)
  | float x => Double.truncate? (Double.ofSingle x)
  | double x => Double.truncate? x
  | bigdecimal d => Double.truncate? d.toDouble
  | v => v.integer?

theorem readInt?_eq (v : Value) : v.readInt? = v.truncated?.bind int32? := by
  cases v with
  | bool b => cases b <;> rfl
  | _ => rfl

theorem truncated?_eq_some {v : Value} (hdecimal : ∀ d, v ≠ .bigdecimal d) {z : Int} :
    v.truncated? = some z ↔ ∃ q, v.Denotes q ∧ z = towardZero q := by
  -- Integers are their own integral parts.
  have hint {n : Int} : some n = some z ↔ z = towardZero n := by
    rw [towardZero_intCast, Option.some_inj, eq_comm]
  cases v with
  | bigdecimal d => exact absurd rfl (hdecimal d)
  | bool b => exact ⟨fun h => ⟨_, .bool, hint.1 h⟩, fun ⟨_, .bool, h⟩ => hint.2 h⟩
  | byte n => exact ⟨fun h => ⟨_, .byte, hint.1 h⟩, fun ⟨_, .byte, h⟩ => hint.2 h⟩
  | short n => exact ⟨fun h => ⟨_, .short, hint.1 h⟩, fun ⟨_, .short, h⟩ => hint.2 h⟩
  | int n => exact ⟨fun h => ⟨_, .int, hint.1 h⟩, fun ⟨_, .int, h⟩ => hint.2 h⟩
  | long n => exact ⟨fun h => ⟨_, .long, hint.1 h⟩, fun ⟨_, .long, h⟩ => hint.2 h⟩
  | bigint n => exact ⟨fun h => ⟨_, .bigint, hint.1 h⟩, fun ⟨_, .bigint, h⟩ => hint.2 h⟩
  | float x =>
    rw [truncated?, Double.truncate?_ofSingle_eq_some]
    exact ⟨fun ⟨hx, h⟩ => ⟨_, .float hx, h⟩, fun ⟨_, .float hx, h⟩ => ⟨hx, h⟩⟩
  | double x =>
    rw [truncated?, Double.truncate?_eq_some]
    exact ⟨fun ⟨hx, h⟩ => ⟨_, .double hx, h⟩, fun ⟨_, .double hx, h⟩ => ⟨hx, h⟩⟩
  | string s =>
    rw [truncated?, Reading.int?_trim_eq_some]
    constructor
    · rintro ⟨before, numeral, after, hs, hbefore, hafter, h⟩
      exact ⟨z, .string hs hbefore hafter h, (towardZero_intCast z).symm⟩
    · rintro ⟨q, h, rfl⟩
      cases h with
      | string hs hbefore hafter h =>
        rw [towardZero_intCast]
        exact ⟨_, _, _, hs, hbefore, hafter, h⟩
  | null | char | date | record | array | buffer => exact ⟨nofun, fun ⟨_, h, _⟩ => nomatch h⟩

theorem readDouble?_of_truncated? {v : Value} {z : Int} (h : v.truncated? = some z)
    (hz : |z| ≤ 2 ^ 53) :
    ∃ x, v.readDouble? = some x ∧ x.isFinite = true ∧ towardZero (Double.value x) = z := by
  have hint {x : Float} (hread : v.readDouble? = some x) (hx : Double.HasValue x z) :
      ∃ x, v.readDouble? = some x ∧ x.isFinite = true ∧ towardZero (Double.value x) = z :=
    ⟨x, hread, hx.isFinite_of_int hz, hx.towardZero_eq⟩
  cases v with
  | bool b =>
    cases h
    cases b with
    | false => exact hint rfl (by exact_mod_cast Double.hasValue_zero)
    | true => exact hint rfl (by exact_mod_cast Double.hasValue_one)
  | byte | short | int | long | bigint =>
    cases h
    exact hint rfl (Double.hasValue_ofInt hz)
  | float | double | bigdecimal =>
    obtain ⟨hx, rfl⟩ := Double.truncate?_eq_some.1 h
    exact ⟨_, rfl, hx, rfl⟩
  | string s =>
    obtain ⟨x, hread, hx⟩ := Reading.double?_of_isNumeral (Reading.int?_eq_some.1 h) hz
    exact hint hread hx
  | null | char | date | record | array | buffer => cases h

theorem readInt?_eq_some {v : Value} (hdecimal : ∀ d, v ≠ .bigdecimal d) {n : Int32} :
    v.readInt? = some n ↔ ∃ q, v.Denotes q ∧ n.toInt = towardZero q := by
  rw [readInt?_eq, Option.bind_eq_some_iff]
  simp only [int32?_eq_some, exists_eq_right]
  exact truncated?_eq_some hdecimal

theorem readDouble?_of_readInt? {v : Value} {n : Int32} (h : v.readInt? = some n) :
    ∃ x, v.readDouble? = some x ∧ x.isFinite = true ∧ towardZero (Double.value x) = n.toInt := by
  rw [readInt?_eq, Option.bind_eq_some_iff] at h
  obtain ⟨z, hz, hn⟩ := h
  rw [int32?_eq_some] at hn
  obtain rfl := hn
  have hlower := n.le_toInt
  have hupper := n.toInt_lt
  exact readDouble?_of_truncated? hz (abs_le.2 ⟨by omega, by omega⟩)

end Value

theorem exists_toInt_eq {z : Int} : (∃ n : Int32, n.toInt = z) ↔ -2 ^ 31 ≤ z ∧ z ≤ 2 ^ 31 - 1 := by
  constructor
  · rintro ⟨n, rfl⟩
    exact ⟨n.le_toInt, Int.le_sub_one_of_lt n.toInt_lt⟩
  · exact fun ⟨hlower, hupper⟩ =>
      ⟨.ofInt z, Int32.toInt_ofInt_of_le hlower (Int.lt_of_le_sub_one hupper)⟩

theorem Target.read?_of_ne_null (t : Target) {leaf : Value} (hnull : leaf ≠ .null) : t.read? leaf =
    match t with
    | string => some (.string leaf.text)
    | int => leaf.readInt?.map .int
    | double => leaf.readDouble?.map .double := by
  cases leaf with
  | null => exact absurd rfl hnull
  | _ => rfl

namespace Machine

/-- A leaf is read as an integer if it denotes a number whose fraction can be dropped to give one of
32 bits, and then as this one. All others are complained about. And a leaf that is read as an
integer is read as a double of the same integral part. -/
theorem extract_int_of_denotes {path : List String} (hpath : path ≠ []) {sample leaf : Value}
    (hleads : sample.Leads path leaf) (hnull : leaf ≠ .null) (hdecimal : ∀ d, leaf ≠ .bigdecimal d)
    (c : Config) (opened : Nat) (steps : List Step) (r : Resolver) (now : Nat) (rest : List Value) :
    let answer (t : Target) :=
      (((start (.extract t path) c opened).after steps).eval r now (sample :: rest)).1
    (∀ z : Int, (∃ n, answer .int = .ok (.int n) ∧ n.toInt = z) ↔
        -2 ^ 31 ≤ z ∧ z ≤ 2 ^ 31 - 1 ∧ ∃ q, leaf.Denotes q ∧ z = towardZero q) ∧
      (answer .int = .error (.numberFormat leaf.text .int) ↔
        ∀ q, leaf.Denotes q → ¬ (-2 ^ 31 ≤ towardZero q ∧ towardZero q ≤ 2 ^ 31 - 1)) ∧
      ∀ n, answer .int = .ok (.int n) →
        ∃ x, answer .double = .ok (.double x) ∧ x.isFinite = true ∧
        towardZero (Double.value x) = n.toInt := by
  intro answer
  have hanswer (t : Target) : answer t = t.convert leaf := by
    change (((start (.extract t path) c opened).after steps).eval r now (sample :: rest)).1 = _
    rw [after_extract]
    exact extractFrom_of_leads hpath rest hleads
  have hread : Target.int.read? leaf = leaf.readInt?.map .int := Target.read?_of_ne_null .int hnull
  have hread' : Target.double.read? leaf = leaf.readDouble?.map .double :=
    Target.read?_of_ne_null .double hnull
  have hint {n : Int32} : answer .int = .ok (.int n) ↔ leaf.readInt? = some n := by
    rw [hanswer, Target.convert_eq_ok, hread, Option.map_eq_some_iff]
    simp only [Value.int.injEq, exists_eq_right]
  have hok {n : Int32} : answer .int = .ok (.int n) ↔ ∃ q, leaf.Denotes q ∧
      n.toInt = towardZero q :=
    hint.trans (Value.readInt?_eq_some hdecimal)
  have herror : answer .int = .error (.numberFormat leaf.text .int) ↔
      ∀ n, answer .int ≠ .ok (.int n) := by
    simp only [ne_eq, hint]
    rw [hanswer, Target.convert_eq_error, hread, Option.map_eq_none_iff,
      Option.eq_none_iff_forall_ne_some]
  refine ⟨fun z => ?_, ?_, fun n h => ?_⟩
  · rw [← and_assoc, ← exists_toInt_eq]
    constructor
    · rintro ⟨n, h, rfl⟩
      exact ⟨⟨n, rfl⟩, hok.1 h⟩
    · rintro ⟨⟨n, rfl⟩, h⟩
      exact ⟨n, hok.2 h, rfl⟩
  · rw [herror]
    constructor
    · intro h q hq hrange
      obtain ⟨n, hn⟩ := exists_toInt_eq.2 hrange
      exact h n (hok.2 ⟨q, hq, hn⟩)
    · intro h n hn
      obtain ⟨q, hq, heq⟩ := hok.1 hn
      exact h q hq (exists_toInt_eq.1 ⟨n, heq⟩)
  · obtain ⟨x, hdouble, hx⟩ := Value.readDouble?_of_readInt? (hint.1 h)
    refine ⟨x, ?_, hx⟩
    rw [hanswer, Target.convert_eq_ok, hread', hdouble]
    rfl

theorem extract_int_of_denotes_host :
    let answer (v : Value) :=
      ((start (.extract .int ["load"]) {} 0).eval .none 1
        [.record "host" (Keyed.ofList [("load", v)])]).1
    (∃ n, answer (.string "\u00a0+0042 ") = .ok (.int n) ∧ n.toInt = 42) ∧
      ∃ n, answer (.double (.ofBits 0xC1E0000000100000)) = .ok (.int n) ∧ n.toInt = -2 ^ 31 := by
  intro answer
  have hanswer (v : Value) (hnull : v ≠ .null) (hdecimal : ∀ d, v ≠ .bigdecimal d) (z : Int)
      (hlower : -2 ^ 31 ≤ z) (hupper : z ≤ 2 ^ 31 - 1) (h : v.truncated? = some z) :
      ∃ n, answer v = .ok (.int n) ∧ n.toInt = z := by
    have hleads : (Value.record "host" (Keyed.ofList [("load", v)])).Leads ["load"] v :=
      .field rfl .here
    obtain ⟨hexact, -⟩ := extract_int_of_denotes (List.cons_ne_nil "load" []) hleads hnull
      hdecimal {} 0 [] .none 1 []
    exact (hexact z).2 ⟨hlower, hupper, (Value.truncated?_eq_some hdecimal).1 h⟩
  exact ⟨hanswer (.string "\u00a0+0042 ") nofun nofun _ (by decide) (by decide) (by decide +kernel),
    hanswer (.double (.ofBits 0xC1E0000000100000)) nofun nofun _ (by decide)
    (by decide) (by decide +kernel)⟩

end Machine

end Rollup
