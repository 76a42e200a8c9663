import Rollup.Proofs.Machine.Integer
import Rollup.Proofs.Number.Decimal

namespace Rollup

namespace Value

theorem readInt?_bigdecimal {d : BigDecimal} {n : Int32} :
    (Value.bigdecimal d).readInt? = some n ↔ n.toInt = towardZero (Double.value d.toDouble) := by
  rw [readInt?_eq, truncated?, Double.truncate?_of_isFinite d.isFinite_toDouble,
    Option.bind_some, int32?_eq_some]
  exact eq_comm

theorem toInt_ne_of_large {u v : ℚ} (hnear : Near u v) (hlarge : 2 ^ 32 ≤ |v|) (n : Int32) :
    n.toInt ≠ towardZero u := by
  intro heq
  have hfar := hnear.lt_abs_towardZero hlarge
  have hlower := n.le_toInt
  have hupper := n.toInt_lt
  rw [← heq, lt_abs] at hfar
  omega

theorem exists_readInt?_bigdecimal (d : BigDecimal) :
    ∃ z : Int, |z - towardZero d.value| ≤ 1 ∧ (Clear d.value → z = towardZero d.value) ∧
      ∀ n : Int32, (Value.bigdecimal d).readInt? = some n ↔ n.toInt = z := by
  have hnear := d.near_toDouble
  rcases lt_or_ge |d.value| (2 ^ 32) with hsmall | hlarge
  · refine ⟨towardZero (Double.value d.toDouble), hnear.abs_towardZero_sub_le (by linarith),
      fun hclear => ?_, fun n => readInt?_bigdecimal⟩
    by_cases hfraction : ∀ z : Int, d.value ≠ z
    · exact hclear.towardZero_eq hnear hfraction
    · obtain ⟨z, hz⟩ := not_forall_not.1 hfraction
      have hbound : |(z : ℚ)| ≤ 2 ^ 53 := by
        rw [← hz]
        linarith
      rw [BigDecimal.value_toDouble_of_int hz (by exact_mod_cast hbound), hz]
  · -- Neither the integral part nor what is read in its place has 32 bits.
    refine ⟨towardZero d.value,
      by rw [sub_self, abs_zero]; exact zero_le_one, fun _ => rfl, fun n => ?_⟩
    rw [readInt?_bigdecimal]
    exact iff_of_false (toInt_ne_of_large hnear hlarge n) (toInt_ne_of_large (.refl _) hlarge n)

-- Not all decimals below 1 are clear of 1.
example : (Value.bigdecimal { mantissa := 9999999999999999999999999999, scale := 28 }).readInt? =
    some 1 := by
  decide +kernel

end Value

/-- The answer that a leaf of the integral part `z` should be given: `z` if that has 32 bits, and
otherwise a complaint about the leaf. -/
structure IsIntegralPart (leaf : Value) (z : Int) (answer : Except EvalError Value) : Prop where
  ok : -2 ^ 31 ≤ z → z ≤ 2 ^ 31 - 1 → ∃ n, answer = .ok (.int n) ∧ n.toInt = z
  error : ¬ (-2 ^ 31 ≤ z ∧ z ≤ 2 ^ 31 - 1) → answer = .error (.numberFormat leaf.text .int)

theorem isIntegralPart_convert {leaf : Value} (hnull : leaf ≠ .null) {z : Int}
    (h : ∀ n : Int32, leaf.readInt? = some n ↔ n.toInt = z) :
    IsIntegralPart leaf z (Target.int.convert leaf) := by
  have hread : Target.int.read? leaf = leaf.readInt?.map .int := Target.read?_of_ne_null .int hnull
  constructor
  · intro hlower hupper
    obtain ⟨n, hn⟩ := exists_toInt_eq.2 ⟨hlower, hupper⟩
    refine ⟨n, ?_, hn⟩
    rw [Target.convert_eq_ok, hread, (h n).2 hn]
    rfl
  · intro hrange
    rw [Target.convert_eq_error, hread, Option.map_eq_none_iff, Option.eq_none_iff_forall_ne_some]
    exact fun n hn => hrange (exists_toInt_eq.1 ⟨n, (h n).1 hn⟩)

namespace Machine

/-- A decimal that is clear of all integers but its own is answered without its fraction. Any
decimal is answered as one would be whose integral part differs by at most one. -/
theorem extract_int_of_decimal {path : List String} (hpath : path ≠ [])
    {sample : Value} {d : BigDecimal}
    (hleads : sample.Leads path (.bigdecimal d)) (c : Config) (opened : Nat) (steps : List Step)
    (r : Resolver) (now : Nat) (rest : List Value) :
    let answer :=
      (((start (.extract .int path) c opened).after steps).eval r now (sample :: rest)).1
    (Clear d.value → IsIntegralPart (.bigdecimal d) (towardZero d.value) answer) ∧
      ∃ z, |z - towardZero d.value| ≤ 1 ∧ IsIntegralPart (.bigdecimal d) z answer := by
  intro answer
  have hanswer : answer = Target.int.convert (.bigdecimal d) := by
    change (((start (.extract .int path) c opened).after steps).eval r now (sample :: rest)).1 = _
    rw [after_extract]
    exact extractFrom_of_leads hpath rest hleads
  obtain ⟨z, hnext, hexact, hread⟩ := Value.exists_readInt?_bigdecimal d
  have hnull : Value.bigdecimal d ≠ .null := nofun
  have hz : IsIntegralPart (.bigdecimal d) z answer := by
    rw [hanswer]
    exact isIntegralPart_convert hnull hread
  refine ⟨fun hclear => ?_, z, hnext, hz⟩
  rw [← hexact hclear]
  exact hz

theorem extract_int_of_decimal_bounds :
    let answer (d : BigDecimal) :=
      ((start (.extract .int ["load"]) {} 0).eval .none 1
        [.record "host" (Keyed.ofList [("load", .bigdecimal d)])]).1
    (∃ n, answer { mantissa := 21474836479, scale := 1 } = .ok (.int n) ∧ n.toInt = 2 ^ 31 - 1) ∧
      answer { mantissa := -214748364900, scale := 2 } =
      .error (.numberFormat "-2147483649.00" .int) := by
  intro answer
  have hanswer (d : BigDecimal) (hsmall : d.mantissa.natAbs < 10 ^ 15) :
      IsIntegralPart (.bigdecimal d) (towardZero d.value) (answer d) := by
    have hleads : (Value.record "host" (Keyed.ofList [("load", .bigdecimal d)])).Leads
        ["load"] (.bigdecimal d) :=
      .field rfl .here
    exact (extract_int_of_decimal (List.cons_ne_nil "load" []) hleads {} 0 [] .none 1 []).1
      (BigDecimal.clear hsmall)
  constructor
  · have hpart : towardZero (BigDecimal.value { mantissa := 21474836479, scale := 1 }) =
        2 ^ 31 - 1 := by
      decide +kernel
    obtain ⟨hok, -⟩ := hanswer { mantissa := 21474836479, scale := 1 } (by decide)
    rw [hpart] at hok
    exact hok (by decide) (by decide)
  · have hpart : towardZero (BigDecimal.value { mantissa := -214748364900, scale := 2 }) =
        -2 ^ 31 - 1 := by
      decide +kernel
    have htext : (Value.bigdecimal { mantissa := -214748364900, scale := 2 }).text =
        "-2147483649.00" := by
      decide +kernel
    obtain ⟨-, herror⟩ := hanswer { mantissa := -214748364900, scale := 2 } (by decide)
    rw [hpart, htext] at herror
    exact herror (by decide)

end Machine

end Rollup
