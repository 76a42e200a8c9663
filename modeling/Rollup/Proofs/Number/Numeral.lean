import Rollup.Number.Numeral
import Rollup.Proofs.Number.Shortest

namespace Rollup

theorem digitsValue_eq (cs : List Char) : digitsValue cs = Nat.ofDigitChars 10 cs 0 := rfl

namespace NumeralStyle

theorem plain_magnitude {x : Binary} {n : Nat} (h : (x.shortest .awayFromZero).Denotes n) :
    plain.magnitude x ≠ [] ∧ (∀ c ∈ plain.magnitude x, c.isDigit = true) ∧
      digitsValue (plain.magnitude x) = n := by
  obtain ⟨hexponent, rfl⟩ := h
  have hplain : plain.magnitude x = plain.inFull (x.shortest .awayFromZero) := rfl
  rw [hplain]
  generalize x.shortest .awayFromZero = d at *
  obtain ⟨digits, exponent⟩ := d
  obtain ⟨k, rfl⟩ := Int.eq_ofNat_of_zero_le hexponent
  have htext : plain.inFull ⟨digits, k⟩ = Nat.toDigits 10 digits ++ List.replicate k '0' := by
    simp [inFull, plain]
  rw [htext]
  refine ⟨List.append_ne_nil_of_left_ne_nil Nat.toDigits_ne_nil _, ?_, ?_⟩
  · intro c hc
    rcases List.mem_append.1 hc with hc | hc
    · exact Nat.isDigit_of_mem_toDigits (by decide) (by decide) hc
    · rw [List.eq_of_mem_replicate hc]
      decide
  · rw [digitsValue_eq, Nat.ofDigitChars_append, Nat.ofDigitChars_ten_toDigits,
      Nat.ofDigitChars_replicate_zero]
    exact Nat.mul_comm _ _

end NumeralStyle

namespace Double

open Float.Model UnpackedFloat Binary

theorem ofNat_eq (n : Nat) : ofNat n = .ofModel (.pack (UnpackedFloat.ofInt .binary64 n)) := rfl

theorem unpack_ofNat {n m : Nat} {e : Int} {hm : 0 < m}
    (h : UnpackedFloat.ofInt .binary64 n = .finite .positive m e hm)
    (hlow : 2 ^ 52 ≤ m) (hhigh : m < 2 ^ 53) (he : -1075 < e) (he' : e < 972) :
    (ofNat n).toModel.unpack = .finite .positive m e hm := by
  rw [ofNat_eq, h]
  exact unpack_pack hlow hhigh he he'

theorem ofInt_two_pow_63 :
    UnpackedFloat.ofInt .binary64 (2 ^ 63 : Nat) = .finite .positive (2 ^ 52) 11 (by decide) := by
  apply ofInt_of_covers (Nat.le_refl _) (by decide)
  exact covers_self (by decide) rfl

theorem exists_covers_of_lt {n : Nat} (hn : 0 < n) (hlt : n < 2 ^ 63) :
    ∃ m e, 2 ^ 52 ≤ m ∧ m < 2 ^ 53 ∧ (normal m e).Covers n ∧ -52 ≤ e ∧
      (e ≤ 10 ∨ m = 2 ^ 52 ∧ e = 11) := by
  obtain ⟨m, e, hlow, hhigh, hcovers, hexponent⟩ := exists_covers hn
  have hlog : n.log2 < 63 := (Nat.log2_lt (by omega)).2 hlt
  refine ⟨m, e, hlow, hhigh, hcovers, by omega, ?_⟩
  rcases hexponent with he | ⟨hm, he⟩
  · exact .inl (by omega)
  · by_cases h : e ≤ 10
    · exact .inl h
    · exact .inr ⟨hm, by omega⟩

theorem ofNat_eq_two_pow_63 {n : Nat} (hn : n < 2 ^ 63) :
    ofNat n = ofNat (2 ^ 63) ↔ 2 ^ 63 - 512 ≤ n := by
  -- Numbers of 63 bits reach `2 ^ 63` by rounding if they are at most half a gap below it.
  have hcovers : (normal (2 ^ 52) 11).Covers n ↔ 2 ^ 63 - 512 ≤ n := by
    refine (covers_normal_succ (k := 10) (Nat.le_refl _)).trans ?_
    constructor
    · rintro ⟨_, hnarrow⟩
      have := hnarrow rfl
      omega
    · intro h
      exact ⟨⟨by omega, by omega, by omega⟩, fun _ => by omega⟩
  rw [← hcovers]
  constructor
  · intro h
    rcases Nat.eq_zero_or_pos n with rfl | hpos
    · exact absurd h (by decide +kernel)
    · obtain ⟨m, e, hlow, hhigh, hcovers, he, he'⟩ := exists_covers_of_lt hpos hn
      have hunpack := unpack_ofNat (ofInt_of_covers hlow hhigh hcovers) hlow hhigh (by omega)
        (by omega)
      rw [h, unpack_ofNat ofInt_two_pow_63 (Nat.le_refl _) (by decide) (by decide) (by decide)]
        at hunpack
      cases hunpack
      exact hcovers
  · intro h
    rw [ofNat_eq, ofNat_eq, ofInt_of_covers (Nat.le_refl _) (by decide) h, ofInt_two_pow_63]

theorem isIntegral_of_covers {m n : Nat} {e : Int} (h : (normal m e).Covers n) :
    ∃ X, m * 2 ^ e.toNat = X * 2 ^ (-e).toNat := by
  rcases Int.le_total 0 e with hpos | hneg
  · have hscale : (-e).toNat = 0 := by omega
    exact ⟨m * 2 ^ e.toNat, by rw [hscale, Nat.pow_zero, Nat.mul_one]⟩
  · obtain ⟨j, rfl⟩ : ∃ j : Nat, e = -j := ⟨(-e).toNat, by omega⟩
    have hscale : (-(j : Int)).toNat = 0 ∧ (- -(j : Int)).toNat = j := by omega
    refine ⟨n, ?_⟩
    rw [hscale.1, hscale.2, Nat.pow_zero, Nat.mul_one, eq_of_covers_neg h]

theorem lt_of_covers {m n : Nat} {e : Int} (hhigh : m < 2 ^ 53) (he : e ≤ 10)
    (h : (normal m e).Covers n) :
    n < 2 ^ 63 := by
  have hupper : 4 * n * 2 ^ (-e).toNat ≤ (4 * m + 2) * 2 ^ e.toNat := h.upper
  have hscale : 4 * n * 1 ≤ 4 * n * 2 ^ (-e).toNat := Nat.mul_le_mul_left _ (Nat.two_pow_pos _)
  have hpow : 2 ^ e.toNat ≤ 2 ^ 10 := Nat.pow_le_pow_right (by decide) (by omega)
  have hmul : (4 * m + 2) * 2 ^ e.toNat ≤ (2 ^ 55 - 2) * 2 ^ 10 := Nat.mul_le_mul (by omega) hpow
  have hbound : 4 * n ≤ (4 * m + 2) * 2 ^ e.toNat := Nat.le_trans (by omega) hupper
  omega

theorem plain_ofNat_zero : NumeralStyle.plain.double (ofNat 0) = "0" := by decide +kernel

theorem plain_ofNat_two_pow_63 :
    NumeralStyle.plain.double (ofNat (2 ^ 63)) = "9223372036854776000" := by
  decide +kernel

theorem plain_ofNat {n : Nat} (hn : n < 2 ^ 63) :
    ∃ ds, NumeralStyle.plain.double (ofNat n) = String.ofList ds ∧ ds ≠ [] ∧
      (∀ c ∈ ds, c.isDigit = true) ∧
      ofNat (digitsValue ds) = ofNat n ∧ (ofNat n ≠ ofNat (2 ^ 63) → digitsValue ds < 2 ^ 63) := by
  rcases Nat.eq_zero_or_pos n with rfl | hpos
  · exact ⟨['0'], plain_ofNat_zero,
      by decide, List.forall_mem_singleton.2 (by decide), rfl, fun _ => by decide⟩
  · obtain ⟨m, e, hlow, hhigh, hcovers, he, he'⟩ := exists_covers_of_lt hpos hn
    have hround := ofInt_of_covers hlow hhigh hcovers
    obtain ⟨X, hX⟩ := isIntegral_of_covers hcovers
    obtain ⟨N, hdenotes, hN⟩ := exists_denotes_shortest hlow hhigh he hX .awayFromZero
    obtain ⟨hne, hdigits, hvalue⟩ := NumeralStyle.plain_magnitude hdenotes
    refine ⟨_, ?_, hne, hdigits, ?_, ?_⟩
    · have hnarrow : (decide (e > -1074)) = true := by simp; omega
      rw [NumeralStyle.double, unpack_ofNat hround hlow hhigh (by omega) (by omega),
        NumeralStyle.write, hnarrow, Bool.and_true]
      rfl
    · rw [hvalue, ofNat_eq, ofNat_eq, ofInt_of_covers hlow hhigh hN, hround]
    · intro hlimit
      rw [hvalue]
      rcases he' with he' | ⟨rfl, rfl⟩
      · exact lt_of_covers hhigh he' hN
      · rw [ofNat_eq, ofNat_eq, hround, ofInt_two_pow_63] at hlimit
        exact absurd rfl hlimit

end Double

end Rollup
