import Rollup.Number.Shortest
import Rollup.Proofs.Number.Rounding

namespace Rollup

theorem compareScaled_quarters (n l : Nat) (e : Int) :
    compareScaled n 0 l (e - 2) = compare (4 * n * 2 ^ (-e).toNat) (l * 2 ^ e.toNat) := by
  have hscale : ∀ a b c, 0 < c → compare (a * c) (b * c) = compare a b := by
    intro a b c hc
    simp only [Nat.compare_eq_ite_lt, Nat.mul_lt_mul_right hc]
  simp only [compareScaled, Nat.pow_eq, Int.toNat_zero, Int.neg_zero, Nat.pow_zero, Nat.mul_one]
  rcases Int.lt_or_le e 2 with hlt | hle
  · rcases Int.lt_or_le e 1 with hlt | hle
    · have hup : (-(e - 2)).toNat = (-e).toNat + 2 := by omega
      have hdown : (e - 2).toNat = 0 ∧ e.toNat = 0 := by omega
      rw [hup, hdown.1, hdown.2, Nat.pow_add]
      congr 1
      ring
    · obtain rfl : e = 1 := by omega
      change compare (n * 2 ^ 1) (l * 2 ^ 0) = compare (4 * n * 2 ^ 0) (l * 2 ^ 1)
      rw [← hscale _ _ 2 (by decide)]
      congr 1 <;> ring
  · have hup : e.toNat = (e - 2).toNat + 2 := by omega
    have hdown : (-(e - 2)).toNat = 0 ∧ (-e).toNat = 0 := by omega
    rw [hdown.1, hdown.2, hup, Nat.pow_add, ← hscale _ _ 4 (by decide)]
    congr 1 <;> ring

namespace Binary

def low (x : Binary) : Nat := 4 * x.significand - if x.narrow then 1 else 2

def high (x : Binary) : Nat := 4 * x.significand + 2

/-- The natural numbers between the two midpoints, which only count if the significand is even. -/
structure Covers (x : Binary) (n : Nat) : Prop where
  lower : x.low * 2 ^ x.exponent.toNat ≤ 4 * n * 2 ^ (-x.exponent).toNat
  upper : 4 * n * 2 ^ (-x.exponent).toNat ≤ x.high * 2 ^ x.exponent.toNat
  odd : x.significand % 2 = 1 →
    x.low * 2 ^ x.exponent.toNat < 4 * n * 2 ^ (-x.exponent).toNat ∧
      4 * n * 2 ^ (-x.exponent).toNat < x.high * 2 ^ x.exponent.toNat

theorem readsBack_natCast {x : Binary} {n : Nat} : x.readsBack ⟨n, 0⟩ = true ↔ x.Covers n := by
  have hlow := compareScaled_quarters n x.low x.exponent
  have hhigh := compareScaled_quarters n x.high x.exponent
  simp only [low, high] at hlow hhigh
  simp only [readsBack, hlow, hhigh]
  rw [← low, ← high]
  have hends : ∀ o : Ordering, (o == .gt || (x.significand % 2 == 0 && o == .eq)) = true ↔
      o ≠ .lt ∧ (x.significand % 2 = 1 → o = .gt) := by
    intro o
    cases o <;> simp
  have hends' : ∀ o : Ordering, (o == .lt || (x.significand % 2 == 0 && o == .eq)) = true ↔
      o ≠ .gt ∧ (x.significand % 2 = 1 → o = .lt) := by
    intro o
    cases o <;> simp
  rw [Bool.and_eq_true, hends, hends', Nat.compare_ne_lt, Nat.compare_ne_gt,
    Nat.compare_eq_gt, Nat.compare_eq_lt]
  constructor
  · rintro ⟨⟨hlower, hodd⟩, hupper, hodd'⟩
    exact ⟨hlower, hupper, fun h => ⟨hodd h, hodd' h⟩⟩
  · rintro ⟨hlower, hupper, hodd⟩
    exact ⟨⟨hlower, fun h => (hodd h).1⟩, hupper, fun h => (hodd h).2⟩

end Binary

namespace Double

open Float.Model UnpackedFloat

abbrev normal (m : Nat) (e : Int) : Binary := ⟨m, e, m == 2 ^ 52⟩

theorem low_normal (m : Nat) (e : Int) :
    (normal m e).low = 4 * m - if m = 2 ^ 52 then 1 else 2 := by
  simp only [Binary.low, beq_iff_eq]

theorem covers_normal_succ {m n k : Nat} (hm : 2 ^ 52 ≤ m) :
    (normal m (k + 1 : Nat)).Covers n ↔ Nearest n k m ∧
      (m = 2 ^ 52 → 2 ^ 54 * 2 ^ k ≤ 2 * n + 2 ^ k) := by
  have hquarters : 4 * n * 2 ^ (-((k + 1 : Nat) : Int)).toNat = 4 * n := by
    have hzero : (-((k + 1 : Nat) : Int)).toNat = 0 := by omega
    rw [hzero, Nat.pow_zero, Nat.mul_one]
  have hhigh : (normal m (k + 1 : Nat)).high * 2 ^ (k + 1) = 4 * (2 * m * 2 ^ k) + 4 * 2 ^ k := by
    rw [Binary.high, Nat.pow_succ]
    ring
  have hlow : (normal m (k + 1 : Nat)).low * 2 ^ (k + 1) =
      4 * (2 * m * 2 ^ k) - if m = 2 ^ 52 then 2 * 2 ^ k else 4 * 2 ^ k := by
    rw [low_normal, Nat.sub_mul, Nat.pow_succ]
    split
    all_goals congr 1 <;> ring
  have hle : 2 ^ 53 * 2 ^ k ≤ 2 * m * 2 ^ k := Nat.mul_le_mul_right _ (by omega)
  constructor
  · rintro ⟨hlower, hupper, hodd⟩
    simp only [Int.toNat_natCast, hquarters, hhigh, hlow] at hlower hupper hodd
    split at hlower
    · subst m
      exact ⟨⟨by omega, by omega, by omega⟩, fun _ => by omega⟩
    · rename_i hne
      simp only [hne, if_false] at hodd
      exact ⟨⟨by omega, by omega, fun h => by have := hodd h; omega⟩, fun h => absurd h hne⟩
  · rintro ⟨⟨hlower, hupper, hodd⟩, hnarrow⟩
    refine ⟨?_, ?_, ?_⟩ <;> simp only [Int.toNat_natCast, hquarters, hhigh, hlow]
    · split
      · have := hnarrow ‹_›
        subst m
        omega
      · omega
    · omega
    · intro h
      have hne : m ≠ 2 ^ 52 := by omega
      have := hodd h
      simp only [hne, if_false]
      omega

theorem eq_of_covers_neg {m n j : Nat} (h : (normal m (-j)).Covers n) : n * 2 ^ j = m := by
  -- Without a factor of two, the only number that reads back is the double itself.
  have hshift : (-(j : Int)).toNat = 0 ∧ (- -(j : Int)).toNat = j := by omega
  obtain ⟨hlower, hupper, -⟩ := h
  simp only [low_normal, Binary.high, hshift, Nat.pow_zero, Nat.mul_one, Nat.mul_assoc]
    at hlower hupper
  split at hlower <;> omega

theorem ofInt_of_covers {n m : Nat} {e : Int} (hlow : 2 ^ 52 ≤ m) (hhigh : m < 2 ^ 53)
    (h : (normal m e).Covers n) :
    UnpackedFloat.ofInt .binary64 n = .finite .positive m e (by omega) := by
  rcases Int.lt_or_le 0 e with hpos | hneg
  · obtain ⟨k, rfl⟩ : ∃ k : Nat, e = (k + 1 : Nat) := ⟨(e - 1).toNat, by omega⟩
    obtain ⟨hnearest, hnarrow⟩ := (covers_normal_succ hlow).1 h
    have hlower := hnearest.lower
    have hupper := hnearest.upper
    have hpos : 0 < 2 ^ k := Nat.two_pow_pos k
    by_cases hn : 2 ^ 53 * 2 ^ k ≤ n
    · have hlog : n.log2 = 52 + (k + 1) := by
        have hmul : 2 * m * 2 ^ k ≤ (2 ^ 54 - 2) * 2 ^ k := Nat.mul_le_mul_right _ (by omega)
        exact log2_eq_of_scaled hn (by omega)
      exact ofInt_of_nearest hlog hnearest hlow hhigh
    · -- The number is below the first of its binade, and so it is read as one more than the binade
      -- before has.
      have hm : m = 2 ^ 52 := by
        by_contra hne
        have hmul : (2 ^ 53 + 2) * 2 ^ k ≤ 2 * m * 2 ^ k := Nat.mul_le_mul_right _ (by omega)
        omega
      subst hm
      have hnarrow := hnarrow rfl
      cases k with
      | zero => omega
      | succ k =>
        have hlog : n.log2 = 52 + (k + 1) := log2_eq_of_scaled (by omega) (by omega)
        apply ofInt_of_nearest_carry hlog
        exact ⟨by omega, by omega, by omega⟩
  · obtain ⟨j, rfl⟩ : ∃ j : Nat, e = -j := ⟨(-e).toNat, by omega⟩
    have hexact : n * 2 ^ j = m := eq_of_covers_neg h
    subst hexact
    apply ofInt_of_lt hlow hhigh
    have hn : 0 < n := Nat.pos_of_mul_pos_right (Nat.lt_of_lt_of_le (Nat.two_pow_pos 52) hlow)
    have hpow : 2 ^ j < 2 ^ 53 := Nat.lt_of_le_of_lt (Nat.le_mul_of_pos_left _ hn) hhigh
    have := (Nat.pow_lt_pow_iff_right (a := 2) (by decide)).1 hpow
    omega

theorem exists_covers {n : Nat} (hn : 0 < n) :
    ∃ m e, 2 ^ 52 ≤ m ∧ m < 2 ^ 53 ∧ (normal m e).Covers n ∧
      (e = (n.log2 : Int) - 52 ∨ m = 2 ^ 52 ∧ e = (n.log2 : Int) - 51) := by
  have hlow : 2 ^ n.log2 ≤ n := Nat.log2_self_le (by omega)
  have hhigh : n < 2 ^ (n.log2 + 1) := Nat.lt_log2_self
  rcases Nat.lt_or_ge 52 n.log2 with hlt | hle
  · obtain ⟨k, hk⟩ : ∃ k, n.log2 = 52 + (k + 1) := ⟨n.log2 - 53, by omega⟩
    have hsplit : 2 ^ n.log2 = 2 ^ 53 * 2 ^ k := by rw [hk, ← Nat.pow_add]; congr 1; omega
    rw [Nat.pow_succ] at hhigh
    have hpos : 0 < 2 ^ k := Nat.two_pow_pos k
    have hnearest := nearest_roundedMantissa n k
    have hbounds := hnearest.bounds (by omega) (by omega)
    generalize (uncut n >>> (k + 1)).roundedMantissa = q at *
    rcases Nat.lt_or_eq_of_le hbounds.2 with hq | rfl
    · exact ⟨q, (k + 1 : Nat), hbounds.1, hq, (covers_normal_succ hbounds.1).2 ⟨hnearest, fun _ =>
        by omega⟩, .inl (by omega)⟩
    · have hlower := hnearest.lower
      refine ⟨2 ^ 52, (k + 1 + 1 : Nat), Nat.le_refl _,
        by decide, (covers_normal_succ (Nat.le_refl _)).2 ⟨?_, ?_⟩, .inr ⟨rfl, by omega⟩⟩
      · exact ⟨by omega, by omega, by omega⟩
      · omega
  · obtain ⟨k, hk⟩ : ∃ k, n.log2 + k = 52 := ⟨52 - n.log2, by omega⟩
    have hpos : 0 < 2 ^ k := Nat.two_pow_pos k
    have hscaled : 2 ^ 52 ≤ n * 2 ^ k ∧ n * 2 ^ k < 2 ^ 53 := by
      constructor
      · rw [← hk, Nat.pow_add]
        exact Nat.mul_le_mul_right _ hlow
      · rw [show 53 = n.log2 + 1 + k by omega, Nat.pow_add]
        exact Nat.mul_lt_mul_of_pos_right hhigh hpos
    have hshift : (-(k : Int)).toNat = 0 ∧ (- -(k : Int)).toNat = k := by omega
    have hbelow : (normal (n * 2 ^ k) (-k)).low < 4 * (n * 2 ^ k) := by
      rw [low_normal]
      split <;> omega
    refine ⟨n * 2 ^ k, -k, hscaled.1, hscaled.2, ⟨?_, ?_, fun _ => ?_⟩, .inl (by omega)⟩
    all_goals
      simp only [Binary.high, hshift, Nat.pow_zero, Nat.mul_one, Nat.mul_assoc]
      omega

end Double

end Rollup
