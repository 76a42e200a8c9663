import Rollup.Proofs.Number.Interval

namespace Rollup

def Decimal.Denotes (d : Decimal) (n : Nat) : Prop :=
  0 ≤ d.exponent ∧ d.digits * 10 ^ d.exponent.toNat = n

theorem Decimal.denotes_strip {d : Decimal} {n : Nat} (h : d.Denotes n) : d.strip.Denotes n := by
  fun_induction Decimal.strip d with
  | case1 d hzero _ ih =>
    apply ih
    obtain ⟨hexponent, hdigits⟩ := h
    have hsucc : (d.exponent + 1).toNat = d.exponent.toNat + 1 := by omega
    refine ⟨Int.le_add_one hexponent, ?_⟩
    dsimp only
    rw [hsucc, Nat.pow_succ', ← Nat.mul_assoc, Nat.div_mul_cancel (Nat.dvd_of_mod_eq_zero hzero.2),
      hdigits]
  | case2 => exact h

namespace Binary

theorem readsBack_of_denotes {x : Binary} {d : Decimal} {n : Nat} (h : d.Denotes n) :
    x.readsBack d = x.readsBack ⟨n, 0⟩ := by
  obtain ⟨hexponent, rfl⟩ := h
  have hneg : (-d.exponent).toNat = 0 := by omega
  simp [readsBack, compareScaled, hneg]

theorem onGrid?_eq_some {x : Binary} {tie : Tie} {g : Int} {d : Decimal}
    (h : x.onGrid? tie g = some d) :
    d.exponent = g ∧ x.readsBack d = true := by
  unfold onGrid? at h
  dsimp only at h
  split at h
  · cases h
  · cases h
    exact ⟨rfl, by assumption⟩
  · cases h
    exact ⟨rfl, by assumption⟩
  · split at h
    · cases h
      exact ⟨rfl, by assumption⟩
    · cases h
      exact ⟨rfl, by assumption⟩
    · cases h
      exact ⟨rfl, by assumption⟩
    · split at h <;> cases h <;> exact ⟨rfl, by assumption⟩

theorem onGrid?_ne_none {x : Binary} {tie : Tie} {g : Int}
    (h : x.readsBack ⟨x.floorOn g, g⟩ = true) :
    x.onGrid? tie g ≠ none := by
  unfold onGrid?
  dsimp only
  rw [h]
  cases x.readsBack ⟨x.floorOn g + 1, g⟩ with
  | false => exact Option.some_ne_none _
  | true =>
    dsimp only
    split <;> exact Option.some_ne_none _

end Binary

namespace Double

open Binary

theorem covers_self {m X : Nat} {e : Int} (hm : 0 < m) (hX : m * 2 ^ e.toNat = X * 2 ^ (-e).toNat) :
    (normal m e).Covers X := by
  have hpos : 0 < 2 ^ e.toNat := Nat.two_pow_pos _
  have hscaled : 4 * X * 2 ^ (-e).toNat = 4 * m * 2 ^ e.toNat := by
    rw [Nat.mul_assoc, ← hX, ← Nat.mul_assoc]
  have hbelow : (normal m e).low * 2 ^ e.toNat < 4 * m * 2 ^ e.toNat := by
    apply Nat.mul_lt_mul_of_pos_right _ hpos
    rw [low_normal]
    split <;> omega
  have habove : 4 * m * 2 ^ e.toNat < (normal m e).high * 2 ^ e.toNat := by
    apply Nat.mul_lt_mul_of_pos_right _ hpos
    change 4 * m < 4 * m + 2
    omega
  constructor
  · rw [hscaled]
    exact Nat.le_of_lt hbelow
  · rw [hscaled]
    exact Nat.le_of_lt habove
  · intro _
    rw [hscaled]
    exact ⟨hbelow, habove⟩

theorem floorOn_zero {m X : Nat} {e : Int} (hX : m * 2 ^ e.toNat = X * 2 ^ (-e).toNat) :
    (normal m e).floorOn 0 = X := by
  simp [floorOn, hX]

theorem findSome?_range_eq_some {f : Nat → Option α} {n : Nat} {a : α}
    (h : (List.range n).findSome? f = some a) :
    ∃ j, f j = some a ∧ ∀ i < j, f i = none := by
  obtain ⟨before, j, after, hsplit, hj, hbefore⟩ := List.findSome?_eq_some_iff.1 h
  refine ⟨j, hj, fun i hi => ?_⟩
  have hsorted : (before ++ j :: after).Pairwise (· < ·) := hsplit ▸ List.pairwise_lt_range
  have hafter := (List.pairwise_cons.1 (List.pairwise_append.1 hsorted).2.1).1
  have hjn : j ∈ List.range n := hsplit ▸ List.mem_append_right _ List.mem_cons_self
  have hin : i ∈ before ++ j :: after := by
    rw [← hsplit, List.mem_range]
    exact Nat.lt_trans hi (List.mem_range.1 hjn)
  rcases List.mem_append.1 hin with hin | hin
  · exact hbefore i hin
  · rcases List.mem_cons.1 hin with rfl | hin
    · exact absurd hi (Nat.lt_irrefl _)
    · exact absurd (hafter i hin) (Nat.not_lt_of_gt hi)

theorem places_normal {m : Nat} {e : Int} (hlow : 2 ^ 52 ≤ m) (hhigh : m < 2 ^ 53) (he : -52 ≤ e) :
    1 ≤ (normal m e).places ∧ (17 < (normal m e).places → 0 ≤ e) := by
  -- The grid of the integers is met, and it is met within the search unless there is no finer one
  -- to come.
  have hlog : m.log2 = 52 := log2_eq_of_bounds hlow hhigh
  simp only [places, hlog]
  split <;> omega

theorem onGrid?_zero_ne_none {m X : Nat} {e : Int} {tie : Tie} (hm : 0 < m)
    (hX : m * 2 ^ e.toNat = X * 2 ^ (-e).toNat) : (normal m e).onGrid? tie 0 ≠ none := by
  apply onGrid?_ne_none
  rw [floorOn_zero hX]
  exact readsBack_natCast.2 (covers_self hm hX)

theorem denotes_exact {m X : Nat} {e : Int} (he : 0 ≤ e)
    (hX : m * 2 ^ e.toNat = X * 2 ^ (-e).toNat) :
    (normal m e).exact.Denotes X := by
  have hneg : (-e).toNat = 0 := by omega
  rw [hneg, Nat.pow_zero, Nat.mul_one] at hX
  simp [exact, Decimal.Denotes, hneg, hX, he]

theorem denotes_of_onGrid? {x : Binary} {tie : Tie} {g : Int} {d : Decimal} (hg : 0 ≤ g)
    (h : x.onGrid? tie g = some d) : ∃ n, d.Denotes n ∧ x.Covers n := by
  obtain ⟨rfl, hreads⟩ := onGrid?_eq_some h
  have hdenotes : d.Denotes (d.digits * 10 ^ d.exponent.toNat) := ⟨hg, rfl⟩
  rw [readsBack_of_denotes hdenotes] at hreads
  exact ⟨_, hdenotes, readsBack_natCast.1 hreads⟩

theorem exists_denotes_shortest {m X : Nat} {e : Int} (hlow : 2 ^ 52 ≤ m) (hhigh : m < 2 ^ 53)
    (he : -52 ≤ e) (hX : m * 2 ^ e.toNat = X * 2 ^ (-e).toNat) (tie : Tie) :
    ∃ n, ((normal m e).shortest tie).Denotes n ∧ (normal m e).Covers n := by
  obtain ⟨hplaces, hlate⟩ := places_normal hlow hhigh he
  have hgrid : (normal m e).onGrid? tie 0 ≠ none := onGrid?_zero_ne_none (by omega) hX
  -- The search meets the grid of the integers here, if it gets there.
  obtain ⟨units, hunits⟩ : ∃ i : Nat, (normal m e).places - 1 - (i : Nat) = 0 :=
    ⟨((normal m e).places - 1).toNat, by omega⟩
  have hpos : (normal m e).significand ≠ 0 := by
    change m ≠ 0
    omega
  rw [shortest, if_neg hpos]
  cases hsearch : (List.range 17).findSome? fun i =>
    (normal m e).onGrid? tie ((normal m e).places - 1 - (i : Nat))
  case none =>
    have hmissed : ¬ units < 17 := by
      intro hearly
      have hnone := List.findSome?_eq_none_iff.1 hsearch units (List.mem_range.2 hearly)
      rw [hunits] at hnone
      exact hgrid hnone
    have hdenotes := denotes_exact (hlate (by omega)) hX
    exact ⟨X, Decimal.denotes_strip hdenotes, covers_self (by omega) hX⟩
  case some d =>
    obtain ⟨j, hj, hbefore⟩ := findSome?_range_eq_some hsearch
    have hle : j ≤ units := by
      by_contra hlt
      have hnone := hbefore units (by omega)
      rw [hunits] at hnone
      exact hgrid hnone
    obtain ⟨n, hdenotes, hn⟩ := denotes_of_onGrid? (by omega) hj
    exact ⟨n, Decimal.denotes_strip hdenotes, hn⟩

end Double

end Rollup
