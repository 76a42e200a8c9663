import Rollup.Aggregate.Extremum
import Rollup.Proofs.Number.Value

namespace Rollup

namespace Side

def AtMost : Side → Float → Float → Prop
  | max, x, y => x ≤ y
  | min, x, y => y ≤ x

namespace AtMost

variable {side : Side} {x y z : Float}

theorem isNumber (h : side.AtMost x y) : x.isNaN = false ∧ y.isNaN = false := by
  cases side with
  | max => exact Double.not_isNaN_of_le h
  | min => exact (Double.not_isNaN_of_le h).symm

theorem of_beq (h : (x == y) = true) : side.AtMost x y := by
  obtain ⟨hx, hy⟩ := Double.not_isNaN_of_beq h
  have heq := (Double.beq_iff hx hy).1 h
  cases side with
  | max => exact (Double.le_iff hx hy).2 heq.le
  | min => exact (Double.le_iff hy hx).2 heq.ge

theorem refl (hx : x.isNaN = false) : side.AtMost x x := of_beq ((Double.beq_iff hx hx).2 rfl)

theorem trans (hxy : side.AtMost x y) (hyz : side.AtMost y z) : side.AtMost x z := by
  obtain ⟨hx, hy⟩ := hxy.isNumber
  have hz := hyz.isNumber.2
  cases side with
  | max =>
    exact (Double.le_iff hx hz).2
      (((Double.le_iff hx hy).1 hxy).trans ((Double.le_iff hy hz).1 hyz))
  | min =>
    exact (Double.le_iff hz hx).2
      (((Double.le_iff hz hy).1 hyz).trans ((Double.le_iff hy hx).1 hxy))

theorem beq (hxy : side.AtMost x y) (hyx : side.AtMost y x) : (x == y) = true := by
  obtain ⟨hx, hy⟩ := hxy.isNumber
  rw [Double.beq_iff hx hy]
  cases side with
  | max => exact le_antisymm ((Double.le_iff hx hy).1 hxy) ((Double.le_iff hy hx).1 hyx)
  | min => exact le_antisymm ((Double.le_iff hx hy).1 hyx) ((Double.le_iff hy hx).1 hxy)

end AtMost

theorem max_eq_left {c x : Float} (hc : c.isNaN = false) (h : ¬ c < x) : Double.max c x = c :=
  if_neg (by rw [hc, Bool.or_false, decide_eq_true_iff]; exact h)

theorem min_eq_left {c x : Float} (hc : c.isNaN = false) (h : ¬ x < c) : Double.min c x = c :=
  if_neg (by rw [hc, Bool.or_false, decide_eq_true_iff]; exact h)

theorem pick_of_isNaN {c x : Float} (hc : c.isNaN = false) (hx : x.isNaN = true) (side : Side) :
    side.pick c x = c := by
  cases side with
  | max =>
    exact max_eq_left hc fun h => Bool.noConfusion (hx.symm.trans (Double.not_isNaN_of_lt h).2)
  | min =>
    exact min_eq_left hc fun h => Bool.noConfusion (hx.symm.trans (Double.not_isNaN_of_lt h).1)

theorem pick_of_isNumber {c x : Float} (hc : c.isNaN = false) (hx : x.isNaN = false) (side : Side) :
    side.AtMost c x ∧ side.pick c x = x ∨ side.AtMost x c ∧ side.pick c x = c := by
  cases side with
  | max =>
    by_cases h : c < x
    · exact .inl ⟨(Double.le_iff hc hx).2 ((Double.lt_iff hc hx).1 h).le,
        by simp [pick, Double.max, h]⟩
    · have hle : Double.value x ≤ Double.value c := not_lt.1 fun hlt =>
        h ((Double.lt_iff hc hx).2 hlt)
      exact .inr ⟨(Double.le_iff hx hc).2 hle, max_eq_left hc h⟩
  | min =>
    by_cases h : x < c
    · exact .inl ⟨(Double.le_iff hx hc).2 ((Double.lt_iff hx hc).1 h).le,
        by simp [pick, Double.min, h]⟩
    · have hle : Double.value c ≤ Double.value x := not_lt.1 fun hlt =>
        h ((Double.lt_iff hx hc).2 hlt)
      exact .inr ⟨(Double.le_iff hc hx).2 hle, min_eq_left hc h⟩

end Side

theorem Seed.isNaN_value (seed : Seed) (side : Side) : (seed.value side).isNaN = false := by
  cases seed <;> cases side <;> decide +kernel

/-- The furthest of a seed and of those samples that are numbers. -/
structure IsExtreme (side : Side) (seed : Float) (samples : List Float) (y : Float) : Prop where
  attained : (y == seed) = true ∨ ∃ x ∈ samples, x.isNaN = false ∧ (y == x) = true
  seed_atMost : side.AtMost seed y
  atMost : ∀ x ∈ samples, x.isNaN = false → side.AtMost x y

namespace IsExtreme

variable {side : Side} {seed x y y' : Float} {l l' : List Float}

theorem start (h : seed.isNaN = false) : IsExtreme side seed [] seed :=
  ⟨.inl ((Double.beq_iff h h).2 rfl), .refl h, nofun⟩

theorem atMost_of_subset (h : IsExtreme side seed l y) (h' : IsExtreme side seed l' y')
    (hsub : l ⊆ l') :
    side.AtMost y y' := by
  rcases h.attained with hseed | ⟨x, hmem, hx, hbeq⟩
  · exact .trans (.of_beq hseed) h'.seed_atMost
  · exact .trans (.of_beq hbeq) (h'.atMost x (hsub hmem) hx)

theorem beq_of_perm (h : IsExtreme side seed l y) (h' : IsExtreme side seed l' y')
    (hperm : l.Perm l') :
    (y == y') = true :=
  (h.atMost_of_subset h' hperm.subset).beq (h'.atMost_of_subset h hperm.symm.subset)

theorem append (h : IsExtreme side seed l y) (x : Float) :
    IsExtreme side seed (l ++ [x]) (side.pick y x) := by
  have hy := h.seed_atMost.isNumber.2
  have hmem {z : Float} (hz : z ∈ l ++ [x]) : z ∈ l ∨ z = x := by simpa using hz
  -- The extreme stays where it is, as the sample is no further.
  have hstay (hx : x.isNaN = false → side.AtMost x y) : IsExtreme side seed (l ++ [x]) y := by
    refine ⟨?_, h.seed_atMost, fun z hz hnum => ?_⟩
    · exact h.attained.imp_right fun ⟨z, hz, hrest⟩ => ⟨z, List.mem_append_left _ hz, hrest⟩
    · rcases hmem hz with hz | rfl
      · exact h.atMost z hz hnum
      · exact hx hnum
  cases hx : x.isNaN with
  | true =>
    rw [Side.pick_of_isNaN hy hx]
    exact hstay fun hnum => Bool.noConfusion (hx.symm.trans hnum)
  | false =>
    rcases Side.pick_of_isNumber hy hx side with ⟨hle, hpick⟩ | ⟨hle, hpick⟩
    · rw [hpick]
      refine ⟨.inr ⟨x, by simp, hx, (Double.beq_iff hx hx).2 rfl⟩, h.seed_atMost.trans hle,
        fun z hz hnum => ?_⟩
      rcases hmem hz with hz | rfl
      · exact (h.atMost z hz hnum).trans hle
      · exact .refl hx
    · rw [hpick]
      exact hstay fun _ => hle

theorem foldl (h : seed.isNaN = false) (samples : List Float) :
    IsExtreme side seed samples (samples.foldl side.pick seed) := by
  induction samples using List.reverseRecOn with
  | nil => exact start h
  | append_singleton samples x ih =>
    rw [List.foldl_append]
    exact ih.append x

end IsExtreme

namespace Side

/-- Doubles that lie further to a side than `0`, or than `∞`. -/
def Passes : Side → Float → Prop
  | max, x => Double.ofNat 0 < x
  | min, x => x < Double.infinity

variable {side : Side} {b x : Float}

theorem Passes.isNumber (h : side.Passes x) : x.isNaN = false := by
  cases side with
  | max => exact (Double.not_isNaN_of_lt h).2
  | min => exact (Double.not_isNaN_of_lt h).1

theorem Passes.of_atMost (h : side.Passes x) (hle : side.AtMost x b) : side.Passes b := by
  obtain ⟨hx, hb⟩ := hle.isNumber
  cases side with
  | max =>
    have hzero := (Double.not_isNaN_of_lt h).1
    exact (Double.lt_iff hzero hb).2
      (((Double.lt_iff hzero hx).1 h).trans_le ((Double.le_iff hx hb).1 hle))
  | min =>
    have hinf := (Double.not_isNaN_of_lt h).2
    exact (Double.lt_iff hb hinf).2
      (((Double.le_iff hb hx).1 hle).trans_lt ((Double.lt_iff hx hinf).1 h))

theorem Passes.legacy_atMost (h : side.Passes x) : side.AtMost (Seed.legacy.value side) x := by
  have hx := h.isNumber
  have hseed := Seed.legacy.isNaN_value side
  have hrank {y z : Float} (hlt : y < z) : Double.rank y < Double.rank z := by
    obtain ⟨hy, hz⟩ := Double.not_isNaN_of_lt hlt
    by_contra hle
    exact ((Double.lt_iff hy hz).1 hlt).not_ge (Double.value_le_of_rank_le hz hy (not_lt.1 hle))
  cases side with
  | max =>
    have hnext : Double.rank Double.smallest = Double.rank (Double.ofNat 0) + 1 := by decide +kernel
    exact (Double.le_iff hseed hx).2 (Double.value_le_of_rank_le hseed hx (hnext ▸ hrank h))
  | min =>
    have hnext : Double.rank Double.infinity = Double.rank Double.largest + 1 := by decide +kernel
    exact (Double.le_iff hx hseed).2
      (Double.value_le_of_rank_le hx hseed (Int.lt_add_one_iff.1 (hnext ▸ hrank h)))

theorem passes_legacy (side : Side) : side.Passes (Seed.legacy.value side) := by
  cases side <;> unfold Passes <;> decide +kernel

theorem not_passes_infinite (side : Side) : ¬ side.Passes (Seed.infinite.value side) := by
  cases side <;> unfold Passes <;> decide +kernel

theorem value_legacy_pos (side : Side) : 0 < Double.value (Seed.legacy.value side) := by
  have hsmall : (Seed.legacy.value side).toBits.toNat < 2 ^ 63 := by cases side <;> decide +kernel
  have hpos : 0 < (Seed.legacy.value side).toBits.toNat := by cases side <;> decide +kernel
  rw [Double.value_eq_level (Seed.legacy.isNaN_value side), if_pos hsmall]
  exact (Double.level_nonneg 0).trans_lt (Double.level_strictMono hpos)

theorem pick_legacy_of_passes (h : side.Passes x) : side.pick (Seed.legacy.value side) x = x := by
  have hx := h.isNumber
  have hseed := Seed.legacy.isNaN_value side
  rcases pick_of_isNumber hseed hx side with ⟨-, hpick⟩ | ⟨hle, hpick⟩
  · exact hpick
  · have hbeq := h.legacy_atMost.beq hle
    rw [hpick]
    exact Double.eq_of_value_eq hseed hx ((Double.beq_iff hseed hx).1 hbeq)
      (value_legacy_pos side).ne'

theorem pick_of_passes (hb : b.isNaN = false) (hb' : ¬ side.Passes b) (h : side.Passes x) :
    side.pick b x = x := by
  rcases pick_of_isNumber hb h.isNumber side with ⟨-, hpick⟩ | ⟨hle, -⟩
  · exact hpick
  · exact absurd (h.of_atMost hle) hb'

theorem pick_legacy_of_not_passes (h : ¬ side.Passes x) :
    side.pick (Seed.legacy.value side) x = Seed.legacy.value side := by
  have hseed := Seed.legacy.isNaN_value side
  cases hx : x.isNaN with
  | true => exact pick_of_isNaN hseed hx side
  | false =>
    rcases pick_of_isNumber hseed hx side with ⟨hle, -⟩ | ⟨-, hpick⟩
    · exact absurd (side.passes_legacy.of_atMost hle) h
    · exact hpick

theorem not_passes_pick (hb : b.isNaN = false) (hb' : ¬ side.Passes b) (h : ¬ side.Passes x) :
    (side.pick b x).isNaN = false ∧ ¬ side.Passes (side.pick b x) := by
  cases hx : x.isNaN with
  | true =>
    rw [pick_of_isNaN hb hx]
    exact ⟨hb, hb'⟩
  | false =>
    rcases pick_of_isNumber hb hx side with ⟨-, hpick⟩ | ⟨-, hpick⟩ <;> rw [hpick]
    · exact ⟨hx, h⟩
    · exact ⟨hb, hb'⟩

theorem foldl_pick_seeds (side : Side) (samples : List Float) :
    samples.foldl side.pick (Seed.legacy.value side) =
      samples.foldl side.pick (Seed.infinite.value side) ↔ ∃ x ∈ samples, side.Passes x := by
  -- Until then the legacy seed stays, and the other extreme has not passed.
  have hcases : (samples.foldl side.pick (Seed.legacy.value side) =
        samples.foldl side.pick (Seed.infinite.value side) ∧ ∃ x ∈ samples, side.Passes x) ∨
      (samples.foldl side.pick (Seed.legacy.value side) = Seed.legacy.value side ∧
        (samples.foldl side.pick (Seed.infinite.value side)).isNaN = false ∧
        ¬ side.Passes (samples.foldl side.pick (Seed.infinite.value side)) ∧
        ∀ x ∈ samples, ¬ side.Passes x) := by
    induction samples using List.reverseRecOn with
    | nil => exact .inr ⟨rfl, Seed.infinite.isNaN_value side, side.not_passes_infinite, nofun⟩
    | append_singleton samples x ih =>
      simp only [List.foldl_append, List.foldl_cons, List.foldl_nil]
      rcases ih with ⟨heq, y, hy, hpasses⟩ | ⟨hlegacy, hnum, hnot, hnone⟩
      · exact .inl ⟨by rw [heq], y, List.mem_append_left _ hy, hpasses⟩
      · rw [hlegacy]
        by_cases hx : side.Passes x
        · exact .inl ⟨by rw [pick_legacy_of_passes hx, pick_of_passes hnum hnot hx], x, by simp, hx⟩
        · obtain ⟨hnum', hnot'⟩ := not_passes_pick hnum hnot hx
          refine .inr ⟨pick_legacy_of_not_passes hx, hnum', hnot', fun y hy => ?_⟩
          rcases List.mem_append.1 hy with hy | hy
          · exact hnone y hy
          · exact List.mem_singleton.1 hy ▸ hx
  rcases hcases with ⟨heq, hpasses⟩ | ⟨hlegacy, -, hnot, hnone⟩
  · exact ⟨fun _ => hpasses, fun _ => heq⟩
  · refine ⟨fun heq => absurd side.passes_legacy ?_, fun ⟨x, hx, hpasses⟩ =>
      absurd hpasses (hnone x hx)⟩
    rw [← hlegacy, heq]
    exact hnot

end Side

end Rollup
