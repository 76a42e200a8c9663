import Rollup.Aggregate.Gauge
import Rollup.Proofs.Aggregate.Pearson
import Rollup.Proofs.Number.Nearest

namespace Rollup

instance : Scalar ℚ where
  ofCount n := n

/-- What samples stand for, and what becomes of them. -/
structure Sampling (α : Type) [LT α] where
  number : α → ℚ
  IsNumber : α → Prop
  value : α → Value
  widen : α → Float
  lt_iff : ∀ {x y}, IsNumber x → IsNumber y → (x < y ↔ number x < number y)
  isNearest_widen : ∀ {x}, IsNumber x → Double.IsNearest (number x) (widen x)

namespace Sampling

def doubles : Sampling Float where
  number := Double.value
  IsNumber x := x.isNaN = false
  value := .double
  widen := id
  lt_iff := Double.lt_iff
  isNearest_widen h := .of_hasValue ⟨h, rfl⟩

def integers : Sampling Int64 where
  number n := n.toInt
  IsNumber _ := True
  value := .long
  widen n := Double.ofInt n.toInt
  lt_iff _ _ := by rw [Int64.lt_iff_toInt_lt, Int.cast_lt]
  isNearest_widen _ := Double.isNearest_ofInt _

variable {α : Type} [LT α] (S : Sampling α)

def ends : Option (Bounds α) → List α
  | none => []
  | some b => [b.lower, b.upper]

def least (b : Bounds α) : ℚ := min (S.number b.lower) (S.number b.upper)

def greatest (b : Bounds α) : ℚ := max (S.number b.lower) (S.number b.upper)

def clamped : Option (Bounds α) → α → ℚ
  | none, x => S.number x
  | some b, x => max (S.least b) (min (S.greatest b) (S.number x))

theorem least_le_greatest (b : Bounds α) : S.least b ≤ S.greatest b :=
  (min_le_left _ _).trans (le_max_left _ _)

theorem clamped_within (b : Bounds α) (x : α) :
    S.least b ≤ S.clamped (some b) x ∧ S.clamped (some b) x ≤ S.greatest b :=
  ⟨le_max_left _ _, max_le (S.least_le_greatest b) (min_le_left _ _)⟩

section

variable [DecidableLT α] {range : Option (Bounds α)} (hrange : ∀ x ∈ ends range, S.IsNumber x)

section

variable {b : Bounds α} (hb : b ∈ range)

include hb

theorem ordered_mem : b.ordered.lower ∈ ends range ∧ b.ordered.upper ∈ ends range := by
  obtain rfl := Option.mem_def.1 hb
  unfold Bounds.ordered
  split <;> simp [ends]

include hrange

theorem number_ordered :
    S.number b.ordered.lower = S.least b ∧ S.number b.ordered.upper = S.greatest b := by
  have hlt : b.upper < b.lower ↔ S.number b.upper < S.number b.lower := by
    obtain rfl := Option.mem_def.1 hb
    exact S.lt_iff (hrange _ (by simp [ends])) (hrange _ (by simp [ends]))
  unfold Bounds.ordered least greatest
  split
  · rename_i h
    rw [hlt] at h
    exact ⟨(min_eq_right h.le).symm, (max_eq_left h.le).symm⟩
  · rename_i h
    rw [hlt, not_lt] at h
    exact ⟨(min_eq_left h).symm, (max_eq_right h).symm⟩

theorem lt_ordered {x : α} (hx : S.IsNumber x) :
    (x < b.ordered.lower ↔ S.number x < S.least b) ∧
      (b.ordered.upper < x ↔ S.greatest b < S.number x) := by
  obtain ⟨hlower, hupper⟩ := S.number_ordered hrange hb
  obtain ⟨hmem, hmem'⟩ := ordered_mem hb
  rw [S.lt_iff hx (hrange _ hmem), S.lt_iff (hrange _ hmem') hx, hlower, hupper]
  exact ⟨.rfl, .rfl⟩

end

section

variable {μ : Type} {g : Gauge α μ} (hg : g.range = range.map Bounds.ordered) {x : α}

include hg

theorem moved_mem : g.moved x ∈ x :: ends range := by
  unfold Gauge.moved
  rw [hg]
  cases range with
  | none => exact List.mem_cons_self
  | some b =>
    obtain ⟨hmem, hmem'⟩ := ordered_mem (Option.mem_some_self b)
    dsimp only [Option.map_some]
    split
    · exact List.mem_cons_of_mem _ hmem
    · split
      · exact List.mem_cons_of_mem _ hmem'
      · exact List.mem_cons_self

variable (hx : S.IsNumber x)

include hrange hx

theorem isNumber_moved : S.IsNumber (g.moved x) := by
  rcases List.mem_cons.1 (moved_mem hg (x := x)) with heq | hmem
  · rwa [heq]
  · exact hrange _ hmem

theorem number_moved : S.number (g.moved x) = S.clamped range x := by
  unfold Gauge.moved clamped
  rw [hg]
  cases range with
  | none => rfl
  | some b =>
    obtain ⟨hlower, hupper⟩ := S.number_ordered hrange (Option.mem_some_self b)
    obtain ⟨hbelow, habove⟩ := S.lt_ordered hrange (Option.mem_some_self b) hx
    dsimp only [Option.map_some]
    split
    · rename_i h
      rw [hbelow] at h
      rw [hlower, max_eq_left ((min_le_right _ _).trans h.le)]
    · rename_i h
      rw [hbelow, not_lt] at h
      split
      · rename_i h'
        rw [habove] at h'
        rw [hupper, min_eq_left h'.le, max_eq_right (S.least_le_greatest b)]
      · rename_i h'
        rw [habove, not_lt] at h'
        rw [min_eq_right h', max_eq_right h]

theorem outside_iff {b : Bounds α} (hb : b ∈ range) :
    (g.outside x = some .lt ↔ S.number x < S.least b) ∧
      (g.outside x = some .gt ↔ S.greatest b < S.number x) := by
  obtain ⟨hbelow, habove⟩ := S.lt_ordered hrange hb hx
  have hnotboth (h : S.number x < S.least b) : ¬ S.greatest b < S.number x :=
    not_lt.2 (h.le.trans (S.least_le_greatest b))
  rw [← hbelow, ← habove] at hnotboth ⊢
  obtain rfl := Option.mem_def.1 hb
  unfold Gauge.outside
  rw [hg]
  dsimp only [Option.map_some, Option.bind_some]
  split
  · rename_i h
    simp [h, hnotboth h]
  · rename_i h
    simp [h]

end

end

end Sampling

structure IsExtremal (f : α → ℚ) (items : List α) (m : Option α) : Prop where
  mem : ∀ y ∈ m, y ∈ items
  le : ∀ z ∈ items, ∃ y ∈ m, f y ≤ f z

theorem IsExtremal.nil (f : α → ℚ) : IsExtremal f [] none := ⟨nofun, nofun⟩

theorem IsExtremal.concat {f : α → ℚ} {items : List α} {m : Option α} (h : IsExtremal f items m)
    {r : α → α → Prop} [DecidableRel r] {y : α} (hr : ∀ old ∈ m, r y old ↔ f y < f old) :
    IsExtremal f (items ++ [y]) (some (m.elim y fun old => if r y old then y else old)) := by
  cases m with
  | none =>
    refine ⟨fun z hz => ?_, fun z hz => ⟨y, rfl, ?_⟩⟩
    · rw [← Option.mem_some.1 hz]
      exact List.mem_concat_self
    · rcases List.mem_append.1 hz with hmem | hmem
      · obtain ⟨_, hnone, -⟩ := h.le z hmem
        cases hnone
      · rw [List.mem_singleton.1 hmem]
  | some old =>
    have hr := hr old rfl
    have hold (z : α) (hz : z ∈ items) : f old ≤ f z := by
      obtain ⟨w, hw, hle⟩ := h.le z hz
      rwa [Option.mem_some.1 hw]
    dsimp only [Option.elim_some]
    split
    · rename_i hlt
      rw [hr] at hlt
      refine ⟨fun z hz => ?_, fun z hz => ⟨y, rfl, ?_⟩⟩
      · rw [← Option.mem_some.1 hz]
        exact List.mem_concat_self
      · rcases List.mem_append.1 hz with hmem | hmem
        · exact hlt.le.trans (hold z hmem)
        · rw [List.mem_singleton.1 hmem]
    · rename_i hge
      rw [hr, not_lt] at hge
      refine ⟨fun z hz => List.mem_append_left _ (h.mem z hz), fun z hz => ⟨old, rfl, ?_⟩⟩
      rcases List.mem_append.1 hz with hmem | hmem
      · exact hold z hmem
      · rwa [List.mem_singleton.1 hmem]

theorem IsExtremal.exists_eq {f : α → ℚ} {g : β → α} {items : List β} {m : Option α}
    (h : IsExtremal f (items.map g) m) (hne : items ≠ []) :
    ∃ y ∈ items, m = some (g y) ∧ ∀ z ∈ items, f (g y) ≤ f (g z) := by
  obtain ⟨x, hx⟩ := List.exists_mem_of_ne_nil items hne
  obtain ⟨w, rfl, -⟩ := h.le (g x) (List.mem_map_of_mem hx)
  obtain ⟨y, hy, rfl⟩ := List.mem_map.1 (h.mem w rfl)
  refine ⟨y, hy, rfl, fun z hz => ?_⟩
  obtain ⟨w, hw, hle⟩ := h.le (g z) (List.mem_map_of_mem hz)
  rwa [Option.mem_some.1 hw]

namespace Gauge

def ofSamples [LT α] [DecidableLT α] [Scalar μ] (widen : α → μ) (range : Option (Bounds α))
    (samples : List α) :
    Gauge α μ :=
  samples.foldl (add widen) (start range)

/-- What a gauge keeps of samples. -/
structure Tracks [LT α] [DecidableLT α] (S : Sampling α) (range : Option (Bounds α))
    (samples : List α) (g : Gauge α μ) : Prop where
  range_eq : g.range = range.map Bounds.ordered
  last_eq : g.last = samples.getLast?.map g.moved
  min : IsExtremal S.number (samples.map g.moved) g.min
  max : IsExtremal (fun x => -S.number x) (samples.map g.moved) g.max
  count_eq : g.count = samples.length
  below_eq : ∀ b ∈ range, g.below = samples.countP fun x => S.number x < S.least b
  above_eq : ∀ b ∈ range, g.above = samples.countP fun x => S.greatest b < S.number x

section

variable [LT α] [DecidableLT α] {S : Sampling α} {range : Option (Bounds α)}
    {samples : List α} {g : Gauge α μ}
  (h : Tracks S range samples g) (hrange : ∀ x ∈ Sampling.ends range, S.IsNumber x)
  (hsamples : ∀ x ∈ samples, S.IsNumber x) (hne : samples ≠ [])

include h hrange hsamples hne

theorem Tracks.exists_min :
    ∃ y ∈ samples, g.min = some (g.moved y) ∧
      IsLeast (S.clamped range '' {x | x ∈ samples}) (S.clamped range y) := by
  have hmoved {x : α} (hx : x ∈ samples) := S.number_moved hrange h.range_eq (hsamples x hx)
  obtain ⟨y, hy, hmin, hle⟩ := h.min.exists_eq hne
  refine ⟨y, hy, hmin, ⟨y, hy, rfl⟩, ?_⟩
  rintro _ ⟨x, hx, rfl⟩
  rw [← hmoved hy, ← hmoved hx]
  exact hle x hx

theorem Tracks.exists_max :
    ∃ y ∈ samples, g.max = some (g.moved y) ∧
      IsGreatest (S.clamped range '' {x | x ∈ samples}) (S.clamped range y) := by
  have hmoved {x : α} (hx : x ∈ samples) := S.number_moved hrange h.range_eq (hsamples x hx)
  obtain ⟨y, hy, hmax, hle⟩ := h.max.exists_eq hne
  refine ⟨y, hy, hmax, ⟨y, hy, rfl⟩, ?_⟩
  rintro _ ⟨x, hx, rfl⟩
  rw [← hmoved hy, ← hmoved hx]
  exact neg_le_neg_iff.1 (hle x hx)

end

section

variable [LT α] [DecidableLT α] [Scalar μ] {S : Sampling α} {range : Option (Bounds α)}
    {samples : List α}

theorem tracks_start (S : Sampling α) (range : Option (Bounds α)) :
    Tracks S range [] (start range : Gauge α μ) :=
  ⟨rfl, rfl, .nil _, .nil _, rfl, fun _ _ => rfl, fun _ _ => rfl⟩

theorem min_add (widen : α → μ) (g : Gauge α μ) (x : α) :
    (g.add widen x).min = some (g.min.elim (g.moved x) fun old =>
      if g.moved x < old then g.moved x else old) := by
  unfold Gauge.add
  cases g.min <;> rfl

theorem max_add (widen : α → μ) (g : Gauge α μ) (x : α) :
    (g.add widen x).max = some (g.max.elim (g.moved x) fun old =>
      if old < g.moved x then g.moved x else old) := by
  unfold Gauge.add
  cases g.max <;> rfl

theorem Tracks.add {g : Gauge α μ} (h : Tracks S range samples g)
    (hrange : ∀ x ∈ Sampling.ends range, S.IsNumber x)
    (hsamples : ∀ x ∈ samples, S.IsNumber x) {x : α} (hx : S.IsNumber x) (widen : α → μ) :
    Tracks S range (samples ++ [x]) (g.add widen x) := by
  have hmoved : (g.add widen x).moved = g.moved := rfl
  have hitem := S.isNumber_moved hrange h.range_eq hx
  have hold {y : α} (hy : y ∈ samples.map g.moved) : S.IsNumber y := by
    obtain ⟨z, hz, rfl⟩ := List.mem_map.1 hy
    exact S.isNumber_moved hrange h.range_eq (hsamples z hz)
  refine ⟨h.range_eq, ?_, ?_, ?_, ?_, fun b hb => ?_, fun b hb => ?_⟩
  · rw [hmoved, List.getLast?_concat]
    rfl
  · rw [hmoved, List.map_append, min_add]
    exact h.min.concat fun old hmem => S.lt_iff hitem (hold (h.min.mem old hmem))
  · rw [hmoved, List.map_append, max_add]
    exact h.max.concat (r := fun y old => old < y) fun old hmem => by
      rw [S.lt_iff (hold (h.max.mem old hmem)) hitem, neg_lt_neg_iff]
  · rw [List.length_append, ← h.count_eq]
    rfl
  · obtain ⟨hbelow, -⟩ := S.outside_iff hrange h.range_eq hx hb
    rw [List.countP_append, ← h.below_eq b hb, List.countP_singleton]
    simp only [Gauge.add, hbelow, decide_eq_true_eq]
    split <;> rfl
  · obtain ⟨-, habove⟩ := S.outside_iff hrange h.range_eq hx hb
    rw [List.countP_append, ← h.above_eq b hb, List.countP_singleton]
    simp only [Gauge.add, habove, decide_eq_true_eq]
    split <;> rfl

theorem ofSamples_concat (widen : α → μ) (range : Option (Bounds α)) (samples : List α) (x : α) :
    ofSamples widen range (samples ++ [x]) = (ofSamples widen range samples).add widen x := by
  rw [ofSamples, List.foldl_append]
  rfl

theorem range_ofSamples (widen : α → μ) (range : Option (Bounds α)) (samples : List α) :
    (ofSamples widen range samples).range = range.map Bounds.ordered := by
  induction samples using List.reverseRecOn with
  | nil => rfl
  | append_singleton samples x ih => rwa [ofSamples_concat]

theorem count_ofSamples (widen : α → μ) (range : Option (Bounds α)) (samples : List α) :
    (ofSamples widen range samples).count = samples.length := by
  induction samples using List.reverseRecOn with
  | nil => rfl
  | append_singleton samples x ih =>
    rw [ofSamples_concat, List.length_append, ← ih]
    rfl

theorem tracks_ofSamples (hrange : ∀ x ∈ Sampling.ends range, S.IsNumber x)
    (hsamples : ∀ x ∈ samples, S.IsNumber x)
    (widen : α → μ) : Tracks S range samples (ofSamples widen range samples) := by
  induction samples using List.reverseRecOn with
  | nil => exact tracks_start S range
  | append_singleton samples x ih =>
    have hearlier (y : α) (hy : y ∈ samples) : S.IsNumber y :=
      hsamples y (List.mem_append_left _ hy)
    rw [ofSamples_concat]
    exact (ih hearlier).add hrange hearlier (hsamples x List.mem_concat_self) widen

theorem mean_ofSamples (hrange : ∀ x ∈ Sampling.ends range, S.IsNumber x)
    (hsamples : ∀ x ∈ samples, S.IsNumber x) :
    (ofSamples S.number range samples : Gauge α ℚ).mean =
      Rollup.mean (S.clamped range) samples := by
  induction samples using List.reverseRecOn with
  | nil => simp [ofSamples, start, Scalar.ofCount, Rollup.mean]
  | append_singleton samples x ih =>
    have hearlier (y : α) (hy : y ∈ samples) : S.IsNumber y :=
      hsamples y (List.mem_append_left _ hy)
    have htracks := tracks_ofSamples (μ := ℚ) hrange hearlier S.number
    have hshare : (Scalar.ofCount ((ofSamples S.number range samples : Gauge α ℚ).count + 1) : ℚ) =
        samples.length + 1 := by
      rw [htracks.count_eq]
      exact Nat.cast_succ _
    rw [ofSamples_concat, mean_concat, ← ih hearlier, add,
      S.number_moved hrange htracks.range_eq (hsamples x List.mem_concat_self), hshare]

end

theorem find?_snapshot [LT α] [DecidableLT α] (name : String) (value : α →
    Value) (g : Gauge α Float) :
    ∃ fields, g.snapshot name value = .record name fields ∧
      fields.find? "value" = some ((g.last.map value).getD .null) ∧
      fields.find? "min" = some ((g.min.map value).getD .null) ∧
      fields.find? "max" = some ((g.max.map value).getD .null) ∧
      fields.find? "mean" = some (.double (if g.count = 0 then Double.nan else g.mean)) ∧
      fields.find? "count" = some (.long (.ofNat g.count)) ∧
      (∀ b ∈ g.range, fields.find? "lower_bound" = some (value b.lower) ∧
        fields.find? "upper_bound" = some (value b.upper) ∧
        fields.find? "below_range" = some (.long (.ofNat g.below)) ∧
        fields.find? "above_range" = some (.long (.ofNat g.above))) ∧
      (g.range = none → ∀ key ∈ ["lower_bound", "upper_bound", "below_range", "above_range"],
        fields.find? key = none) := by
  refine ⟨_, rfl, ?_⟩
  cases g.range with
  | none =>
    simp only [Keyed.find?_ofList]
    refine ⟨rfl, rfl, rfl, rfl, rfl, nofun, fun _ key hkey => ?_⟩
    simp only [List.mem_cons, List.not_mem_nil, or_false] at hkey
    rcases hkey with rfl | rfl | rfl | rfl <;> rfl
  | some b =>
    simp only [Keyed.find?_insertAll, Keyed.find?_ofList]
    refine ⟨rfl, rfl, rfl, rfl, rfl, fun b' hb => ?_, nofun⟩
    cases hb
    exact ⟨rfl, rfl, rfl, rfl⟩

end Gauge

def Sampling.Shows [LT α] (S : Sampling α) (fields : Keyed Value) (key : String)
    (among : List α) (q : ℚ) : Prop :=
  ∃ y ∈ among, fields.find? key = some (S.value y) ∧ S.number y = q

def ShowsCount (fields : Keyed Value) (key : String) (n : Nat) : Prop :=
  ∃ k : Int64, fields.find? key = some (.long k) ∧ k.toInt = n

open Sampling in
/-- What a gauge's record says of the samples that the gauge was given. -/
structure Summary [LT α] [DecidableLT α] (S : Sampling α) (range : Option (Bounds α))
    (samples : List α) (fields : Keyed Value) : Prop where
  numbers : ∃ x least greatest, samples.getLast? = some x ∧
    S.Shows fields "value" (x :: ends range) (S.clamped range x) ∧
    S.Shows fields "min" (samples ++ ends range) least ∧
    S.Shows fields "max" (samples ++ ends range) greatest ∧
    IsLeast (S.clamped range '' {y | y ∈ samples}) least ∧
    IsGreatest (S.clamped range '' {y | y ∈ samples}) greatest ∧
    least ≤ S.clamped range x ∧ S.clamped range x ≤ greatest ∧
    ∀ b ∈ range, S.least b ≤ least ∧ greatest ≤ S.greatest b
  count : ShowsCount fields "count" samples.length
  mean : fields.find? "mean" = some (.double (Gauge.ofSamples S.widen range samples).mean)
  exact_mean : (Gauge.ofSamples S.number range samples : Gauge α ℚ).mean =
    (samples.map (S.clamped range)).sum / samples.length
  bounds : ∀ b ∈ range, S.Shows fields "lower_bound" (ends range) (S.least b) ∧
    S.Shows fields "upper_bound" (ends range) (S.greatest b)
  outside : ∀ b ∈ range, ∃ below above, below = samples.countP (S.number · < S.least b) ∧
    above = samples.countP (S.greatest b < S.number ·) ∧ ShowsCount fields "below_range" below ∧
    ShowsCount fields "above_range" above ∧ below + above ≤ samples.length
  unbounded : range = none → ∀ key ∈ ["lower_bound", "upper_bound", "below_range", "above_range"],
    fields.find? key = none

theorem Sampling.countP_add_le [LT α] (S : Sampling α) (b : Bounds α) (samples : List α) :
    (samples.countP fun x => S.number x < S.least b) + (samples.countP fun x =>
      S.greatest b < S.number x) ≤
      samples.length := by
  have hsum := List.length_eq_countP_add_countP (fun x => decide (S.number x < S.least b))
    (l := samples)
  have hle : (samples.countP fun x => S.greatest b < S.number x) ≤
      samples.countP fun x => ¬ decide (S.number x < S.least b) = true := by
    refine List.countP_mono_left fun x _ habove => ?_
    simp only [decide_eq_true_eq, not_lt] at habove ⊢
    exact (S.least_le_greatest b).trans habove.le
  omega

theorem Gauge.summary_snapshot [LT α] [DecidableLT α] {S : Sampling α} {range : Option (Bounds α)}
    {samples : List α}
    (hrange : ∀ x ∈ Sampling.ends range, S.IsNumber x) (hsamples : ∀ x ∈ samples, S.IsNumber x)
    (hne : samples ≠ []) (hlength : samples.length < 2 ^ 63) (name : String) :
    ∃ fields, (ofSamples S.widen range samples).snapshot name S.value = .record name fields ∧
      Summary S range samples fields := by
  obtain ⟨fields, hrecord, hvalue, hmin, hmax, hmean, hcount, hbounds, hnone⟩ :=
    find?_snapshot name S.value (ofSamples S.widen range samples)
  have h := tracks_ofSamples hrange hsamples S.widen
  have hcounts {n : Nat} (hn : n ≤ samples.length) : (Int64.ofNat n).toInt = n :=
    Int64.toInt_ofNat_of_lt (hn.trans_lt hlength)
  have hmoved {x : α} (hx : x ∈ samples) := S.number_moved hrange h.range_eq (hsamples x hx)
  have hshown {key : String} {m : Option α} {x : α} (hx : x ∈ samples)
      (hm : m = some ((ofSamples S.widen range samples).moved x))
      (hkey : fields.find? key = some ((m.map S.value).getD .null)) :
      S.Shows fields key (x :: Sampling.ends range) (S.clamped range x) := by
    subst hm
    exact ⟨_, Sampling.moved_mem h.range_eq, hkey, hmoved hx⟩
  have hmem {x : α} (hx : x ∈ samples) :
      ∀ y ∈ x :: Sampling.ends range, y ∈ samples ++ Sampling.ends range := by
    intro y hy
    rcases List.mem_cons.1 hy with rfl | hy
    · exact List.mem_append_left _ hx
    · exact List.mem_append_right _ hy
  refine ⟨fields, hrecord, ?_, ⟨_, hcount, by rw [h.count_eq, hcounts le_rfl]⟩, ?_,
    mean_ofSamples hrange hsamples, fun b hb => ?_, fun b hb => ?_, fun hr =>
    hnone (by rw [h.range_eq, hr]; rfl)⟩
  · obtain ⟨x, hx, hlast⟩ : ∃ x ∈ samples, samples.getLast? = some x :=
      ⟨_, List.getLast_mem hne, List.getLast?_eq_some_getLast hne⟩
    obtain ⟨y, hy, hymin, hleast⟩ := h.exists_min hrange hsamples hne
    obtain ⟨z, hz, hzmax, hgreatest⟩ := h.exists_max hrange hsamples hne
    refine ⟨x, S.clamped range y, S.clamped range z, hlast,
      hshown hx (by rw [h.last_eq, hlast]; rfl) hvalue, (hshown hy hymin hmin).imp fun w hw =>
      ⟨hmem hy w hw.1, hw.2⟩, (hshown hz hzmax hmax).imp fun w hw => ⟨hmem hz w hw.1, hw.2⟩,
      hleast, hgreatest, hleast.2 ⟨x, hx, rfl⟩, hgreatest.2 ⟨x, hx, rfl⟩, fun b hb => ?_⟩
    obtain rfl := Option.mem_def.1 hb
    exact ⟨(S.clamped_within b y).1, (S.clamped_within b z).2⟩
  · rwa [h.count_eq, if_neg (mt List.length_eq_zero_iff.1 hne)] at hmean
  · obtain ⟨hlower, hupper, -⟩ := hbounds b.ordered (h.range_eq ▸ Option.mem_map_of_mem _ hb)
    obtain ⟨hmem, hmem'⟩ := Sampling.ordered_mem hb
    obtain ⟨hleast, hgreatest⟩ := S.number_ordered hrange hb
    exact ⟨⟨_, hmem, hlower, hleast⟩, ⟨_, hmem', hupper, hgreatest⟩⟩
  · obtain ⟨-, -, hbelow, habove⟩ := hbounds b.ordered (h.range_eq ▸ Option.mem_map_of_mem _ hb)
    refine ⟨_, _, rfl, rfl, ⟨_, hbelow, ?_⟩, ⟨_, habove, ?_⟩, S.countP_add_le b samples⟩
    · rw [h.below_eq b hb, hcounts List.countP_le_length]
    · rw [h.above_eq b hb, hcounts List.countP_le_length]

end Rollup
