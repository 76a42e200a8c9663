import Rollup.Proofs.Machine.Gauge

/-!
Gauges of doubles that need not be numbers.

A double that is no number lies on neither side of anything. So it is counted, but it does not move
the extremes, unless it comes first: then it is both extremes, and no later sample replaces it
(`extremes_of_isNaN`). Behind a number the extremes are those of the numbers alone
(`extremes_of_isNumber`), and it does not matter in which order they come. The counts never depend
on the order (`extremes_of_history`).
-/

namespace Rollup

def numbers (samples : List Float) : List Float := samples.filter (!·.isNaN)

def StartsWithNumber (samples : List Float) : Prop := ∃ x, samples.head? = some x ∧ x.isNaN = false

theorem isNaN_of_mem_numbers {samples : List Float} {x : Float} (h : x ∈ numbers samples) :
    x.isNaN = false :=
  Bool.not_eq_true' _ ▸ (List.mem_filter.1 h).2

theorem numbers_concat (samples : List Float) (x : Float) :
    numbers (samples ++ [x]) = if x.isNaN then numbers samples else numbers samples ++ [x] := by
  rw [numbers, List.filter_append, List.filter_singleton]
  cases x.isNaN
  · rfl
  · exact List.append_nil _

theorem Double.not_lt_of_isNaN {x y : Float} (h : x.isNaN = true ∨ y.isNaN = true) : ¬ x < y := by
  intro hlt
  obtain ⟨hx, hy⟩ := not_isNaN_of_lt hlt
  rw [hx, hy] at h
  cases h <;> contradiction

namespace Gauge

section

variable {g g' : Gauge Float Float} {x m : Float}

theorem moved_congr (h : g.range = g'.range) (x : Float) : g.moved x = g'.moved x := by
  rw [moved, moved, h]

theorem outside_congr (h : g.range = g'.range) (x : Float) : g.outside x = g'.outside x := by
  rw [outside, outside, h]

theorem moved_of_isNaN (hx : x.isNaN = true) : g.moved x = x := by
  unfold moved
  cases g.range with
  | none => rfl
  | some b =>
    simp only [Double.not_lt_of_isNaN (.inl hx), Double.not_lt_of_isNaN (.inr hx), if_false]

theorem outside_of_isNaN (hx : x.isNaN = true) : g.outside x = none := by
  unfold outside
  cases g.range with
  | none => rfl
  | some b =>
    rw [Option.bind_some, if_neg (Double.not_lt_of_isNaN (.inl hx)),
      if_neg (Double.not_lt_of_isNaN (.inr hx))]

theorem min_add_of_isNaN (hm : g.min = some m) (h : x.isNaN = true ∨ m.isNaN = true) :
    (g.add id x).min = some m := by
  rw [min_add, hm, Option.elim_some, if_neg (Double.not_lt_of_isNaN (h.imp_left fun hx =>
    by rwa [moved_of_isNaN hx]))]

theorem max_add_of_isNaN (hm : g.max = some m) (h : x.isNaN = true ∨ m.isNaN = true) :
    (g.add id x).max = some m := by
  rw [max_add, hm, Option.elim_some,
    if_neg (Double.not_lt_of_isNaN (h.imp_left fun hx => by rwa [moved_of_isNaN hx]).symm)]

end

variable (range : Option (Bounds Float))

abbrev ofDoubles (samples : List Float) : Gauge Float Float := ofSamples id range samples

theorem range_ofDoubles_numbers (samples : List Float) :
    (ofDoubles range samples).range = (ofDoubles range (numbers samples)).range := by
  rw [range_ofSamples, range_ofSamples]

theorem outside_ofDoubles_numbers (samples : List Float) :
    (ofDoubles range samples).below = (ofDoubles range (numbers samples)).below ∧
      (ofDoubles range samples).above = (ofDoubles range (numbers samples)).above := by
  induction samples using List.reverseRecOn with
  | nil => exact ⟨rfl, rfl⟩
  | append_singleton samples x ih =>
    rw [numbers_concat, ofDoubles, ofSamples_concat]
    cases hx : x.isNaN with
    | true => simpa only [add, outside_of_isNaN hx, reduceCtorEq, if_false, if_true] using ih
    | false =>
      have houtside := outside_congr (range_ofDoubles_numbers range samples) x
      simp only [Bool.false_eq_true, if_false, ofSamples_concat, add, houtside, ih.1, ih.2,
        and_self]

theorem extremes_of_isNaN {x : Float} (hx : x.isNaN = true) (later : List Float) :
    (ofDoubles range (x :: later)).min = some x ∧ (ofDoubles range (x :: later)).max = some x := by
  -- What is no number is both extremes for good if it comes first.
  induction later using List.reverseRecOn with
  | nil =>
    change ((start range).add id x).min = _ ∧ ((start range).add id x).max = _
    rw [min_add, max_add, moved_of_isNaN hx]
    exact ⟨rfl, rfl⟩
  | append_singleton later y ih =>
    rw [← List.cons_append, ofDoubles, ofSamples_concat]
    exact ⟨min_add_of_isNaN ih.1 (.inr hx), max_add_of_isNaN ih.2 (.inr hx)⟩

theorem extremes_of_isNumber {x : Float} (hx : x.isNaN = false) (later : List Float) :
    ∃ y z, (ofDoubles range (x :: later)).min = some y ∧
      (ofDoubles range (numbers (x :: later))).min = some y ∧
      (ofDoubles range (x :: later)).max = some z ∧
      (ofDoubles range (numbers (x :: later))).max = some z := by
  induction later using List.reverseRecOn with
  | nil =>
    have hnumbers : numbers [x] = [x] := by rw [numbers, List.filter_singleton, hx]; rfl
    rw [hnumbers]
    exact ⟨_, _, rfl, rfl, rfl, rfl⟩
  | append_singleton later w ih =>
    obtain ⟨y, z, hmin, hmin', hmax, hmax'⟩ := ih
    rw [← List.cons_append, numbers_concat, ofDoubles, ofSamples_concat]
    cases hw : w.isNaN with
    | true =>
      exact ⟨y, z, min_add_of_isNaN hmin (.inl hw), hmin', max_add_of_isNaN hmax (.inl hw), hmax'⟩
    | false =>
      simp only [Bool.false_eq_true, if_false, ofSamples_concat]
      rw [min_add, min_add, max_add, max_add, hmin, hmin', hmax, hmax',
        moved_congr (range_ofDoubles_numbers range (x :: later))]
      exact ⟨_, _, rfl, rfl, rfl, rfl⟩

end Gauge

section

variable {range : Option (Bounds Float)} {samples samples' : List Float}
    {fields fields' : Keyed Value}

theorem not_startsWithNumber (hne : samples ≠ []) (h : ¬ StartsWithNumber samples) :
    ∃ x later, samples = x :: later ∧ x.isNaN = true := by
  obtain ⟨x, later, rfl⟩ := List.exists_cons_of_ne_nil hne
  exact ⟨x, later, rfl, by_contra fun hx => h ⟨x, rfl, Bool.eq_false_iff.2 hx⟩⟩

open Sampling in
/-- What a gauge's record says of doubles that need not be numbers. -/
structure Spread (range : Option (Bounds Float)) (samples : List Float) (fields : Keyed Value) :
    Prop where
  extremes : ∃ y z, fields.find? "min" = some (.double y) ∧ fields.find? "max" = some (.double z) ∧
    (StartsWithNumber samples → y.isNaN = false ∧ z.isNaN = false ∧
      IsLeast (doubles.clamped range '' {x | x ∈ numbers samples}) (Double.value y) ∧
      IsGreatest (doubles.clamped range '' {x | x ∈ numbers samples}) (Double.value z)) ∧
    (¬ StartsWithNumber samples → y.isNaN = true ∧ z.isNaN = true)
  count : fields.find? "count" = some (.long (.ofNat samples.length))
  below : fields.find? "below_range" =
    range.map fun b => .long (.ofNat ((numbers samples).countP (Double.value · < doubles.least b)))
  above : fields.find? "above_range" =
    range.map fun b =>
    .long (.ofNat ((numbers samples).countP (doubles.greatest b < Double.value ·)))

theorem Gauge.spread_snapshot (hrange : ∀ x ∈ Sampling.ends range, x.isNaN = false)
    (hne : samples ≠ []) (name : String) :
    ∃ fields, (ofDoubles range samples).snapshot name .double = .record name fields ∧
      Spread range samples fields := by
  obtain ⟨fields, hrecord, -, hmin, hmax, -, hcount, hbounds, hnone⟩ :=
    find?_snapshot name Value.double (ofDoubles range samples)
  have hnumbers (x : Float) (hx : x ∈ numbers samples) : Sampling.doubles.IsNumber x :=
    isNaN_of_mem_numbers hx
  have h := tracks_ofSamples (S := .doubles) hrange hnumbers id
  obtain ⟨hbelow, habove⟩ := outside_ofDoubles_numbers range samples
  have hrange_eq : (ofDoubles range samples).range = range.map Bounds.ordered :=
    range_ofSamples id range samples
  refine ⟨fields, hrecord, ?_, by rw [hcount, count_ofSamples], ?_, ?_⟩
  · by_cases hstarts : StartsWithNumber samples
    · obtain ⟨x, hhead, hx⟩ := hstarts
      obtain ⟨later, rfl⟩ := List.head?_eq_some_iff.1 hhead
      have hsome : numbers (x :: later) ≠ [] := by
        rw [numbers, List.filter_cons_of_pos (by rw [hx]; rfl)]
        exact List.cons_ne_nil _ _
      obtain ⟨y, z, hy, hy', hz, hz'⟩ := extremes_of_isNumber range hx later
      obtain ⟨v, hv, hvmin, hleast⟩ := h.exists_min hrange hnumbers hsome
      obtain ⟨w, hw, hwmax, hgreatest⟩ := h.exists_max hrange hnumbers hsome
      obtain rfl : y = _ := Option.some_inj.1 (hy'.symm.trans hvmin)
      obtain rfl : z = _ := Option.some_inj.1 (hz'.symm.trans hwmax)
      have hvalue {u : Float} (hu : u ∈ numbers (x :: later)) :=
        Sampling.doubles.number_moved hrange h.range_eq (hnumbers u hu)
      rw [← hvalue hv] at hleast
      rw [← hvalue hw] at hgreatest
      refine ⟨_, _,
        by rw [hmin, hy]; rfl, by
          rw [hmax, hz]; rfl, fun _ => ⟨?_, ?_, hleast, hgreatest⟩, fun hnot =>
            absurd ⟨x, hhead, hx⟩ hnot⟩
      · exact Sampling.doubles.isNumber_moved hrange h.range_eq (hnumbers v hv)
      · exact Sampling.doubles.isNumber_moved hrange h.range_eq (hnumbers w hw)
    · obtain ⟨x, later, rfl, hx⟩ := not_startsWithNumber hne hstarts
      obtain ⟨hy, hz⟩ := extremes_of_isNaN range hx later
      exact ⟨x, x,
        by rw [hmin, hy]; rfl, by rw [hmax, hz]; rfl, fun h => absurd h hstarts, fun _ => ⟨hx, hx⟩⟩
  · cases hr : range with
    | none => exact hnone (by rw [hrange_eq, hr]; rfl) _ (by simp)
    | some b =>
      subst hr
      rw [(hbounds b.ordered hrange_eq).2.2.1, hbelow, h.below_eq b rfl]
      rfl
  · cases hr : range with
    | none => exact hnone (by rw [hrange_eq, hr]; rfl) _ (by simp)
    | some b =>
      subst hr
      rw [(hbounds b.ordered hrange_eq).2.2.2, habove, h.above_eq b rfl]
      rfl

namespace Spread

variable (h : Spread range samples fields) (h' : Spread range samples' fields')
    (hperm : samples.Perm samples')

include h h' hperm

theorem counts_of_perm :
    ∀ key ∈ ["count", "below_range", "above_range"], fields.find? key = fields'.find? key := by
  have hnumbers : (numbers samples).Perm (numbers samples') := hperm.filter _
  intro key hkey
  simp only [List.mem_cons, List.not_mem_nil, or_false] at hkey
  rcases hkey with rfl | rfl | rfl
  · rw [h.count, h'.count, hperm.length_eq]
  · simp only [h.below, h'.below, hnumbers.countP_eq]
  · simp only [h.above, h'.above, hnumbers.countP_eq]

theorem extremes_of_perm : ∀ key ∈ ["min", "max"], ∃ y y', fields.find? key = some (.double y) ∧
    fields'.find? key = some (.double y') ∧
    ((y == y') = true ↔ StartsWithNumber samples ∧ StartsWithNumber samples') := by
  obtain ⟨y, z, hy, hz, hnumber, hstray⟩ := h.extremes
  obtain ⟨y', z', hy', hz', hnumber', hstray'⟩ := h'.extremes
  have hset : {x | x ∈ numbers samples} = {x | x ∈ numbers samples'} :=
    Set.ext fun x => (hperm.filter (!·.isNaN)).mem_iff
  rw [← hset] at hnumber'
  have hstarts {v v' : Float} (hv : ¬ StartsWithNumber samples → v.isNaN = true)
      (hv' : ¬ StartsWithNumber samples' → v'.isNaN = true) (heq : (v == v') = true) :
      StartsWithNumber samples ∧ StartsWithNumber samples' := by
    obtain ⟨hnum, hnum'⟩ := Double.not_isNaN_of_beq heq
    exact ⟨by_contra fun hnot => Bool.noConfusion ((hv hnot).symm.trans hnum),
      by_contra fun hnot => Bool.noConfusion ((hv' hnot).symm.trans hnum')⟩
  intro key hkey
  simp only [List.mem_cons, List.not_mem_nil, or_false] at hkey
  rcases hkey with rfl | rfl
  · refine ⟨y, y', hy, hy', hstarts (fun hnot => (hstray hnot).1) (fun hnot => (hstray' hnot).1),
      fun hboth => ?_⟩
    obtain ⟨hnum, -, hleast, -⟩ := hnumber hboth.1
    obtain ⟨hnum', -, hleast', -⟩ := hnumber' hboth.2
    exact (Double.beq_iff hnum hnum').2 (hleast.unique hleast')
  · refine ⟨z, z', hz, hz', hstarts (fun hnot => (hstray hnot).2) (fun hnot => (hstray' hnot).2),
      fun hboth => ?_⟩
    obtain ⟨-, hnum, -, hgreatest⟩ := hnumber hboth.1
    obtain ⟨-, hnum', -, hgreatest'⟩ := hnumber' hboth.2
    exact (Double.beq_iff hnum hnum').2 (hgreatest.unique hgreatest')

end Spread

end

namespace Machine

/-- A gauge of doubles answers every sample with the extremes and the counts of the samples since
the last reset, if the ends of its range are numbers. The extremes are those of the samples that are
numbers if the first sample is one, and else no numbers at all, whatever follows. In another order
the same samples have the same counts, and they have equal extremes exactly if both orders start
with a number. -/
theorem extremes_of_history (range : Option (Bounds Float))
    (hrange : ∀ y ∈ Sampling.ends range, y.isNaN = false)
    (c : Config) (opened : Nat) (earlier : List Step) (r : Resolver) (now : Nat) {args : List Value}
    {x : Float} (hx : args.head?.bind Value.number? = some x) :
    let m := (start (.gaugeFp range) c opened).after earlier
    let samples := offered Value.number? earlier ++ [x]
    ∃ fields, (m.eval r now args).1 = .ok (.record (Plan.gaugeFp range).kind.name fields) ∧
      (m.eval r now args).2.shown? = some (.record (Plan.gaugeFp range).kind.name fields) ∧
      Spread range samples fields ∧
      ∀ others, samples.Perm (offered Value.number? others) →
        ∃ fields', ((start (.gaugeFp range) c opened).after others).shown? =
            some (.record (Plan.gaugeFp range).kind.name fields') ∧
          (∀ key ∈ ["count", "below_range", "above_range"], fields.find? key = fields'.find? key) ∧
          ∀ key ∈ ["min", "max"], ∃ y y', fields.find? key = some (.double y) ∧
            fields'.find? key = some (.double y') ∧
            ((y == y') = true ↔ StartsWithNumber samples ∧
            StartsWithNumber (offered Value.number? others)) := by
  intro m samples
  have hne : samples ≠ [] := List.concat_ne_nil x _
  obtain ⟨hanswer, hshown⟩ := Gauging.doubles.eval_of_read range c opened hx earlier r now
  obtain ⟨fields, hrecord, hspread⟩ := Gauge.spread_snapshot hrange hne
    (Plan.gaugeFp range).kind.name
  refine ⟨fields, hanswer.trans (congrArg _ hrecord), hshown.trans (congrArg _ hrecord), hspread,
    fun others hperm => ?_⟩
  have hne' : offered Value.number? others ≠ [] := fun hnil => hne (List.perm_nil.1 (hnil ▸ hperm))
  obtain ⟨fields', hrecord', hspread'⟩ := Gauge.spread_snapshot hrange hne'
    (Plan.gaugeFp range).kind.name
  have hshown' := Gauging.doubles.shown?_after range c opened others
  exact ⟨fields', hshown'.trans (congrArg _ hrecord'), hspread.counts_of_perm hspread' hperm,
    hspread.extremes_of_perm hspread' hperm⟩

theorem extremes_of_history_stray :
    let range : Option (Bounds Float) := some ⟨Double.ofNat 9, Double.ofNat 1⟩
    let m := (start (.gaugeFp range) {} 0).after
      [.eval .none 1 [.int 5], .reset 2, .eval .none 3 [.double Double.nan],
        .eval .none 4 [.string "7"]]
    let m' := (start (.gaugeFp range) {} 0).after [.eval .none 1 [.short 10],
      .eval .none 2 [.double Double.nan]]
    ∃ fields fields', (m.eval .none 5 [.short 10]).1 = .ok (.record "ranged_gauge_fp" fields) ∧
      m'.shown? = some (.record "ranged_gauge_fp" fields') ∧
      Spread range [Double.nan, Double.ofInt 10] fields ∧
      fields.find? "above_range" = fields'.find? "above_range" ∧
      ∃ y y', fields.find? "min" = some (.double y) ∧ fields'.find? "min" = some (.double y') ∧
      (y == y') = false := by
  intro range m m'
  have hread : [Value.short 10].head?.bind Value.number? = some (Double.ofInt 10) := rfl
  obtain ⟨fields, hanswer, -, hspread, hothers⟩ :=
    extremes_of_history range (by decide +kernel) {} 0
    [.eval .none 1 [.int 5], .reset 2, .eval .none 3 [.double Double.nan],
      .eval .none 4 [.string "7"]] .none 5 hread
  obtain ⟨fields', hshown, hcounts, hextremes⟩ :=
    hothers [.eval .none 1 [.short 10], .eval .none 2 [.double Double.nan]] (.swap _ _ _)
  obtain ⟨y, y', hy, hy', hbeq⟩ := hextremes "min" (by simp)
  have hstray : ¬ StartsWithNumber [Double.nan, Double.ofInt 10] := by
    rintro ⟨x, hhead, hx⟩
    obtain rfl := Option.some_inj.1 hhead
    revert hx
    decide +kernel
  exact ⟨fields, fields', hanswer, hshown, hspread, hcounts _ (by simp), y, y', hy, hy',
    Bool.eq_false_iff.2 fun heq => hstray (hbeq.1 heq).1⟩

end Machine

end Rollup
