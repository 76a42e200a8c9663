import Rollup.Proofs.Aggregate.Gauge
import Rollup.Proofs.Machine.Recorder
import Rollup.Proofs.Number.Quotient

namespace Rollup

/-- How many samples differ from the one before them. -/
def changes (samples : List Bool) : Nat := (samples.zip samples.tail).countP fun p => p.1 != p.2

theorem changes_concat (samples : List Bool) (b : Bool) :
    changes (samples ++ [b]) = changes samples + if samples.getLast? = some !b then 1 else 0 := by
  induction samples with
  | nil => rfl
  | cons a samples ih =>
    cases samples with
    | nil => cases a <;> cases b <;> rfl
    | cons a' samples =>
      have hcons (l : List Bool) :
          changes (a :: a' :: l) = changes (a' :: l) + if a != a' then 1 else 0 :=
        List.countP_cons
      rw [List.cons_append, List.cons_append, hcons, hcons, List.getLast?_cons_cons,
        ← List.cons_append, ih]
      omega

theorem changes_le (samples : List Bool) : changes samples ≤ samples.length - 1 := by
  refine List.countP_le_length.trans ?_
  rw [List.length_zip, List.length_tail]
  exact min_le_right _ _

theorem changes_add_le (samples : List Bool) (b : Bool) :
    changes samples + (if samples.getLast? = some b then 1 else 0) ≤ 2 * samples.count b := by
  -- Two changes away from a sample stand around a change to it.
  induction samples using List.reverseRecOn with
  | nil => exact le_rfl
  | append_singleton samples x ih =>
    rw [changes_concat, List.getLast?_concat, List.count_append, List.count_singleton]
    by_cases hx : x = b
    · subst hx
      rw [if_pos rfl, if_pos (beq_self_eq_true x)]
      split <;> split at ih <;> omega
    · have hnot : (!x) = b := by cases x <;> cases b <;> trivial
      rw [hnot, if_neg (mt Option.some_inj.1 hx), if_neg (mt eq_of_beq hx)]
      exact ih

theorem even_changes_iff (samples : List Bool) :
    Even (changes samples) ↔ samples.head? = samples.getLast? := by
  induction samples using List.reverseRecOn with
  | nil => exact ⟨fun _ => rfl, fun _ => .zero⟩
  | append_singleton samples x ih =>
    rw [changes_concat, List.getLast?_concat, List.head?_append]
    cases hhead : samples.head? with
    | none =>
      rw [List.head?_eq_none_iff.1 hhead]
      exact ⟨fun _ => rfl, fun _ => .zero⟩
    | some first =>
      rw [hhead] at ih
      obtain ⟨last, hlast⟩ : ∃ last, samples.getLast? = some last := by
        rw [← Option.isSome_iff_exists, List.getLast?_isSome]
        rintro rfl
        cases hhead
      rw [hlast, Option.some_inj] at ih
      simp only [hlast, Option.some_or, Option.some_inj]
      split
      · rename_i hchange
        rw [Nat.even_add_one, ih, hchange]
        cases first <;> cases x <;> decide
      · rename_i hsame
        have heq : last = x := by cases last <;> cases x <;> first | rfl | exact absurd rfl hsame
        rw [Nat.add_zero, ih, heq]

namespace Tally

theorem ofSamples_eq (samples : List Bool) :
    samples.foldl add start =
      ⟨samples.getLast?, samples.count true, samples.count false, changes samples⟩ := by
  induction samples using List.reverseRecOn with
  | nil => rfl
  | append_singleton samples x ih =>
    rw [List.foldl_append, ih, List.getLast?_concat, List.count_append,
      List.count_append, changes_concat]
    simp only [List.foldl_cons, List.foldl_nil, add, Tally.mk.injEq, true_and]
    refine ⟨?_, ?_, by split <;> rfl⟩ <;> cases x <;> rfl

theorem find?_snapshot (t : Tally) :
    ∃ fields, t.snapshot = .record "flag" fields ∧
      fields.find? "value" = some ((t.last.map Value.bool).getD .null) ∧
      fields.find? "true_count" = some (.long (.ofNat t.trues)) ∧
      fields.find? "false_count" = some (.long (.ofNat t.falses)) ∧
      fields.find? "flips" = some (.long (.ofNat t.flips)) ∧
      fields.find? "true_ratio" = some (.double t.ratio) := by
  refine ⟨_, rfl, ?_⟩
  simp only [Keyed.find?_ofList]
  exact ⟨rfl, rfl, rfl, rfl, rfl⟩

end Tally

structure Flagged (samples : List Bool) (fields : Keyed Value) : Prop where
  value : fields.find? "value" = some ((samples.getLast?.map Value.bool).getD .null)
  counts : ∃ trues falses flips : Int64, fields.find? "true_count" = some (.long trues) ∧
    fields.find? "false_count" = some (.long falses) ∧ fields.find? "flips" = some (.long flips) ∧
    trues.toInt = samples.count true ∧ falses.toInt = samples.count false ∧
    flips.toInt = changes samples ∧
    trues.toInt + falses.toInt = samples.length ∧ flips.toInt ≤ max (samples.length - 1) 0 ∧
    flips.toInt ≤ 2 * min trues.toInt falses.toInt ∧
    (samples ≠ [] → (Even flips.toInt ↔ samples.head? = samples.getLast?))
  ratio : ∃ x, fields.find? "true_ratio" = some (.double x) ∧ (samples = [] → x = Double.ofNat 0) ∧
    (samples ≠ [] → x = Double.ofNat (samples.count true) / Double.ofNat samples.length ∧
      (samples.length ≤ 2 ^ 53 → Double.IsNearest (samples.count true / samples.length) x))

theorem Double.isNearest_ofNat_div {k n : Nat} (hk : k ≤ n) (hpos : 0 < n) (hn : n ≤ 2 ^ 53) :
    IsNearest (k / n) (ofNat k / ofNat n) := by
  have hvalue : value (ofNat n) = n := (hasValue_ofNat hn).value_eq
  have hfinite {i : Nat} (hi : i ≤ 2 ^ 53) : (ofNat i).isFinite = true :=
    isFinite_ofNat (hi.trans (by decide))
  have hnearest := isNearest_div (hfinite (hk.trans hn)) (hfinite hn)
    (hvalue ▸ (Nat.cast_pos.2 hpos).ne')
  rwa [hvalue, (hasValue_ofNat (hk.trans hn)).value_eq] at hnearest

theorem Tally.flagged_snapshot {samples : List Bool} (hlength : samples.length < 2 ^ 63) :
    ∃ fields, (samples.foldl add start).snapshot = .record "flag" fields ∧
      Flagged samples fields := by
  obtain ⟨fields, hrecord, hvalue, htrues, hfalses, hflips, hratio⟩ :=
    find?_snapshot (samples.foldl add start)
  have htotal : samples.count true + samples.count false = samples.length :=
    List.count_true_add_count_false samples
  have hle := changes_le samples
  have hhalves := changes_add_le samples true
  have hhalves' := changes_add_le samples false
  have hcount {n : Nat} (hn : n ≤ samples.length) : (Int64.ofNat n).toInt = n :=
    Int64.toInt_ofNat_of_lt (hn.trans_lt hlength)
  rw [ofSamples_eq] at *
  refine ⟨fields, hrecord, hvalue, ⟨_, _, _, htrues, hfalses, hflips, ?_⟩, _, hratio, ?_, ?_⟩
  · dsimp only
    rw [hcount (by omega), hcount (by omega), hcount (by omega), Int.even_coe_nat]
    exact ⟨rfl, rfl, rfl, by omega, by omega, by omega, fun _ => even_changes_iff samples⟩
  · rintro rfl
    rfl
  · intro hne
    have hpos : 0 < samples.length := List.length_pos_iff.2 hne
    rw [Tally.ratio, htotal, if_neg hpos.ne']
    exact ⟨rfl, Double.isNearest_ofNat_div (by omega) hpos⟩

namespace Machine

def Recorder.flags : Recorder Bool Tally where
  read := Value.bool?
  fresh := .start
  add := Tally.add
  clear := Tally.clear
  record := Tally.snapshot
  machine := .flag
  clear_fresh := rfl
  clear_add _ _ := rfl
  eval_machine _ _ _ _ := rfl
  reset_machine _ _ := rfl
  shown?_machine _ := rfl

/-- A flag shows the last sample since the last reset, how many samples are true and false, how
often they change, and the part of them that are true, as long as they are counted in 63 bits. A
sample is answered with what is shown behind it. -/
theorem flag_of_history (c : Config) (opened : Nat) (steps : List Step) :
    let m := (start .flag c opened).after steps
    let samples := offered Value.bool? steps
    (samples.length < 2 ^ 63 → ∃ fields, m.shown? = some (.record "flag" fields) ∧
      Flagged samples fields) ∧
      ∀ r now args b, args.head?.bind Value.bool? = some b → samples.length + 1 < 2 ^ 63 →
        ∃ fields, (m.eval r now args).1 = .ok (.record "flag" fields) ∧
          (m.eval r now args).2.shown? = some (.record "flag" fields) ∧
          Flagged (samples ++ [b]) fields := by
  intro m samples
  refine ⟨fun hlength => ?_, fun r now args b hb hlength => ?_⟩
  · obtain ⟨fields, hrecord, hflagged⟩ := Tally.flagged_snapshot hlength
    exact ⟨fields, (Recorder.flags.shown?_after steps).trans (congrArg some hrecord), hflagged⟩
  · obtain ⟨hanswer, hshown⟩ := Recorder.flags.eval_of_read hb steps r now
    have hlength' : (samples ++ [b]).length < 2 ^ 63 := by rwa [List.length_append]
    obtain ⟨fields, hrecord, hflagged⟩ := Tally.flagged_snapshot hlength'
    exact ⟨fields, hanswer.trans (congrArg _ hrecord), hshown.trans (congrArg _ hrecord), hflagged⟩

theorem flag_of_history_changes :
    let m :=
      (start .flag {} 0).after [.eval .none 1 [.bool false], .reset 2, .eval .none 3 [.bool true],
        .eval .none 4 [.string "on"], .eval .none 5 [.bool false]]
    (∃ fields, m.shown? = some (.record "flag" fields) ∧ Flagged [true, false] fields) ∧
      ∃ fields, (m.eval .none 6 [.bool true]).1 = .ok (.record "flag" fields) ∧
        Flagged [true, false, true] fields := by
  intro m
  obtain ⟨hshown, hanswers⟩ := flag_of_history {} 0 [.eval .none 1 [.bool false], .reset 2,
    .eval .none 3 [.bool true], .eval .none 4 [.string "on"], .eval .none 5 [.bool false]]
  obtain ⟨fields, hanswer, -, hflagged⟩ := hanswers .none 6 [.bool true] true rfl (by decide)
  exact ⟨hshown (by decide), fields, hanswer, hflagged⟩

end Machine

end Rollup
