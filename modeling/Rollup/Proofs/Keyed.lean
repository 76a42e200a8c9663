import Rollup.Keyed
import Rollup.Proofs.Unicode.Bytes

namespace Rollup

namespace Keyed

namespace From

theorem above_and_pairwise (t : From α lo) :
    (∀ e ∈ t.toList, Above lo e.1) ∧ t.toList.Pairwise fun a b => a.1 < b.1 := by
  induction t with
  | nil => exact ⟨nofun, .nil⟩
  | cons k hk v rest ih =>
    obtain ⟨habove, hpairwise⟩ := ih
    have hbehind : ∀ e ∈ rest.toList, k < e.1 := fun e he => by
      cases habove e he with | after h => exact h
    exact ⟨List.forall_mem_cons.2 ⟨hk, fun e he => hk.trans (hbehind e he)⟩,
      .cons hbehind hpairwise⟩

theorem pairwise_toList (t : From α lo) : t.toList.Pairwise fun a b => a.1 < b.1 :=
  t.above_and_pairwise.2

theorem mem_toList {k : String} {v : α} (t : From α lo) :
    (k, v) ∈ t.toList ↔ t.find? k = some v := by
  induction t with
  | nil => exact ⟨nofun, nofun⟩
  | cons j hj w rest ih =>
    rw [toList, List.mem_cons, find?, ih, Prod.mk.injEq]
    by_cases hk : k = j
    · subst hk
      rw [if_pos rfl, find?_eq_none rest Std.lt_irrefl]
      simp [eq_comm]
    · simp [hk]

theorem mem_keys {k : String} (t : From α lo) : k ∈ t.keys ↔ (t.find? k).isSome = true := by
  simp [keys, mem_toList, Option.isSome_iff_exists]

theorem pairwise_keys (t : From α lo) : t.keys.Pairwise (· < ·) :=
  List.pairwise_map.2 t.pairwise_toList

theorem nodup_keys (t : From α lo) : t.keys.Nodup := t.pairwise_keys.imp String.ne_of_lt

theorem find?_cons_self (k : String) (h : Above lo k) (v : α) (rest : From α (some k)) :
    (From.cons k h v rest).find? k = some v := if_pos rfl

theorem not_lt_of_find? {j k : String} {hj : Above lo j} {v w : α} {rest : From α (some j)}
    (h : (From.cons j hj w rest).find? k = some v) : ¬ k < j := by
  intro hlt
  rw [find?, if_neg (String.ne_of_lt hlt), find?_eq_none rest (String.lt_asymm hlt)] at h
  cases h

theorem ext {t u : From α lo} (h : ∀ k, t.find? k = u.find? k) : t = u := by
  induction t with
  | nil =>
    cases u with
    | nil => rfl
    | cons j hj w s => cases (h j).trans (find?_cons_self j hj w s)
  | cons i hi v r ih =>
    cases u with
    | nil => cases (h i).symm.trans (find?_cons_self i hi v r)
    | cons j hj w s =>
      have hv := (h i).symm.trans (find?_cons_self i hi v r)
      have hw := (h j).trans (find?_cons_self j hj w s)
      obtain rfl : i = j := String.le_antisymm (not_lt_of_find? hw) (not_lt_of_find? hv)
      obtain rfl : w = v := Option.some.inj ((find?_cons_self i hj w s).symm.trans hv)
      have hrest : r = s := by
        apply ih
        intro k
        by_cases hk : k = i
        · rw [hk, find?_eq_none r Std.lt_irrefl, find?_eq_none s Std.lt_irrefl]
        · simpa only [find?, if_neg hk] using h k
      rw [hrest]

end From

theorem mem_keys_insertAll {k : String} (t : Keyed α) (l : List (String × α)) :
    k ∈ From.keys (insertAll t l) ↔ k ∈ l.map Prod.fst ∨ k ∈ From.keys t := by
  rw [From.mem_keys, From.mem_keys, find?_insertAll, Option.isSome_or, Bool.or_eq_true]
  simp

theorem size_insertAll (t : Keyed α) (l : List (String × α)) :
    From.size (insertAll t l) = (l.map Prod.fst ++ From.keys t).dedup.length := by
  have hperm : (From.keys (insertAll t l)).Perm (l.map Prod.fst ++ From.keys t).dedup := by
    refine (List.perm_ext_iff_of_nodup (From.nodup_keys _) (List.nodup_dedup _)).2 fun k => ?_
    rw [mem_keys_insertAll, List.mem_dedup, List.mem_append]
  rw [From.size, ← hperm.length_eq, From.keys, List.length_map]

theorem ofList_eq_iff {l m : List (String × α)} :
    ofList l = ofList m ↔ ∀ k, l.reverse.lookup k = m.reverse.lookup k := by
  constructor
  · intro h k
    rw [← find?_ofList, h, find?_ofList]
  · intro h
    apply From.ext
    intro k
    rw [find?_ofList, h, find?_ofList]

end Keyed

end Rollup
