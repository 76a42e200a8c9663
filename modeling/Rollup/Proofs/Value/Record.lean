import Rollup.Proofs.Keyed
import Rollup.Proofs.Number.Value
import Rollup.Value.Json

namespace Rollup

def Elements.NaNFree : Elements → Prop
  | floats l => ∀ x ∈ l, x.isNaN = false
  | doubles l => ∀ x ∈ l, x.isNaN = false
  | bools _ | bytes _ | shorts _ | ints _ | longs _ | chars _ => True

theorem beq_self_of_forall [BEq α] {l : List α} (h : ∀ x ∈ l, (x == x) = true) :
    (l == l) = true := by
  induction l with
  | nil => rfl
  | cons x l ih =>
    obtain ⟨hx, hl⟩ := List.forall_mem_cons.1 h
    rw [List.cons_beq_cons, hx, ih hl]
    rfl

theorem Elements.same_self {e : Elements} (h : e.NaNFree) : e.same e = true := by
  cases e with
  | floats l => exact beq_self_of_forall fun x hx => Double.single_beq_self (h x hx)
  | doubles l => exact beq_self_of_forall fun x hx => Double.beq_self (h x hx)
  | _ => exact beq_self_eq_true _

namespace Value

mutual

def NaNFree : Value → Prop
  | float x => x.isNaN = false
  | double x => x.isNaN = false
  | record _ fields => FieldsNaNFree fields
  | array e | buffer e => e.NaNFree
  | null | bool _ | byte _ | short _ | int _ | long _ | char _ | string _ | date _ | bigint
      _ | bigdecimal _ => True
termination_by structural v => v

def FieldsNaNFree : Keyed.From Value lo → Prop
  | .nil => True
  | .cons _ _ v rest => NaNFree v ∧ FieldsNaNFree rest
termination_by structural r => r

end

mutual

theorem same_self (v : Value) (h : v.NaNFree) : v.same v = true := by
  cases v with
  | float x => exact Double.single_beq_self h
  | double x => exact Double.beq_self h
  | record name fields =>
    rw [same, beq_self_eq_true, sameFields_self fields h]
    rfl
  | array e => exact Elements.same_self h
  | buffer e => exact Elements.same_self h
  | null => rfl
  | _ => exact beq_self_eq_true _
termination_by structural v

theorem sameFields_self (r : Keyed.From Value lo) (h : FieldsNaNFree r) :
    sameFields r r = true := by
  cases r with
  | nil => rfl
  | cons k _ v rest =>
    rw [sameFields, beq_self_eq_true, same_self v h.1, sameFields_self rest h.2]
    rfl
termination_by structural r

end

theorem exists_of_rel_some {R : α → β → Prop} {a : α} {o : Option β} (h : Option.Rel R (some a) o) :
    ∃ b, o = some b ∧ R a b := by
  cases h with | some h => exact ⟨_, rfl, h⟩

theorem exists_of_rel_some_right {R : α → β → Prop} {b : β} {o : Option α}
    (h : Option.Rel R o (some b)) :
    ∃ a, o = some a ∧ R a b := by
  cases h with | some h => exact ⟨_, rfl, h⟩

theorem sameFields_iff {r : Keyed.From Value lo} {s : Keyed.From Value lo'} :
    sameFields r s = true ↔
      ∀ k, Option.Rel (fun v w => (v == w) = true) (r.find? k) (s.find? k) := by
  induction r generalizing lo' with
  | nil =>
    cases s with
    | nil => exact ⟨fun _ _ => .none, fun _ => rfl⟩
    | cons j hj w s =>
      refine ⟨nofun, fun h => ?_⟩
      obtain ⟨_, hnone, _⟩ := exists_of_rel_some_right (Keyed.From.find?_cons_self j hj w s ▸ h j)
      cases hnone
  | cons i hi v r ih =>
    cases s with
    | nil =>
      refine ⟨nofun, fun h => ?_⟩
      obtain ⟨_, hnone, _⟩ := exists_of_rel_some (Keyed.From.find?_cons_self i hi v r ▸ h i)
      cases hnone
    | cons j hj w s =>
      rw [sameFields, Bool.and_eq_true, Bool.and_eq_true, beq_iff_eq, ih]
      constructor
      · rintro ⟨⟨rfl, hvw⟩, hrest⟩ k
        by_cases hk : k = i
        · rw [hk, Keyed.From.find?_cons_self, Keyed.From.find?_cons_self]
          exact .some hvw
        · simpa only [Keyed.From.find?, if_neg hk] using hrest k
      · intro h
        -- The first key of each table is found in the other one, so neither comes before the other.
        obtain ⟨v', hv', hvv'⟩ := exists_of_rel_some (Keyed.From.find?_cons_self i hi v r ▸ h i)
        obtain ⟨w', hw', _⟩ := exists_of_rel_some_right (Keyed.From.find?_cons_self j hj w s ▸ h j)
        obtain rfl : i = j := String.le_antisymm (Keyed.From.not_lt_of_find? hw')
          (Keyed.From.not_lt_of_find? hv')
        obtain rfl : w = v' :=
          Option.some.inj ((Keyed.From.find?_cons_self i hj w s).symm.trans hv')
        refine ⟨⟨rfl, hvv'⟩, fun k => ?_⟩
        by_cases hk : k = i
        · rw [hk, Keyed.From.find?_eq_none r Std.lt_irrefl,
            Keyed.From.find?_eq_none s Std.lt_irrefl]
          exact .none
        · simpa only [Keyed.From.find?, if_neg hk] using h k

/-- Values that came about alike: one value, or records of one name that were filled so that each
key got, if any, values that came about alike last. -/
inductive FilledAlike : Value → Value → Prop
  | refl : FilledAlike v v
  | record {l m : List (String × Value)} :
      (∀ k, (l.reverse.lookup k).isSome = (m.reverse.lookup k).isSome) →
      (∀ k v w, l.reverse.lookup k = some v → m.reverse.lookup k = some w → FilledAlike v w) →
      FilledAlike (.record name (Keyed.ofList l)) (.record name (Keyed.ofList m))

theorem FilledAlike.eq {v w : Value} (h : FilledAlike v w) : v = w := by
  induction h with
  | refl => rfl
  | @record name l m hkeys _ ih =>
    have hlast : ∀ k, l.reverse.lookup k = m.reverse.lookup k := by
      intro k
      have hk := hkeys k
      cases hl : l.reverse.lookup k with
      | none => exact (Option.not_isSome_iff_eq_none.1 (by simp [← hk, hl])).symm
      | some v =>
        obtain ⟨w, hw⟩ := Option.isSome_iff_exists.1 (hk.symm.trans (by rw [hl]; rfl))
        rw [hw, ih k v w hl hw]
    rw [Keyed.ofList_eq_iff.2 hlast]

theorem fieldTexts_eq (r : Keyed.From Value lo) :
    fieldTexts r = r.toList.map fun e => e.1 ++ "=" ++ e.2.text := by
  induction r with
  | nil => rfl
  | cons k hk v rest ih => rw [fieldTexts, ih, Keyed.From.toList, List.map_cons]

theorem toList_fieldsToJson (r : Keyed.From Value lo) :
    (fieldsToJson r).toList = r.toList.map fun e => (e.1, e.2.toJson) := by
  induction r with
  | nil => rfl
  | cons k hk v rest ih =>
    rw [fieldsToJson, Keyed.From.toList, ih, Keyed.From.toList, List.map_cons]

/-- Insertions leave each key its last value, once and in the order of the bytes of the keys, and
the text and the JSON form list the fields in this order. Two records of one name are equal if and
only if the last values of each key are. So values that came about alike have one text and one JSON
form, and are equal unless something in them is NaN. -/
theorem record_of_insertions :
    (∀ (name : String) (t : Keyed Value) (l : List (String × Value)),
      let filled := Keyed.insertAll t l
      (∀ k, filled.find? k = (l.reverse.lookup k).or (t.find? k)) ∧
        filled.size = (l.map Prod.fst ++ t.keys).dedup.length ∧
        filled.toList.Pairwise (fun a b => bytes a.1 < bytes b.1) ∧
        (∀ k v, (k, v) ∈ filled.toList ↔ filled.find? k = some v) ∧
        (record name filled).text =
          name ++ "\x7b" ++ ", ".intercalate (filled.toList.map fun e => e.1 ++ "=" ++ e.2.text) ++
          "\x7d" ∧ ∃ members, (record name filled).toJson = .object members ∧
          members.toList = filled.toList.map fun e => (e.1, e.2.toJson)) ∧
      (∀ (name name' : String) (l m : List (String × Value)),
        (record name (Keyed.ofList l) == record name' (Keyed.ofList m)) = true ↔
          name = name' ∧ ∀ k, Option.Rel (fun v w => (v == w) = true) (l.reverse.lookup k)
          (m.reverse.lookup k)) ∧ ∀ v w : Value, FilledAlike v w →
        v.text = w.text ∧ v.toJson = w.toJson ∧ (v.NaNFree → (v == w) = true) := by
  refine ⟨fun name t l => ⟨Keyed.find?_insertAll t l, Keyed.size_insertAll t l, ?_, fun _ _ =>
    Keyed.From.mem_toList _, ?_, _, rfl, toList_fieldsToJson _⟩, fun name name' l m => ?_,
      fun v w h => ?_⟩
  · exact (Keyed.From.pairwise_toList _).imp bytes_lt_of_lt
  · rw [text, fieldTexts_eq]
  · have hfields := sameFields_iff (r := Keyed.ofList l) (s := Keyed.ofList m)
    simp only [Keyed.find?_ofList] at hfields
    change (name == name' && sameFields (Keyed.ofList l) (Keyed.ofList m)) = true ↔ _
    rw [Bool.and_eq_true, beq_iff_eq, hfields]
  · obtain rfl := h.eq
    exact ⟨rfl, rfl, same_self v⟩

theorem lookup_cons_eq_ite (k j : String) (v : α) (l : List (String × α)) :
    ((j, v) :: l).lookup k = if k = j then some v else l.lookup k := by
  by_cases h : k = j <;> simp [List.lookup_cons, h, beq_false_of_ne]

theorem record_of_insertions_nested :
    let inner := record "disk" (Keyed.ofList [("größe", .double Double.largest), ("used", .long 1)])
    let inner' := record "disk"
      (Keyed.ofList [("used", .null), ("größe", .double Double.largest), ("used", .long 1)])
    let v := record "host" (Keyed.ofList [("disk", .null), ("up", .bool true), ("disk", inner)])
    let w := record "host" (Keyed.ofList [("up", .bool true), ("disk", inner')])
    FilledAlike v w ∧ v.NaNFree ∧ v.text = w.text ∧ v.toJson = w.toJson ∧ (v == w) = true := by
  intro inner inner' v w
  have hinner : FilledAlike inner inner' := by
    refine .record (fun k => ?_) fun k v w => ?_ <;>
      simp only [List.reverse_cons, List.reverse_nil, List.nil_append,
        List.cons_append, lookup_cons_eq_ite, List.lookup_nil]
    · split_ifs <;> rfl
    · split_ifs <;> rintro ⟨⟩ ⟨⟩ <;> exact .refl
  have halike : FilledAlike v w := by
    refine .record (fun k => ?_) fun k v w => ?_ <;>
      simp only [List.reverse_cons, List.reverse_nil, List.nil_append,
        List.cons_append, lookup_cons_eq_ite, List.lookup_nil]
    · split_ifs <;> rfl
    · split_ifs <;> rintro ⟨⟩ ⟨⟩
      · exact hinner
      · exact .refl
  have hnan : v.NaNFree := by
    have hlargest : Double.largest.isNaN = false := by decide
    exact ⟨⟨hlargest, trivial, trivial⟩, trivial, trivial⟩
  obtain ⟨htext, hjson, hsame⟩ := record_of_insertions.2.2 v w halike
  exact ⟨halike, hnan, htext, hjson, hsame hnan⟩

end Value

end Rollup
