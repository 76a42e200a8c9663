import Rollup.Proofs.Value.Json

namespace Rollup

namespace Json

inductive Holds : Json → List Json → Prop
  | here : Holds (.array items) items
  | item : j ∈ items → Holds j items' → Holds (.array items) items'
  | member : (key, j) ∈ members.toList → Holds j items → Holds (.object members) items

def IsBool (j : Json) : Prop := ∃ b, j = .bool b

def IsNumber (j : Json) : Prop := ∃ n, j = .number n

def Homogeneous (items : List Json) : Prop := (∀ j ∈ items, j.IsBool) ∨ ∀ j ∈ items, j.IsNumber

def FirstOther (items : List Json) (x : Json) : Prop :=
  ∃ before after, items = before ++ x :: after ∧ (∀ j ∈ before, j.IsNumber) ∧ ¬ x.IsNumber

def asDouble : Json → Json
  | number n => .number (.double n.toDouble (isFinite_toDouble n))
  | j => j

mutual

/-- The same value, with doubles for the numbers of an array that has not only integers of 64
bits. -/
def widened : Json → Json
  | array items => .array (if items.all (·.int64?.isSome) then items else items.map asDouble)
  | object members => .object (widenedMembers members)
  | null => .null
  | bool b => .bool b
  | number n => .number n
  | string s => .string s
termination_by structural j => j

def widenedMembers : Keyed.From Json lo → Keyed.From Json lo
  | .nil => .nil
  | .cons k h j rest => .cons k h (widened j) (widenedMembers rest)
termination_by structural r => r

end

section

variable {f : α → Json} {g : Json → Option α} (hread : ∀ j a, g j = some a ↔ j = f a)

include hread

theorem mapM_eq_some {items : List Json} {l : List α} :
    items.mapM g = some l ↔ items = l.map f := by
  induction items generalizing l with
  | nil => cases l <;> simp
  | cons j items ih =>
    rw [List.mapM_cons]
    cases l with
    | nil => cases g j <;> cases items.mapM g <;> simp
    | cons a l =>
      simp only [List.map_cons, List.cons.injEq, ← hread, ← ih]
      cases g j <;> cases items.mapM g <;> simp

theorem exists_eq_map {items : List Json} (h : ∀ j ∈ items, (g j).isSome = true) :
    ∃ l : List α, items = l.map f := by
  induction items with
  | nil => exact ⟨[], rfl⟩
  | cons j items ih =>
    rw [List.forall_mem_cons] at h
    obtain ⟨a, ha⟩ := Option.isSome_iff_exists.1 h.1
    obtain ⟨l, rfl⟩ := ih h.2
    exact ⟨a :: l, congrArg (· :: l.map f) ((hread j a).1 ha)⟩

end

theorem bool?_eq_some (j : Json) (b : Bool) : j.bool? = some b ↔ j = .bool b := by
  cases j <;> simp [bool?]

theorem int64?_eq_some (j : Json) (n : Int64) : j.int64? = some n ↔ j = ofInt64 n := by
  constructor
  · intro h
    cases j with
    | number m =>
      cases m with
      | integer z fits =>
        rw [int64?] at h
        split at h
        · rename_i hlt
          cases h
          have hround : (Int64.ofInt z).toInt = z := Int64.toInt_ofInt_of_le fits.1 hlt
          simp only [ofInt64, hround]
        · cases h
      | double => cases h
    | _ => cases h
  · rintro rfl
    exact int64?_ofInt64 n

theorem doubles_cases (items : List Json) :
    (∃ l, doubles items = .ok l ∧ (∀ j ∈ items, j.IsNumber) ∧ l.map ofDouble = items.map asDouble) ∨
      ∃ x, doubles items = .error (.mixedElement x) ∧ FirstOther items x := by
  induction items with
  | nil => exact .inl ⟨[], rfl, nofun, rfl⟩
  | cons j items ih =>
    by_cases hj : j.IsNumber
    · obtain ⟨n, rfl⟩ := hj
      rcases ih with ⟨l, hl, hall, hmap⟩ | ⟨x, hx, before, after, rfl, hbefore, hother⟩
      · refine .inl ⟨n.toDouble :: l, ?_, List.forall_mem_cons.2 ⟨⟨n, rfl⟩, hall⟩, ?_⟩
        · simp only [doubles, double?, hl]
          rfl
        · rw [List.map_cons, List.map_cons, hmap, ofDouble, dif_pos (isFinite_toDouble n), asDouble]
      · refine .inr ⟨x, ?_, .number n :: before, after, rfl,
          List.forall_mem_cons.2 ⟨⟨n, rfl⟩, hbefore⟩, hother⟩
        simp only [doubles, double?, hx]
        rfl
    · have hnone : j.double? = none := by
        cases j with
        | number n => exact absurd ⟨n, rfl⟩ hj
        | _ => rfl
      refine .inr ⟨j, ?_, [], items, rfl, nofun, hj⟩
      simp only [doubles, hnone]

theorem elements_of_none {items : List Json} (hbool : ∀ b bs, items ≠ (b :: bs).map .bool)
    (hint : ∀ n ns, items ≠ (n :: ns).map ofInt64) :
    elements items = .doubles <$> doubles items := by
  unfold elements
  split
  · rename_i b bs h
    exact absurd ((mapM_eq_some bool?_eq_some).1 h) (hbool b bs)
  · rename_i n ns h _
    exact absurd ((mapM_eq_some int64?_eq_some).1 h) (hint n ns)
  · rfl

theorem FirstOther.mem {items : List Json} {x : Json} (h : FirstOther items x) : x ∈ items := by
  obtain ⟨before, after, rfl, -, -⟩ := h
  exact List.mem_append_right _ List.mem_cons_self

theorem map_asDouble_bool (bs : List Bool) : (bs.map .bool).map asDouble = bs.map .bool := by
  rw [List.map_map]
  rfl

theorem elements_cases (items : List Json) :
    (∃ e, elements items = .ok e ∧ Homogeneous items ∧ .array e.toJson = (array items).widened) ∨
      ∃ x, elements items = .error (.mixedElement x) ∧ ¬ Homogeneous items ∧
      FirstOther items x := by
  rw [widened]
  by_cases hbool : ∃ b bs, items = (b :: bs).map .bool
  · obtain ⟨b, bs, rfl⟩ := hbool
    have hall : ((b :: bs).map Json.bool).all (·.int64?.isSome) = false := rfl
    refine .inl ⟨.bools (b :: bs), elements_bools (List.cons_ne_nil b bs), .inl fun j hj => ?_, ?_⟩
    · obtain ⟨c, -, rfl⟩ := List.mem_map.1 hj
      exact ⟨c, rfl⟩
    · rw [hall, if_neg Bool.false_ne_true, map_asDouble_bool]
      rfl
  · by_cases hint : ∃ n ns, items = (n :: ns).map ofInt64
    · obtain ⟨n, ns, rfl⟩ := hint
      have hall : ((n :: ns).map ofInt64).all (·.int64?.isSome) = true := by
        simp only [List.all_map, List.all_eq_true, Function.comp_apply, int64?_ofInt64,
          Option.isSome_some, implies_true]
      refine .inl ⟨.longs (n :: ns), ?_, .inr fun j hj => ?_, ?_⟩
      · have h := elements_longs (List.cons_ne_nil n ns) id
        rwa [List.map_id] at h
      · obtain ⟨m, -, rfl⟩ := List.mem_map.1 hj
        exact ⟨_, rfl⟩
      · rw [hall, if_pos rfl]
        rfl
    · have hbool' (b : Bool) (bs : List Bool) : items ≠ (b :: bs).map .bool :=
        fun h => hbool ⟨b, bs, h⟩
      have hint' (n : Int64) (ns : List Int64) : items ≠ (n :: ns).map ofInt64 :=
        fun h => hint ⟨n, ns, h⟩
      rw [elements_of_none hbool' hint']
      rcases doubles_cases items with ⟨l, hl, hnumbers, hmap⟩ | ⟨x, hx, hother⟩
      · refine .inl ⟨.doubles l, by rw [hl]; rfl, .inr hnumbers, congrArg Json.array ?_⟩
        split
        · rename_i hall
          obtain ⟨ns, rfl⟩ := exists_eq_map int64?_eq_some (List.all_eq_true.1 hall)
          cases ns with
          | nil => exact hmap
          | cons n ns => exact absurd rfl (hint' n ns)
        · exact hmap
      · refine .inr ⟨x, by rw [hx]; rfl, ?_, hother⟩
        rintro (hbools | hnumbers)
        · obtain ⟨bs, rfl⟩ := exists_eq_map bool?_eq_some fun j hj => by
            obtain ⟨b, rfl⟩ := hbools j hj
            rfl
          cases bs with
          | nil => exact absurd hother.mem List.not_mem_nil
          | cons b bs => exact hbool' b bs rfl
        · obtain ⟨-, -, -, -, hnot⟩ := id hother
          exact hnot (hnumbers x hother.mem)

theorem Homogeneous.of_holds {items items' : List Json} (h : Homogeneous items)
    (hholds : (array items).Holds items') :
    Homogeneous items' := by
  cases hholds with
  | here => exact h
  | item hj hholds =>
    rcases h with h | h
    · obtain ⟨b, rfl⟩ := h _ hj
      cases hholds
    · obtain ⟨n, rfl⟩ := h _ hj
      cases hholds

end Json

namespace Elements

theorem pickAll_map {kind : PrimitiveKind} {pick : Value → Option α} {f : α → Value}
    (h : ∀ a, pick (f a) = some a)
    (l : List α) (i : Nat) : pickAll kind pick i (l.map f) = .ok l := by
  induction l generalizing i with
  | nil => rfl
  | cons a l ih =>
    simp only [List.map_cons, pickAll, h, ih]
    rfl

theorem map_pickAll (mk : List α → Elements) {kind : PrimitiveKind} {pick : Value →
    Option α} (f : α → Value)
    (h : ∀ a, pick (f a) = some a) (l : List α) :
    mk <$> pickAll kind pick 0 (l.map f) = .ok (mk l) :=
  congrArg (mk <$> ·) (pickAll_map h l 0)

theorem ofValues?_values (e : Elements) : ofValues? e.kind e.values = .ok e := by
  cases e with
  | bools l => exact map_pickAll bools .bool (fun _ => rfl) l
  | bytes l => exact map_pickAll bytes .byte (fun _ => rfl) l
  | shorts l => exact map_pickAll shorts .short (fun _ => rfl) l
  | ints l => exact map_pickAll ints .int (fun _ => rfl) l
  | longs l => exact map_pickAll longs .long (fun _ => rfl) l
  | floats l => exact map_pickAll floats .float (fun _ => rfl) l
  | doubles l => exact map_pickAll doubles .double (fun _ => rfl) l
  | chars l => exact map_pickAll chars .char (fun _ => rfl) l

theorem tag?_of_mem {e : Elements} {v : Value} (h : v ∈ e.values) : v.tag? = some e.kind.tag := by
  cases e <;> (obtain ⟨a, -, rfl⟩ := List.mem_map.1 h; rfl)

end Elements

/-- Why an array makes up no elements: an item is of another type, or a value is refused by the
check of the elements. -/
inductive ArrayError
  | mixed (e : ConversionError)
  | element (e : ElementError)

def Json.checkedElements (items : List Json) : Except ArrayError Elements :=
  if !items.isEmpty && items.all (·.bool?.isSome) then
    (Elements.ofValues? .bool (items.map fun j => .bool (j.bool? == some true))).mapError .element
  else if items.all (·.int64?.isSome) && !items.isEmpty then
    (Elements.ofValues? .long ((items.filterMap int64?).map .long)).mapError .element
  else (Elements.doubles <$> doubles items).mapError .mixed

namespace Json

theorem map_bool?_bool (bs : List Bool) :
    ((bs.map Json.bool).map fun j => Value.bool (j.bool? == some true)) = bs.map .bool := by
  rw [List.map_map]
  exact List.map_congr_left fun b _ => by cases b <;> rfl

theorem filterMap_int64?_ofInt64 (ns : List Int64) : (ns.map ofInt64).filterMap int64? = ns := by
  have hread : int64? ∘ ofInt64 = some := funext int64?_ofInt64
  rw [List.filterMap_map, hread, List.filterMap_some]

theorem checkedElements_eq (items : List Json) :
    checkedElements items = (elements items).mapError .mixed := by
  have hsome {l : List Json} (h : (!l.isEmpty) = true) : l ≠ [] := by simpa using h
  unfold checkedElements
  split
  · rename_i h
    rw [Bool.and_eq_true, List.all_eq_true] at h
    obtain ⟨bs, rfl⟩ := exists_eq_map bool?_eq_some h.2
    have hne : bs ≠ [] := fun hnil => hsome h.1 (by rw [hnil]; rfl)
    rw [map_bool?_bool, elements_bools hne]
    exact congrArg (Except.mapError _) (Elements.ofValues?_values (.bools bs))
  · rename_i hbool
    split
    · rename_i h
      rw [Bool.and_eq_true, List.all_eq_true] at h
      obtain ⟨ns, rfl⟩ := exists_eq_map int64?_eq_some h.1
      have hne : ns ≠ [] := fun hnil => hsome h.2 (by rw [hnil]; rfl)
      have hlongs := elements_longs hne id
      rw [List.map_id] at hlongs
      rw [filterMap_int64?_ofInt64, show elements (ns.map ofInt64) = .ok (.longs ns) from hlongs]
      exact congrArg (Except.mapError _) (Elements.ofValues?_values (.longs ns))
    · rename_i hint
      rw [elements_of_none (fun b bs h => hbool ?_) fun n ns h => hint ?_]
      · rw [h, List.all_map]
        simp [bool?]
      · rw [h, List.all_map]
        simp [int64?_ofInt64]

end Json

namespace Value

inductive Holds : Value → Elements → Prop
  | array : Holds (.array e) e
  | buffer : Holds (.buffer e) e
  | field : (key, v) ∈ fields.toList → Holds v e → Holds (.record name fields) e

theorem toJson_ofNumber (n : JsonNumber) : (ofNumber n).toJson = .number n := by
  cases n with
  | integer z fits =>
    rw [ofNumber]
    split
    · rename_i hlt
      have hround : (Int64.ofInt z).toInt = z := Int64.toInt_ofInt_of_le fits.1 hlt
      simp only [toJson, Json.ofInt64, hround]
    · simp only [toJson, Json.ofInt?, dif_pos fits, Option.getD_some]
  | double x finite => simp only [ofNumber, toJson, Json.ofDouble, dif_pos finite]

mutual

theorem ofJson_cases (j : Json) :
    (∃ v, ofJson j = .ok v ∧ (∀ items, j.Holds items → Json.Homogeneous items) ∧
      v.toJson = j.widened) ∨
      ∃ items x, ofJson j = .error (.mixedElement x) ∧ j.Holds items ∧ ¬ Json.Homogeneous items ∧
        Json.FirstOther items x := by
  -- The recursion is on the JSON value and, for an object, on its members together with it.
  cases j with
  | null => exact .inl ⟨null, rfl, nofun, rfl⟩
  | bool b => exact .inl ⟨bool b, rfl, nofun, rfl⟩
  | string s => exact .inl ⟨string s, rfl, nofun, rfl⟩
  | number n => exact .inl ⟨ofNumber n, rfl, nofun, toJson_ofNumber n⟩
  | array items =>
    rcases Json.elements_cases items with ⟨e, he, hall, hjson⟩ | ⟨x, hx, hmixed, hother⟩
    · exact .inl ⟨array e, by rw [ofJson, he]; rfl, fun _ => hall.of_holds, hjson⟩
    · exact .inr ⟨items, x, by rw [ofJson, hx]; rfl, .here, hmixed, hother⟩
  | object members =>
    rcases fieldsOfJson_cases members with ⟨fields, hfields, hall, hjson⟩ |
      ⟨key, j, items, x, hx, hmem, hholds, h⟩
    · refine .inl ⟨record "object" fields, by rw [ofJson, hfields]; rfl, fun items hholds => ?_, ?_⟩
      · cases hholds with
        | member hmem hholds => exact hall _ _ _ hmem hholds
      · rw [toJson, hjson, Json.widened]
    · exact .inr ⟨items, x, by rw [ofJson, hx]; rfl, .member hmem hholds, h⟩
termination_by structural j

theorem fieldsOfJson_cases (r : Keyed.From Json lo) :
    (∃ r', fieldsOfJson r = .ok r' ∧
        (∀ key j items, (key, j) ∈ r.toList → j.Holds items → Json.Homogeneous items) ∧
        fieldsToJson r' = Json.widenedMembers r) ∨
      ∃ key j items x, fieldsOfJson r = .error (.mixedElement x) ∧ (key, j) ∈ r.toList ∧
      j.Holds items ∧ ¬ Json.Homogeneous items ∧ Json.FirstOther items x := by
  cases r with
  | nil => exact .inl ⟨.nil, rfl, nofun, rfl⟩
  | cons key above j rest =>
    rcases ofJson_cases j with ⟨v, hv, hall, hjson⟩ | ⟨items, x, hx, hholds, h⟩
    · rcases fieldsOfJson_cases rest with ⟨fields, hfields, halls, hjsons⟩ |
        ⟨key', j', items, x, hx, hmem, h⟩
      · refine .inl ⟨.cons key above v fields,
          by simp only [fieldsOfJson, hv, hfields]; rfl, ?_, ?_⟩
        · intro key' j' items hmem hholds
          rcases List.mem_cons.1 hmem with heq | hmem
          · cases heq
            exact hall items hholds
          · exact halls _ _ _ hmem hholds
        · rw [fieldsToJson, hjson, hjsons, Json.widenedMembers]
      · exact .inr ⟨key', j', items, x,
          by simp only [fieldsOfJson, hv, hx]; rfl, List.mem_cons_of_mem _ hmem, h⟩
    · exact .inr ⟨key, j, items, x, by simp only [fieldsOfJson, hx], List.mem_cons_self, hholds, h⟩
termination_by structural r

end

/-- JSON is read if each of its arrays holds booleans alone or numbers alone. If not, the first item
of such an array that is no number is blamed, and never an element that was refused by its check.
All elements of an array that was read are of its type, and the value is written again as the same
JSON, but for doubles in the place of numbers that are not all integers of 64 bits. -/
theorem ofJson_eq_ok_iff_homogeneous (j : Json) :
    ((∃ v, ofJson j = .ok v) ↔ ∀ items, j.Holds items → Json.Homogeneous items) ∧
      (∀ e, ofJson j = .error e → ∃ items x, j.Holds items ∧ ¬ Json.Homogeneous items ∧
        Json.FirstOther items x ∧
        e = .mixedElement x ∧ e.message = "mixed array element " ++ x.compact) ∧
      (∀ items, j.Holds items → Json.checkedElements items =
        (Json.elements items).mapError .mixed) ∧ ∀ v, ofJson j = .ok v →
        (∀ e, v.Holds e → ∀ w ∈ e.values, w.tag? = some e.kind.tag) ∧ v.toJson = j.widened := by
  have hchecked (items : List Json) (_ : j.Holds items) := Json.checkedElements_eq items
  rcases ofJson_cases j with ⟨w, hw, hall, hjson⟩ | ⟨items, x, hx, hholds, hmixed, hother⟩
  · refine ⟨iff_of_true ⟨w, hw⟩ hall, fun e he => ?_, hchecked, fun v hv => ?_⟩
    · cases he.symm.trans hw
    · cases hv.symm.trans hw
      exact ⟨fun _ _ _ => Elements.tag?_of_mem, hjson⟩
  · refine ⟨iff_of_false (fun ⟨v, hv⟩ => ?_) fun hall => hmixed (hall items hholds),
      fun e he => ?_, hchecked, fun v hv => ?_⟩
    · cases hv.symm.trans hx
    · cases he.symm.trans hx
      exact ⟨items, x, hholds, hmixed, hother, rfl, rfl⟩
    · cases hv.symm.trans hx

theorem ofJson_eq_ok_iff_homogeneous_sizes :
    let numbers : List Json := [.ofInt64 1, .number (.integer 0x8000_0000_0000_0000 (by decide))]
    let sizes (items : List Json) : Json := .object (.cons "sizes" .start (.array items) .nil)
    (∃ v, ofJson (sizes numbers) = .ok v ∧ v.toJson = sizes (numbers.map Json.asDouble)) ∧
      ∃ items, (sizes [.bool true, .string "x"]).Holds items ∧ ¬ Json.Homogeneous items := by
  intro numbers sizes
  obtain ⟨hok, -, -, hjson⟩ := ofJson_eq_ok_iff_homogeneous (sizes numbers)
  obtain ⟨v, hv⟩ := hok.2 fun items hholds => by
    cases hholds with
    | member hmem hholds =>
      cases List.mem_singleton.1 hmem
      exact Json.Homogeneous.of_holds (.inr (by simp [numbers, Json.IsNumber, Json.ofInt64])) hholds
  obtain ⟨-, herror, -⟩ := ofJson_eq_ok_iff_homogeneous (sizes [.bool true, .string "x"])
  obtain ⟨items, x, hholds, hmixed, -⟩ := herror (.mixedElement (.bool true)) rfl
  exact ⟨⟨v, hv, (hjson v hv).2⟩, items, hholds, hmixed⟩

end Value

end Rollup
