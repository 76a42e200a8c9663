import Rollup.Proofs.Number.Finite
import Rollup.Value.Json

/-!
Values as JSON, read again.

JSON has fewer types than values have. What it cannot hold is written as a text or as null, and what
is read back is the normal form of the value (`Value.norm`). Only arrays get lost: one of characters
is written as texts, one with a number that is not finite as numbers and nulls, and neither is read
(`Value.Readable`). A value that was read is in normal form.
-/

namespace Rollup

namespace Elements

/-- Elements for each of which JSON has a boolean or a number. -/
def Readable : Elements → Prop
  | floats l => ∀ x ∈ l, x.isFinite = true
  | doubles l => ∀ x ∈ l, x.isFinite = true
  | chars l => l = []
  | bools _ | bytes _ | shorts _ | ints _ | longs _ => True

def widen : Elements → Elements
  | bytes l => longs (l.map Int8.toInt64)
  | shorts l => longs (l.map Int16.toInt64)
  | ints l => longs (l.map Int32.toInt64)
  | floats l => doubles (l.map Double.ofSingle)
  | bools l => bools l
  | longs l => longs l
  | doubles l => doubles l
  | chars l => chars l

/-- Without elements nothing tells their type, and they are taken for doubles. -/
def norm (e : Elements) : Elements := if e.size = 0 then doubles [] else e.widen

end Elements

namespace Value

mutual

/-- Values without an array or buffer of elements that JSON has no form for. -/
def Readable : Value → Prop
  | record _ fields => FieldsReadable fields
  | array e | buffer e => e.Readable
  | null | bool _ | byte _ | short _ | int _ | long _ | float _ | double _ | char
      _ | string _ | date _ | bigint _
  | bigdecimal _ => True
termination_by structural v => v

def FieldsReadable : Keyed.From Value lo → Prop
  | .nil => True
  | .cons _ _ v rest => Readable v ∧ FieldsReadable rest
termination_by structural r => r

end

def normBigint (n : Int) : Value :=
  if -0x8000_0000_0000_0000 ≤ n ∧ n < 0x8000_0000_0000_0000 then long (.ofInt n)
  else if 0 ≤ n ∧ n < 0x1_0000_0000_0000_0000 then bigint n
  else string (toString n)

mutual

/-- What is left of a value in JSON. -/
def norm : Value → Value
  | null => null
  | bool b => bool b
  | byte n => long n.toInt64
  | short n => long n.toInt64
  | int n => long n.toInt64
  | long n => long n
  | float x => if x.isFinite = true then double (Double.ofSingle x) else null
  | double x => if x.isFinite = true then double x else null
  | char c => string c.toString
  | string s => string s
  | date t => string t.text
  | bigint n => normBigint n
  | bigdecimal d => string d.text
  | record _ fields => record "object" (normFields fields)
  | array e => array e.norm
  | buffer e => array e.norm
termination_by structural v => v

def normFields : Keyed.From Value lo → Keyed.From Value lo
  | .nil => .nil
  | .cons k h v rest => .cons k h (norm v) (normFields rest)
termination_by structural r => r

end

end Value

theorem ok_eq_ok {a b : α} : (.ok a : Except ε α) = .ok b ↔ b = a := by
  rw [Except.ok.injEq, eq_comm]

theorem map_eq_ok {f : α → β} {x : Except ε α} {b : β} :
    f <$> x = .ok b ↔ ∃ a, x = .ok a ∧ b = f a := by
  cases x with
  | error => exact ⟨nofun, fun ⟨_, h, _⟩ => nomatch h⟩
  | ok a =>
    exact ⟨fun h => ⟨a, rfl, ok_eq_ok.1 h⟩, fun ⟨_, h, hb⟩ => by cases h; exact ok_eq_ok.2 hb⟩

theorem map_eq_ok_iff {f : α → β} {x : Except ε α} {P : Prop} {a : α} {b : β}
    (h : ∀ c, x = .ok c ↔ P ∧ c = a) : f <$> x = .ok b ↔ P ∧ b = f a := by
  rw [map_eq_ok]
  constructor
  · rintro ⟨c, hc, hb⟩
    obtain ⟨hP, rfl⟩ := (h c).1 hc
    exact ⟨hP, hb⟩
  · rintro ⟨hP, hb⟩
    exact ⟨a, (h a).2 ⟨hP, rfl⟩, hb⟩

namespace Json

theorem int64?_ofInt64 (n : Int64) : (ofInt64 n).int64? = some n := by
  have hlt : n.toInt < 0x8000_0000_0000_0000 := n.toInt_lt
  rw [ofInt64, int64?, if_pos hlt, Int64.ofInt_toInt]

theorem bool?_ofDouble (x : Float) : (ofDouble x).bool? = none := by
  unfold ofDouble
  split <;> rfl

theorem int64?_ofDouble (x : Float) : (ofDouble x).int64? = none := by
  unfold ofDouble
  split <;> rfl

theorem double?_ofDouble (x : Float) :
    (ofDouble x).double? = if x.isFinite = true then some x else none := by
  unfold ofDouble
  split <;> rfl

theorem mapM_map_eq_some {f : α → Json} {g : Json → Option β} {h : α → β}
    (hread : ∀ a, g (f a) = some (h a)) (l : List α) : (l.map f).mapM g = some (l.map h) := by
  have hsome : g ∘ f = fun a => some (h a) := funext hread
  rw [List.mapM_map, hsome]
  exact List.mapM_pure

theorem elements_bools {l : List Bool} (h : l ≠ []) : elements (l.map .bool) = .ok (.bools l) := by
  obtain ⟨b, bs, rfl⟩ := List.exists_cons_of_ne_nil h
  unfold elements
  rw [mapM_map_eq_some (g := bool?) (h := id) fun _ => rfl, List.map_id]

theorem elements_longs {l : List α} (h : l ≠ []) (f : α → Int64) :
    elements (l.map fun a => ofInt64 (f a)) = .ok (.longs (l.map f)) := by
  obtain ⟨a, l, rfl⟩ := List.exists_cons_of_ne_nil h
  unfold elements
  rw [mapM_map_eq_some fun a => int64?_ofInt64 (f a)]
  rfl

theorem elements_of_head {j : Json} {js : List Json} (hbool : j.bool? = none)
    (hint : j.int64? = none) :
    elements (j :: js) = .doubles <$> doubles (j :: js) := by
  unfold elements
  simp [hbool, hint]

theorem doubles_eq_ok {l m : List Float} :
    doubles (l.map ofDouble) = .ok m ↔ (∀ x ∈ l, x.isFinite = true) ∧ m = l := by
  induction l generalizing m with
  | nil => exact ok_eq_ok.trans (iff_and_self.2 fun _ => nofun)
  | cons x l ih =>
    rw [List.map_cons, doubles, double?_ofDouble, List.forall_mem_cons]
    by_cases hx : x.isFinite = true
    · rw [if_pos hx, and_iff_right hx]
      exact map_eq_ok_iff fun _ => ih
    · rw [if_neg hx]
      exact ⟨nofun, fun h => absurd h.1.1 hx⟩

theorem elements_doubles {l : List Float} {e : Elements} (h : l ≠ []) :
    elements (l.map ofDouble) = .ok e ↔ (∀ x ∈ l, x.isFinite = true) ∧ e = .doubles l := by
  obtain ⟨x, l, rfl⟩ := List.exists_cons_of_ne_nil h
  rw [List.map_cons, elements_of_head (bool?_ofDouble x) (int64?_ofDouble x), ← List.map_cons]
  exact map_eq_ok_iff fun _ => doubles_eq_ok

theorem isFinite_toDouble (n : JsonNumber) : n.toDouble.isFinite = true := by
  cases n with
  | integer n fits => exact Double.isFinite_ofInt (by omega)
  | double x finite => exact finite

theorem isFinite_of_doubles {items : List Json} {l : List Float} (h : doubles items = .ok l) :
    ∀ x ∈ l, x.isFinite = true := by
  induction items generalizing l with
  | nil =>
    cases h
    exact nofun
  | cons j items ih =>
    rw [doubles] at h
    cases j with
    | number n =>
      obtain ⟨l, hl, rfl⟩ := map_eq_ok.1 h
      exact List.forall_mem_cons.2 ⟨isFinite_toDouble n, ih hl⟩
    | null | bool | string | array | object => cases h

end Json

namespace Elements

theorem toJson_of_size {e : Elements} (h : e.size = 0) : e.toJson = [] := by
  cases e <;> simpa [size, values, toJson] using h

theorem readable_of_size {e : Elements} (h : e.size = 0) : e.Readable := by
  cases e <;> simp_all [size, values, Readable]

theorem elements_toJson {e e' : Elements} :
    Json.elements e.toJson = .ok e' ↔ e.Readable ∧ e' = e.norm := by
  by_cases hsize : e.size = 0
  · rw [toJson_of_size hsize, norm, if_pos hsize, and_iff_right (readable_of_size hsize)]
    exact ok_eq_ok
  rw [norm, if_neg hsize]
  have hlongs {α : Type} (f : α → Int64) {l : List α} (h : l ≠ []) :
      Json.elements (l.map fun a => .ofInt64 (f a)) = .ok e' ↔ True ∧ e' = longs (l.map f) := by
    rw [Json.elements_longs h, true_and]
    exact ok_eq_ok
  cases e with
  | bools l =>
    have hl : l ≠ [] := by simpa [size, values] using hsize
    rw [toJson, Json.elements_bools hl]
    exact ok_eq_ok.trans (and_iff_right trivial).symm
  | bytes l => exact hlongs Int8.toInt64 (by simpa [size, values] using hsize)
  | shorts l => exact hlongs Int16.toInt64 (by simpa [size, values] using hsize)
  | ints l => exact hlongs Int32.toInt64 (by simpa [size, values] using hsize)
  | longs l =>
    have hlongs := hlongs id (l := l) (by simpa [size, values] using hsize)
    rw [List.map_id] at hlongs
    exact hlongs
  | floats l =>
    have hl : l ≠ [] := by simpa [size, values] using hsize
    have hdoubles := Json.elements_doubles (e := e')
      (mt (List.map_eq_nil_iff (f := Double.ofSingle)).1 hl)
    simp only [List.map_map, List.forall_mem_map, Double.isFinite_ofSingle] at hdoubles
    exact hdoubles
  | doubles l =>
    have hl : l ≠ [] := by simpa [size, values] using hsize
    exact Json.elements_doubles hl
  | chars l =>
    obtain ⟨c, l, rfl⟩ : ∃ c cs, l = c :: cs :=
      List.exists_cons_of_ne_nil (by simpa [size, values] using hsize)
    rw [toJson, List.map_cons, Json.elements_of_head rfl rfl]
    exact iff_of_false (fun h => by cases h) fun h => List.cons_ne_nil c l h.1

theorem norm_of_elements {items : List Json} {e : Elements} (h : Json.elements items = .ok e) :
    e.Readable ∧ e.norm = e := by
  unfold Json.elements at h
  split at h
  · cases h
    exact ⟨trivial, rfl⟩
  · cases h
    exact ⟨trivial, rfl⟩
  · obtain ⟨l, hl, rfl⟩ := map_eq_ok.1 h
    refine ⟨Json.isFinite_of_doubles hl, ?_⟩
    cases l <;> rfl

end Elements

namespace Value

theorem ofJson_ofInt64 (n : Int64) : ofJson (.ofInt64 n) = .ok (long n) := by
  have hlt : n.toInt < 0x8000_0000_0000_0000 := n.toInt_lt
  rw [Json.ofInt64, ofJson, ofNumber, if_pos hlt, Int64.ofInt_toInt]

theorem ofJson_ofDouble (x : Float) :
    ofJson (.ofDouble x) = .ok (if x.isFinite = true then double x else null) := by
  unfold Json.ofDouble
  split <;> rfl

theorem ofJson_bigint (n : Int) : ofJson (toJson (bigint n)) = .ok (normBigint n) := by
  rw [toJson, normBigint, Json.ofInt?]
  by_cases hfits : -0x8000_0000_0000_0000 ≤ n ∧ n < 0x1_0000_0000_0000_0000
  · rw [dif_pos hfits, Option.getD_some, ofJson, ofNumber]
    by_cases hlt : n < 0x8000_0000_0000_0000
    · rw [if_pos hlt, if_pos ⟨hfits.1, hlt⟩]
    · rw [if_neg hlt, if_neg fun h => hlt h.2, if_pos ⟨by omega, hfits.2⟩]
  · rw [dif_neg hfits, Option.getD_none, ofJson, if_neg fun h => hfits ⟨h.1, by omega⟩,
      if_neg fun h => hfits ⟨by omega, h.2⟩]

theorem ofJson_toJson_of_eq {v w : Value} (h : ofJson v.toJson = .ok v.norm) (hv : v.Readable) :
    ofJson v.toJson = .ok w ↔ v.Readable ∧ w = v.norm := by
  rw [h, and_iff_right hv]
  exact ok_eq_ok

mutual

theorem ofJson_toJson (v w : Value) : ofJson v.toJson = .ok w ↔ v.Readable ∧ w = v.norm := by
  -- The recursion is on the value and, for a record, on its fields together with it.
  cases v with
  | null | bool | string | char | date | bigdecimal => exact ofJson_toJson_of_eq rfl trivial
  | byte n | short n | int n => exact ofJson_toJson_of_eq (ofJson_ofInt64 n.toInt64) trivial
  | long n => exact ofJson_toJson_of_eq (ofJson_ofInt64 n) trivial
  | float x =>
    have hdouble := ofJson_ofDouble (Double.ofSingle x)
    rw [Double.isFinite_ofSingle] at hdouble
    exact ofJson_toJson_of_eq hdouble trivial
  | double x => exact ofJson_toJson_of_eq (ofJson_ofDouble x) trivial
  | bigint n => exact ofJson_toJson_of_eq (ofJson_bigint n) trivial
  | record m fields =>
    rw [toJson, ofJson]
    exact map_eq_ok_iff (fieldsOfJson_fieldsToJson fields)
  | array e | buffer e =>
    rw [toJson, ofJson]
    exact map_eq_ok_iff fun _ => Elements.elements_toJson
termination_by structural v

theorem fieldsOfJson_fieldsToJson (r r' : Keyed.From Value lo) :
    fieldsOfJson (fieldsToJson r) = .ok r' ↔ FieldsReadable r ∧ r' = normFields r := by
  cases r with
  | nil => exact ok_eq_ok.trans (and_iff_right trivial).symm
  | cons k h v rest =>
    rw [fieldsToJson, fieldsOfJson]
    cases hv : ofJson v.toJson with
    | error e =>
      have hnone := ofJson_toJson v v.norm
      rw [hv] at hnone
      exact ⟨nofun, fun ⟨⟨hreadable, _⟩, _⟩ => nomatch hnone.2 ⟨hreadable, rfl⟩⟩
    | ok w =>
      obtain ⟨hreadable, rfl⟩ := (ofJson_toJson v w).1 hv
      rw [FieldsReadable, and_iff_right hreadable]
      exact map_eq_ok_iff (fieldsOfJson_fieldsToJson rest)
termination_by structural r

end

theorem norm_ofNumber (n : JsonNumber) :
    (ofNumber n).Readable ∧ (ofNumber n).norm = ofNumber n := by
  cases n with
  | integer n fits =>
    rw [ofNumber]
    by_cases hlt : n < 0x8000_0000_0000_0000
    · rw [if_pos hlt]
      exact ⟨trivial, rfl⟩
    · rw [if_neg hlt, norm, normBigint, if_neg fun h => hlt h.2, if_pos ⟨by omega, fits.2⟩]
      exact ⟨trivial, rfl⟩
  | double x finite => exact ⟨trivial, if_pos finite⟩

mutual

theorem norm_of_ofJson (j : Json) (v : Value) (h : ofJson j = .ok v) : v.Readable ∧ v.norm = v := by
  cases j with
  | null | bool | string =>
    cases h
    exact ⟨trivial, rfl⟩
  | number n =>
    cases h
    exact norm_ofNumber n
  | array items =>
    obtain ⟨e, he, rfl⟩ := map_eq_ok.1 h
    obtain ⟨hreadable, hnorm⟩ := Elements.norm_of_elements he
    exact ⟨hreadable, congrArg array hnorm⟩
  | object members =>
    obtain ⟨fields, hfields, rfl⟩ := map_eq_ok.1 h
    obtain ⟨hreadable, hnorm⟩ := normFields_of_fieldsOfJson members fields hfields
    exact ⟨hreadable, congrArg (record "object") hnorm⟩
termination_by structural j

theorem normFields_of_fieldsOfJson (r : Keyed.From Json lo) (r' : Keyed.From Value lo)
    (h : fieldsOfJson r = .ok r') : FieldsReadable r' ∧ normFields r' = r' := by
  cases r with
  | nil =>
    cases h
    exact ⟨trivial, rfl⟩
  | cons k hk j rest =>
    rw [fieldsOfJson] at h
    cases hj : ofJson j with
    | error e => simp [hj] at h
    | ok v =>
      rw [hj] at h
      obtain ⟨rest', hrest, rfl⟩ := map_eq_ok.1 h
      obtain ⟨hvalue, hnorm⟩ := norm_of_ofJson j v hj
      obtain ⟨hvalues, hnorms⟩ := normFields_of_fieldsOfJson rest rest' hrest
      refine ⟨⟨hvalue, hvalues⟩, ?_⟩
      rw [normFields, hnorm, hnorms]
termination_by structural r

end

/-- What is read back from the JSON of a value is its normal form, unless the value holds an array
that cannot be read. Nothing is lost of a value that was itself read from JSON. -/
theorem ofJson_toJson_iff (v : Value) :
    (∀ w, ofJson v.toJson = .ok w ↔ v.Readable ∧ w = v.norm) ∧
      ∀ j, ofJson j = .ok v → v.norm = v ∧ ofJson v.toJson = .ok v := by
  refine ⟨ofJson_toJson v, fun j hj => ?_⟩
  obtain ⟨hreadable, hnorm⟩ := norm_of_ofJson j v hj
  exact ⟨hnorm, (ofJson_toJson v v).2 ⟨hreadable, hnorm.symm⟩⟩

theorem ofJson_toJson_iff_record :
    let v :=
      record "point" (.cons "x" .start (byte 7) (.cons "y" (.after (by decide)) (char 'a') .nil))
    let w := record "object"
      (.cons "x" .start (long 7) (.cons "y" (.after (by decide)) (string "a") .nil))
    ofJson v.toJson = .ok w ∧ ofJson w.toJson = .ok w ∧
      ∀ u, ofJson (toJson (array (.chars ['a']))) ≠ .ok u := by
  intro v w
  have hw : ofJson v.toJson = .ok w :=
    ((ofJson_toJson_iff v).1 w).2 ⟨⟨trivial, trivial, trivial⟩, rfl⟩
  refine ⟨hw, ((ofJson_toJson_iff w).2 v.toJson hw).2, fun u hu => ?_⟩
  exact absurd (((ofJson_toJson_iff _).1 u).1 hu).1 (List.cons_ne_nil _ _)

end Value

end Rollup
