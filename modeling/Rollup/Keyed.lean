/-!
Tables from text keys to values, kept in ascending order of the keys.

The type carries the key before each entry, so a table cannot hold a key twice or out of order, and
two tables with the same entries are equal. A lookup finds the value that was inserted last
(`find?_insert`), and nothing once the key is erased (`find?_erase`).
-/

namespace Rollup

/-- A key that may follow: any key at the start, and a larger one behind another. -/
inductive Above : Option String → String → Prop
  | start : Above none k
  | after : j < k → Above (some j) k

theorem Above.trans {lo : Option String} {j k : String} (h : Above lo j) (hjk : j < k) :
    Above lo k := by
  cases h with
  | start => exact .start
  | after h => exact .after (Std.lt_trans h hjk)

/-- The entries of a table that lie behind a given key. -/
inductive Keyed.From (α : Type) : Option String → Type
  | nil : Keyed.From α lo
  | cons (key : String) (above : Above lo key) (value : α) (rest : Keyed.From α (some key)) :
      Keyed.From α lo

abbrev Keyed (α : Type) := Keyed.From α none

namespace Keyed

theorem lt_of_not_lt {j k : String} (hne : ¬k = j) (hlt : ¬j < k) : k < j :=
  Std.lt_of_le_of_ne (Std.not_lt.1 hlt) hne

def empty : Keyed α := .nil

namespace From

def toList : From α lo → List (String × α)
  | .nil => []
  | .cons k _ v rest => (k, v) :: rest.toList

def find? (k : String) : From α lo → Option α
  | .nil => none
  | .cons j _ v rest => if k = j then some v else rest.find? k

def insertAbove (k : String) (v : α) : From α lo → Above lo k → From α lo
  | .nil, h => .cons k h v .nil
  | .cons j hj w rest, h =>
    if hne : k = j then .cons j hj v rest
    else if hlt : j < k then .cons j hj w (rest.insertAbove k v (.after hlt))
    else .cons k h v (.cons j (.after (lt_of_not_lt hne hlt)) w rest)

def lower (h : Above lo j) : From α (some j) → From α lo
  | .nil => .nil
  | .cons k hk v rest => .cons k (by cases hk with | after hjk => exact h.trans hjk) v rest

def erase (k : String) : From α lo → From α lo
  | .nil => .nil
  | .cons j hj v rest => if k = j then rest.lower hj else .cons j hj v (rest.erase k)

def size (t : From α lo) : Nat := t.toList.length

def isEmpty (t : From α lo) : Bool := t.toList.isEmpty

def keys (t : From α lo) : List String := t.toList.map Prod.fst

def contains (t : From α lo) (k : String) : Bool := (t.find? k).isSome

theorem find?_insertAbove (j k : String) (v : α) (t : From α lo) (h : Above lo k) :
    (t.insertAbove k v h).find? j = if j = k then some v else t.find? j := by
  induction t with
  | nil => rfl
  | cons i hi w rest ih =>
    simp only [insertAbove]
    split
    · rename_i hki
      subst hki
      simp only [find?]
      split <;> rfl
    · split
      · rename_i hne hlt
        simp only [find?, ih]
        by_cases hj : j = i
        · have : ¬j = k := fun h => hne (h ▸ hj)
          simp only [hj, if_pos, if_neg (hj ▸ this)]
        · simp only [if_neg hj]
      · rfl

theorem find?_eq_none {j k : String} (t : From α (some k)) (h : ¬k < j) : t.find? j = none := by
  generalize hlo : some k = lo at t
  induction t generalizing k with
  | nil => rfl
  | cons i hi w rest ih =>
    subst hlo
    cases hi with
    | after hki =>
      have hne : ¬j = i := fun hji => h (hji ▸ hki)
      simp only [find?, if_neg hne]
      exact ih (fun hij => h (Std.lt_trans hki hij)) rfl

theorem find?_lower (j : String) {i : String} (h : Above lo i) (t : From α (some i)) :
    (t.lower h).find? j = t.find? j := by
  cases t <;> rfl

theorem find?_erase (j k : String) (t : From α lo) :
    (t.erase k).find? j = if j = k then none else t.find? j := by
  induction t with
  | nil => simp only [erase, find?, ite_self]
  | cons i hi w rest ih =>
    simp only [erase]
    split
    · rename_i hki
      subst hki
      simp only [find?_lower, find?]
      by_cases hj : j = k
      · subst hj
        simp only [if_pos]
        exact find?_eq_none rest (Std.lt_irrefl)
      · simp only [if_neg hj]
    · rename_i hki
      simp only [find?, ih]
      by_cases hj : j = i
      · have : ¬j = k := fun h => hki (h ▸ hj)
        simp only [if_pos hj, if_neg this]
      · simp only [if_neg hj]

end From

def insert (t : Keyed α) (k : String) (v : α) : Keyed α := From.insertAbove k v t .start

theorem find?_insert (j k : String) (v : α) (t : Keyed α) :
    From.find? j (insert t k v) = if j = k then some v else From.find? j t :=
  From.find?_insertAbove j k v t .start

def insertAll (t : Keyed α) (l : List (String × α)) : Keyed α :=
  l.foldl (fun t e => insert t e.1 e.2) t

theorem find?_insertAll (t : Keyed α) (l : List (String × α)) (k : String) :
    From.find? k (insertAll t l) = (l.reverse.lookup k).or (From.find? k t) := by
  induction l generalizing t with
  | nil => rfl
  | cons e l ih =>
    obtain ⟨j, v⟩ := e
    change From.find? k (insertAll (insert t j v) l) = _
    rw [ih, find?_insert, List.reverse_cons, List.lookup_append, Option.or_assoc]
    by_cases hk : k = j
    · simp [hk]
    · simp [hk, List.lookup_cons, beq_false_of_ne hk]

def ofList (l : List (String × α)) : Keyed α := insertAll empty l

theorem find?_ofList (l : List (String × α)) (k : String) :
    From.find? k (ofList l) = l.reverse.lookup k := by
  rw [ofList, find?_insertAll]
  exact Option.or_none

end Keyed

end Rollup
