import Rollup.Proofs.Keyed
import Rollup.Proofs.Plan.Shift

namespace Rollup

open Keyed (From)

variable {α : Type}

def Registry.builtinOf (f : Kind → α) : Keyed α :=
  Kind.all.foldl (fun r k => Keyed.insert r k.name (f k)) Keyed.empty

theorem Registry.builtin_eq_builtinOf : builtin = builtinOf id := rfl

theorem Registry.find?_builtinOf (f : Kind → α) (name : String) :
    (builtinOf f).find? name = (builtin.find? name).map f := by
  have hfold (ks : List Kind) (r : Keyed α) (s : Registry)
    (h : r.find? name = (s.find? name).map f) :
      (ks.foldl (fun r k => Keyed.insert r k.name (f k)) r).find? name =
        (Registry.find? (ks.foldl (fun r k => register r k.name k) s) name).map f := by
    induction ks generalizing r s with
    | nil => exact h
    | cons k ks ih =>
      refine ih _ _ ?_
      rw [Keyed.find?_insert, find?_register]
      split_ifs
      · rfl
      · exact h
  exact hfold Kind.all _ _ rfl

namespace Parse

/-- An expression, where `routine` tells what reads on behind a name that the table holds. A routine
is handed the table as well, in which it may look up further names. -/
def expressionBy (routine : α → Keyed α → Parse Plan) (r : Keyed α) : Parse Expression := do
  let t ← required .name
  match t.kind with
  | .name =>
    match r.find? t.text with
    | some a => Expression.plan <$> routine a r
    | none => throw (.unknownFunction t.text t.position)
  | .integer => Expression.integer <$> integerOf t
  | .dollar => do
    let t ← expect .name
    return .operand t.text
  | _ => throw (.unexpectedToken t)

def formulaBy (routine : α → Keyed α → Parse Plan) (r : Keyed α) : Parse Plan :=
  expressionBy routine r >>= conclude

theorem expression_eq_expressionBy (r : Registry) :
    expression r = expressionBy (fun k _ => parameters k) r := by
  unfold expression expressionBy
  congr 1
  funext t
  obtain ⟨⟨kind, text⟩, position⟩ := t
  cases kind with
  | name =>
    have hfind : r.find? text = From.find? text r := rfl
    simp only [hfind]
    cases From.find? text r <;> rfl
  | _ => rfl

theorem formula_eq_formulaBy (r : Registry) :
    formula r = formulaBy (fun k _ => parameters k) r := by
  rw [formula_eq, formulaBy, expression_eq_expressionBy]

variable {routine : α → Keyed α → Parse Plan} {r r' : Keyed α} {c d : Cursor}

/-- The tables agree on the name that the text begins with, and the routine that they have there
looks up no further name. -/
def AgreeAt (routine : α → Keyed α → Parse Plan) (r r' : Keyed α) (c : Cursor) : Prop :=
  ∀ t d, c.next = .ok (some t) d → t.kind = .name → r.find? t.text = r'.find? t.text ∧
    ∀ a, r.find? t.text = some a → ∀ s s', routine a s = routine a s'

theorem expressionBy_congr (h : AgreeAt routine r r' c) :
    expressionBy routine r c = expressionBy routine r' c := by
  cases hc : Cursor.required .name c with
  | error e d =>
    exact (bind_of_error _ (ofScan_of_error hc)).trans (bind_of_error _ (ofScan_of_error hc)).symm
  | ok t d =>
    refine (bind_of_ok _ (ofScan_eq_ok.2 hc)).trans
      (Eq.trans ?_ (bind_of_ok _ (ofScan_eq_ok.2 hc)).symm)
    have ht := h t d (Cursor.required_eq_ok.1 hc)
    obtain ⟨⟨kind, text⟩, position⟩ := t
    cases kind with
    | name =>
      obtain ⟨hfind, hroutine⟩ := ht rfl
      cases ha : r.find? text with
      | none => simp only [← hfind, ha]
      | some a => simp only [← hfind, ha, hroutine a ha r r']
    | _ => rfl

theorem formulaBy_congr (h : AgreeAt routine r r' c) :
    formulaBy routine r c = formulaBy routine r' c :=
  bind_congr_left _ (expressionBy_congr h)

theorem formulaBy_of_name {t : Token} {a : α} (hnext : c.next = .ok (some t) d)
    (ht : t.kind = .name) (ha : r.find? t.text = some a) :
    formulaBy routine r c = (routine a r >>= fun p => conclude (.plan p)) d := by
  have hrequired : required .name c = .ok t d := ofScan_eq_ok.2 (Cursor.required_eq_ok.2 hnext)
  have hexpression : expressionBy routine r c = (Expression.plan <$> routine a r) d :=
    (bind_of_ok _ hrequired).trans (by simp only [ht, ha])
  rw [← bind_map_left]
  exact bind_congr_left _ hexpression

open Grammar in
theorem kind_of_isCall {k : Kind} {ls : List Lexeme} {p : Plan} (h : IsCall k ls p) :
    p.kind = k := by
  obtain ⟨h⟩ := h
  cases h <;> rfl

end Parse

def Plan.parseBy (routine : α → Keyed α → Parse Plan) (r : Keyed α) (text : String) :
    Except ParseError Plan :=
  match Parse.formulaBy routine r (Cursor.start text) with
  | .ok p _ => .ok p
  | .error e _ => .error e

theorem Plan.parse_eq_parseBy :
    Plan.parse = Plan.parseBy (fun k _ => Parse.parameters k) Registry.builtin := by
  funext text
  cases h : Parse.formulaBy (fun k _ => Parse.parameters k) Registry.builtin (Cursor.start text) <;>
    simp only [parse, parseBy, Parse.formula_eq_formulaBy, h]

namespace Plan

variable {routine : α → Keyed α → Parse Plan} {r : Keyed α}

def behind (k : Kind) (rest : String) : Except ParseError Plan :=
  match (Parse.parameters k >>= fun p => Parse.conclude (.plan p)) (Cursor.start rest) with
  | .ok p _ => .ok p
  | .error e _ => .error e

theorem next_of_name {gap name rest : String} (hgap : ∀ c ∈ gap.toList, isLayout c = true)
    (hname : (Lexeme.name name).Spelled) (hrest : ∀ c ∈ rest.toList.head?, isLetter c = false) :
    (Cursor.start (gap ++ name ++ rest)).next =
      .ok (some ⟨.name name, gap.length⟩)
        ((Cursor.start rest).moved (gap.length + name.length)) := by
  have htoken := Cursor.next_append hname hrest gap.toList.length
  rw [String.ofList_toList] at htoken
  rw [Cursor.start, String.toList_append, String.toList_append, List.append_assoc,
    Cursor.next_layout hgap, Nat.zero_add, Cursor.start, Cursor.moved, Nat.zero_add,
    ← String.length_toList, ← String.length_toList]
  exact htoken

theorem parseBy_of_name {k : Kind} {a : α} {gap name rest : String} (ha : r.find? name = some a)
    (hroutine : routine a r = Parse.parameters k) (hgap : ∀ c ∈ gap.toList, isLayout c = true)
    (hname : (Lexeme.name name).Spelled) (hrest : ∀ c ∈ rest.toList.head?, isLetter c = false) :
    parseBy routine r (gap ++ name ++ rest) =
      (behind k rest).mapError (ParseError.moved (gap.length + name.length)) := by
  have huniform := (Parse.uniform_parameters k).bind Parse.uniform_conclude
  rw [parseBy, Parse.formulaBy_of_name (next_of_name hgap hname hrest) rfl ha, hroutine, huniform,
    behind]
  cases (Parse.parameters k >>= fun p => Parse.conclude (.plan p)) (Cursor.start rest) <;> rfl

theorem kind_of_behind {k : Kind} {rest : String} {p : Plan} (h : behind k rest = .ok p) :
    p.kind = k := by
  rw [behind] at h
  split at h <;> cases h
  rename_i d hresult
  obtain ⟨q, e, hq, hconclude⟩ := Parse.bind_eq_ok.1 hresult
  obtain ⟨ts, -, hcall⟩ := (Parse.accepts_parameters k _ q e).1 hq
  obtain rfl : q = p := by
    obtain ⟨t?, f, -, hend⟩ := Parse.bind_eq_ok.1 hconclude
    cases t? <;> cases hend
    rfl
  exact Parse.kind_of_isCall hcall

/-- The last registration of a name counts, and the names are listed in the order of their bytes. A
formula whose routine looks up no further name is looked up once, by its first name, and a name is
as good as any other under which the same routine is registered. -/
theorem lookups_and_aliases (f : Kind → α) (routine : α → Keyed α → Parse Plan)
    (hf : ∀ k r, routine (f k) r = Parse.parameters k) :
    ((∀ r : Registry, Parse.formula r = Parse.formulaBy (fun k _ => Parse.parameters k) r) ∧
        parse = parseBy (fun k _ => Parse.parameters k) Registry.builtin ∧
        Registry.builtin = Registry.builtinOf id) ∧
      (∀ (base : Keyed α) (calls : List (String × α)) (name : String),
        (Keyed.insertAll base calls).find? name =
            (calls.reverse.lookup name).or (base.find? name) ∧
          ((Keyed.insertAll base calls).contains name = true ↔
            name ∈ calls.map Prod.fst ∨ base.contains name = true)) ∧
      (∀ r : Keyed α, r.keys.Pairwise (fun s t => bytes s < bytes t) ∧
        ∀ name, name ∈ r.keys ↔ r.contains name = true) ∧
      (∀ name, From.contains (Keyed.empty : Keyed α) name = false) ∧
      (∀ name a, (Registry.builtinOf f).find? name = some a ↔ ∃ k : Kind, name = k.name ∧ a = f k) ∧
      (∀ (r r' : Keyed α) (text : String), Parse.AgreeAt routine r r' (Cursor.start text) →
        parseBy routine r text = parseBy routine r' text) ∧
      (∀ (e : ParseError) (n : Nat), (e.moved n).position? = e.position?.map (· + n)) ∧
      ∀ (r r' : Keyed α) (k : Kind) (gap nickname rest : String),
        r.find? nickname = some (f k) → r'.find? k.name = some (f k) →
        (∀ c ∈ gap.toList, isLayout c = true) → (Lexeme.name nickname).Spelled →
        (∀ c ∈ rest.toList.head?, isLetter c = false) →
          ∃ x : Except ParseError Plan,
            parseBy routine r (gap ++ nickname ++ rest) =
              x.mapError (ParseError.moved (gap.length + nickname.length)) ∧
            parseBy routine r' (gap ++ k.name ++ rest) =
              x.mapError (ParseError.moved (gap.length + k.name.length)) ∧
            ∀ p, x = .ok p → p.text = k.name ++ "(" ++ p.argumentText ++ ")" := by
  refine ⟨⟨Parse.formula_eq_formulaBy, parse_eq_parseBy, Registry.builtin_eq_builtinOf⟩,
    fun base calls name => ⟨?_, ?_⟩, fun r => ⟨?_, fun name => From.mem_keys r⟩, fun _ => rfl,
    fun name a => ?_, fun r r' text h => ?_, fun e n => ParseError.position?_moved n e,
    fun r r' k gap nickname rest ha hk hgap hnickname hrest => ?_⟩
  · exact Keyed.find?_insertAll base calls name
  · simp only [From.contains, ← From.mem_keys]
    exact Keyed.mem_keys_insertAll base calls
  · exact r.pairwise_keys.imp bytes_lt_of_lt
  · simp only [Registry.find?_builtinOf, Option.map_eq_some_iff, Registry.find?_builtin,
      eq_comm (a := a)]
  · rw [parseBy, parseBy, Parse.formulaBy_congr h]
  · refine ⟨behind k rest, parseBy_of_name ha (hf k r) hgap hnickname hrest,
      parseBy_of_name hk (hf k r') hgap (spelled_kindName k) hrest, fun p hp => ?_⟩
    rw [text, kind_of_behind hp]

/-- What `none` stands for reads one more expression between brackets, which may hold `depth` more
of its kind. -/
def nested : Nat → Option Kind → Keyed (Option Kind) → Parse Plan
  | _, some k, _ => Parse.parameters k
  | 0, none, _ => Parse.parameters .max
  | depth + 1, none, r => do
    let _ ← Parse.expect .leftBracket
    let e ← Parse.expressionBy (nested depth) r
    let _ ← Parse.expect .rightBracket
    match e with
    | .plan p => return p
    | e => throw (.expectedFunction e)

/-- Tables that agree on a name need not agree on what its routine looks up. -/
theorem lookup_of_nested :
    let r := Keyed.insert (Registry.builtinOf some) "first" none
    let r' := Keyed.insert Keyed.empty "first" none
    let text := "first(max())"
    (∀ t d, (Cursor.start text).next = .ok (some t) d → t.kind = .name →
        r.find? t.text = r'.find? t.text) ∧
      parseBy (nested 1) r text = .ok .max ∧
      parseBy (nested 1) r' text = .error (.unknownFunction "max" 6) := by
  intro r r' text
  have hnext : (Cursor.start text).next = .ok (some ⟨.name "first", 0⟩) ⟨5, "(max())".toList⟩ := by
    decide +kernel
  refine ⟨fun t d ht _ => ?_, by decide +kernel, by decide +kernel⟩
  cases hnext.symm.trans ht
  rfl

theorem lookups_and_aliases_average :
    let routine := nested 1
    let r := Keyed.insertAll (Registry.builtinOf some)
      [("first", none), ("average", some .max), ("average", some .avg)]
    let r' := Keyed.insert Keyed.empty "average" (some .avg)
    let rest := "(5 fortnights"
    let text := "" ++ "average" ++ rest
    (∀ k r, routine (some k) r = Parse.parameters k) ∧ r.find? "average" = some (some .avg) ∧
      (Registry.builtinOf some).find? Kind.avg.name = some (some .avg) ∧
      (∀ c ∈ "".toList, isLayout c = true) ∧ (Lexeme.name "average").Spelled ∧
      (∀ c ∈ rest.toList.head?, isLetter c = false) ∧
      Parse.AgreeAt routine r r' (Cursor.start text) ∧
      parseBy routine (Registry.builtinOf some) ("" ++ Kind.avg.name ++ rest) =
        .error (.unknownTimeUnit "fortnights" 6) ∧
      parseBy routine r text = .error (.unknownTimeUnit "fortnights" 10) ∧
      parseBy routine r' text = .error (.unknownTimeUnit "fortnights" 10) := by
  intro routine r r' rest text
  have hf (k : Kind) (r : Keyed (Option Kind)) : routine (some k) r = Parse.parameters k := rfl
  obtain ⟨-, hregister, -, -, -, hlocal, -, halias⟩ := lookups_and_aliases some routine hf
  have hfind : r.find? "average" = some (some .avg) := (hregister _ _ "average").1
  have havg : (Registry.builtinOf some).find? Kind.avg.name = some (some .avg) := rfl
  have hgap : ∀ c ∈ "".toList, isLayout c = true := nofun
  have hspelled : (Lexeme.name "average").Spelled :=
    .name (by decide) (List.all_eq_true.1 (by decide))
  have hrest : ∀ c ∈ rest.toList.head?, isLetter c = false := by
    have hhead : rest.toList.head? = some '(' := by decide
    rw [hhead]
    rintro _ ⟨⟩
    decide
  have hagree : Parse.AgreeAt routine r r' (Cursor.start text) := by
    intro t d ht _
    cases (next_of_name hgap hspelled hrest).symm.trans ht
    refine ⟨hfind, fun a ha _ _ => ?_⟩
    cases hfind.symm.trans ha
    rfl
  have herror : parseBy routine (Registry.builtinOf some) ("" ++ Kind.avg.name ++ rest) =
      .error (.unknownTimeUnit "fortnights" 6) := by
    decide +kernel
  have hmoved : parseBy routine r text = .error (.unknownTimeUnit "fortnights" 10) := by
    obtain ⟨x, hnickname, hname, -⟩ :=
      halias r (Registry.builtinOf some) .avg "" "average" rest hfind havg hgap hspelled hrest
    have hlength : "".length + Kind.avg.name.length = 3 ∧ "".length + "average".length = 7 := by
      decide
    rw [herror, hlength.1] at hname
    rw [hnickname, hlength.2]
    rcases x with (e | p)
    · cases e with
      | unknownTimeUnit s n =>
        obtain ⟨rfl, hn⟩ : "fortnights" = s ∧ 6 = n + 3 := by
          simpa [Except.mapError, ParseError.moved] using hname
        obtain rfl : 3 = n := by omega
        rfl
      | _ => cases hname
    · cases hname
  exact ⟨hf, hfind, havg, hgap, hspelled, hrest, hagree, herror, hmoved,
    (hlocal r r' text hagree).symm.trans hmoved⟩

end Plan

end Rollup
