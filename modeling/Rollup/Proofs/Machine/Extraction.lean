import Rollup.Proofs.Machine.Signature

namespace Rollup

namespace Value

inductive Leads : Value → List String → Value → Prop
  | here : Leads v [] v
  | field : fields.find? key = some w → Leads w path leaf →
      Leads (.record name fields) (key :: path) leaf

/-- The value that the first `i` names lead to is no record, or has no field of the next name. -/
def StopsAt (v : Value) (path : List String) (i : Nat) : Prop :=
  ∃ w key, Leads v (path.take i) w ∧ path[i]? = some key ∧
    ∀ name fields, w = .record name fields → fields.find? key = none

theorem field?_eq_some {v w : Value} {key : String} :
    v.field? key = some w ↔ ∃ name fields, v = .record name fields ∧ fields.find? key = some w := by
  cases v with
  | record name fields =>
    exact ⟨fun h => ⟨name, fields, rfl, h⟩, fun ⟨_, _, heq, h⟩ => by cases heq; exact h⟩
  | _ => exact ⟨nofun, fun ⟨_, _, heq, _⟩ => by cases heq⟩

theorem field?_eq_none {v : Value} {key : String} :
    v.field? key = none ↔ ∀ name fields, v = .record name fields → fields.find? key = none := by
  cases v with
  | record name fields => exact ⟨fun h _ _ heq => by cases heq; exact h, fun h => h _ _ rfl⟩
  | _ => exact ⟨nofun, fun _ => rfl⟩

theorem follow_cons {v w : Value} {key : String} (h : v.field? key = some w) (path : List String) :
    v.follow (key :: path) = w.follow path := by
  rw [follow, h]

theorem follow_eq_ok {v : Value} {path : List String} {leaf : Value} :
    v.follow path = .ok leaf ↔ v.Leads path leaf := by
  constructor
  · intro h
    induction path generalizing v with
    | nil =>
      cases h
      exact .here
    | cons key path ih =>
      cases hfield : v.field? key with
      | none =>
        rw [follow, hfield] at h
        cases h
      | some w =>
        rw [follow_cons hfield] at h
        obtain ⟨name, fields, rfl, hfind⟩ := field?_eq_some.1 hfield
        exact .field hfind (ih h)
  · intro h
    induction h with
    | here => rfl
    | field hfind _ ih => rwa [follow_cons (field?_eq_some.2 ⟨_, _, rfl, hfind⟩)]

section

variable {v w : Value} {key : String} {path : List String}

theorem stopsAt_zero : v.StopsAt (key :: path) 0 ↔ v.field? key = none := by
  rw [field?_eq_none]
  constructor
  · rintro ⟨w, key', hleads, hkey, hnone⟩
    cases hleads
    cases hkey
    exact hnone
  · exact fun hnone => ⟨v, key, .here, rfl, hnone⟩

theorem stopsAt_succ {i : Nat} : v.StopsAt (key :: path) (i + 1) ↔ ∃ w, v.field? key = some w ∧
    w.StopsAt path i := by
  constructor
  · rintro ⟨u, key', hleads, hkey, hnone⟩
    cases hleads with
    | field hfind hleads =>
      exact ⟨_, field?_eq_some.2 ⟨_, _, rfl, hfind⟩, u, key', hleads, hkey, hnone⟩
  · rintro ⟨w, hfield, u, key', hleads, hkey, hnone⟩
    obtain ⟨name, fields, rfl, hfind⟩ := field?_eq_some.1 hfield
    exact ⟨u, key', .field hfind hleads, hkey, hnone⟩

end

theorem follow_of_stopsAt {v : Value} {path : List String} {i : Nat}
    {key : String} (h : v.StopsAt path i)
    (hkey : path[i]? = some key) : v.follow path = .error key := by
  induction path generalizing v i with
  | nil => cases hkey
  | cons first path ih =>
    cases i with
    | zero =>
      rw [stopsAt_zero] at h
      cases hkey
      rw [follow, h]
    | succ i =>
      obtain ⟨w, hfield, hstops⟩ := stopsAt_succ.1 h
      rw [follow_cons hfield]
      exact ih hstops hkey

theorem follow_eq_error {v : Value} {path : List String} {key : String} :
    v.follow path = .error key ↔ ∃ i, IsLeast {i | v.StopsAt path i} i ∧ path[i]? = some key := by
  refine ⟨fun h => ?_, fun ⟨i, hi, hkey⟩ => follow_of_stopsAt hi.1 hkey⟩
  induction path generalizing v with
  | nil => cases h
  | cons first path ih =>
    cases hfield : v.field? first with
    | none =>
      rw [follow, hfield] at h
      cases h
      exact ⟨0, ⟨stopsAt_zero.2 hfield, fun _ _ => Nat.zero_le _⟩, rfl⟩
    | some w =>
      rw [follow_cons hfield] at h
      obtain ⟨i, ⟨hstops, hleast⟩, hkey⟩ := ih h
      refine ⟨i + 1, ⟨stopsAt_succ.2 ⟨w, hfield, hstops⟩, fun j hj => ?_⟩, hkey⟩
      cases j with
      | zero =>
        cases hfield.symm.trans (stopsAt_zero.1 hj)
      | succ j =>
        obtain ⟨w', hfield', hstops'⟩ := stopsAt_succ.1 hj
        obtain rfl := Option.some_inj.1 (hfield.symm.trans hfield')
        exact Nat.succ_le_succ (hleast hstops')

end Value

namespace Target

def convert (t : Target) (leaf : Value) : Except EvalError Value :=
  match t.read? leaf with
  | some w => .ok w
  | none => .error (.numberFormat leaf.text t)

theorem convert_eq_ok {t : Target} {leaf w : Value} :
    t.convert leaf = .ok w ↔ t.read? leaf = some w := by
  unfold convert
  cases t.read? leaf with
  | none => exact ⟨nofun, nofun⟩
  | some => rw [Except.ok.injEq, Option.some_inj]

theorem convert_eq_error {t : Target} {leaf : Value} :
    t.convert leaf = .error (.numberFormat leaf.text t) ↔ t.read? leaf = none := by
  unfold convert
  cases t.read? leaf with
  | none => exact iff_of_true rfl rfl
  | some => exact ⟨nofun, nofun⟩

end Target

namespace Machine

section

variable {t : Target} {path : List String} {v leaf : Value} (hpath : path ≠ []) (rest : List Value)

theorem after_extract (t : Target) (path : List String) (c : Config)
    (opened : Nat) (steps : List Step) :
    (start (.extract t path) c opened).after steps = extract t path :=
  after_eq_extract.2 rfl

include hpath

theorem extractFrom_of_isSome (hv : v.fields?.isSome = true) :
    extractFrom t path (v :: rest) =
      match v.follow path with
      | .error key => .error (.fieldNotFound key path)
      | .ok leaf => t.convert leaf := by
  have hrecord : v.fields?.isNone = false := by simpa using hv
  cases path with
  | nil => exact absurd rfl hpath
  | cons key path =>
    simp only [extractFrom, hrecord, Bool.false_eq_true, if_false]
    cases v.follow (key :: path) <;> rfl

theorem extractFrom_of_leads (h : v.Leads path leaf) :
    extractFrom t path (v :: rest) = t.convert leaf := by
  have hv : v.fields?.isSome = true := by
    cases h with
    | here => exact absurd rfl hpath
    | field => rfl
  rw [extractFrom_of_isSome hpath rest hv, Value.follow_eq_ok.2 h]

theorem extractFrom_of_stopsAt (hv : v.fields?.isSome = true) {i : Nat}
    {key : String} (h : v.StopsAt path i) (hkey : path[i]? = some key) :
    extractFrom t path (v :: rest) = .error (.fieldNotFound key path) := by
  rw [extractFrom_of_isSome hpath rest hv, Value.follow_of_stopsAt h hkey]

end

/-- A record is followed along the path of an extraction. If the path stops, the first name at which
it does is told, and else what it leads to is read as the target, null as the fallback. So samples
in which it leads to the same are answered the same, and so are samples in which it stops at the
same name. -/
theorem extraction_of_path (t : Target) {path : List String} (hpath : path ≠ [])
    (c : Config) (opened : Nat) (steps : List Step) (r : Resolver) (now : Nat) :
    let m := (start (.extract t path) c opened).after steps
    let answer (v : Value) (rest : List Value) := (m.eval r now (v :: rest)).1
    (∀ name fields rest, let v := Value.record name fields
      (∃ i key, IsLeast {i | v.StopsAt path i} i ∧ path[i]? = some key ∧
        answer v rest = .error (.fieldNotFound key path) ∧
        (EvalError.fieldNotFound key path).message =
          "field '" ++ key ++ "' not found (path " ++ ".".intercalate path ++ ")") ∨
      ((∀ i, ¬ v.StopsAt path i) ∧ ∃ leaf, v.Leads path leaf ∧ answer v rest = t.convert leaf ∧
        (leaf = .null → answer v rest = .ok t.fallback))) ∧
      (∀ v v' rest rest' leaf, v.Leads path leaf → v'.Leads path leaf →
      answer v rest = answer v' rest') ∧ ∀ name name' fields fields' rest rest' i i' key,
        let v := Value.record name fields
        let v' := Value.record name' fields'
        v.StopsAt path i → v'.StopsAt path i' → path[i]? = some key → path[i']? = some key →
          answer v rest = answer v' rest' := by
  intro m answer
  have hanswer (v : Value) (rest : List Value) : answer v rest =
      extractFrom t path (v :: rest) := by
    change ((start (.extract t path) c opened).after steps |>.eval r now (v :: rest)).1 = _
    rw [after_extract]
    rfl
  refine ⟨fun name fields rest => ?_, fun v v' rest rest' leaf h h' => ?_, ?_⟩
  · intro v
    rw [hanswer]
    cases hfollow : v.follow path with
    | error key =>
      obtain ⟨i, hi, hkey⟩ := Value.follow_eq_error.1 hfollow
      exact .inl ⟨i, key, hi, hkey, extractFrom_of_stopsAt hpath rest rfl hi.1 hkey, rfl⟩
    | ok leaf =>
      have hleads := Value.follow_eq_ok.1 hfollow
      refine .inr ⟨fun i hstops => ?_, leaf, hleads, extractFrom_of_leads hpath rest hleads, ?_⟩
      · obtain ⟨w, key, -, hkey, -⟩ := id hstops
        cases hfollow.symm.trans (Value.follow_of_stopsAt hstops hkey)
      · rintro rfl
        exact extractFrom_of_leads hpath rest hleads
  · rw [hanswer, hanswer, extractFrom_of_leads hpath rest h, extractFrom_of_leads hpath rest' h']
  · intro name name' fields fields' rest rest' i i' key v v' h h' hkey hkey'
    rw [hanswer, hanswer, extractFrom_of_stopsAt hpath rest rfl h hkey,
      extractFrom_of_stopsAt hpath rest' rfl h' hkey']

theorem extraction_of_path_nested :
    let m := start (.extract .int ["host", "load"]) {} 0
    let answer (v : Value) := (m.eval .none 1 [v]).1
    let host (v : Value) := Value.record "sample" (Keyed.ofList [("host", v)])
    let load := Keyed.ofList [("load", Value.double (Double.ofNat 7))]
    (∃ i key, IsLeast {i | (host .null).StopsAt ["host", "load"] i} i ∧
      ["host", "load"][i]? = some key ∧
      answer (host .null) = .error (.fieldNotFound key ["host", "load"])) ∧
      answer (host (.record "a" load)) =
      answer (host (.record "b" (Keyed.insert load "name" (.char 'x')))) := by
  intro m answer host load
  obtain ⟨hfollowed, hsame, -⟩ := extraction_of_path .int (List.cons_ne_nil "host" ["load"]) {} 0
    [] .none 1
  refine ⟨?_, hsame _ _ [] [] (.double (Double.ofNat 7)) (.field rfl (.field rfl .here))
    (.field rfl (.field rfl .here))⟩
  rcases hfollowed "sample" (Keyed.ofList [("host", .null)]) []
    with ⟨i, key, hi, hkey, hanswer, -⟩ | ⟨hnot, -⟩
  · exact ⟨i, key, hi, hkey, hanswer⟩
  · exact absurd (Value.stopsAt_succ.2 ⟨.null, rfl, Value.stopsAt_zero.2 rfl⟩) (hnot 1)

end Machine

end Rollup
