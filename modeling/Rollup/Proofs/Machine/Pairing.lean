import Mathlib
import Rollup.Proofs.Machine.Signature

/-!
Correlations and histories.

A correlation asks for its operand at each sample and keeps nothing of what it was told before. So
the state is told from the history: it is what the pairs since the last reset give, each of a sample
and of the operand's value at this sample (`machine_after`), and what is bound between two samples
does not matter (`correl_eq_of_history`).
-/

namespace Rollup

def Value.IsNumeric (v : Value) : Prop := v.tag?.any TypeTag.isNumeric = true

theorem Value.isNumeric_iff {v : Value} : v.IsNumeric ↔ v.number?.isSome = true := by
  rw [IsNumeric, isSome_number?]

def Comoments.ofPairs (l : List (Float × Float)) : Comoments Float :=
  l.foldl (fun m p => m.add p.1 p.2) .start

/-- A machine beside the operands that it is given. -/
structure Session where
  machine : Machine
  bindings : Bindings

namespace Session

inductive Event
  | bind (name : String) (v : Value)
  | unbind (name : String)
  | eval (now : Nat) (args : List Value)
  | reset (now : Nat)

def answer (s : Session) (now : Nat) (args : List Value) : Except EvalError Value :=
  (s.machine.eval s.bindings.resolver now args).1

def step (s : Session) : Event → Session
  | .bind name v => { s with bindings := s.bindings.bind name v }
  | .unbind name => { s with bindings := s.bindings.unbind name }
  | .eval now args => { s with machine := (s.machine.eval s.bindings.resolver now args).2 }
  | .reset now => { s with machine := s.machine.reset now }

def after (s : Session) : List Event → Session
  | [] => s
  | e :: earlier => (s.after earlier).step e

def correl (name : String) (c : Config) (opened : Nat) : Session :=
  ⟨.start (.correl name) c opened, .empty⟩

def bound (name : String) : List Event → Option Value
  | [] => none
  | .bind other v :: earlier => if name = other then some v else bound name earlier
  | .unbind other :: earlier => if name = other then none else bound name earlier
  | .eval _ _ :: earlier | .reset _ :: earlier => bound name earlier

def pair? (name : String) (earlier : List Event) (args : List Value) : Option (Float × Float) :=
  match args.head?.bind Value.number?, (bound name earlier).bind Value.number? with
  | some x, some y => some (x, y)
  | _, _ => none

def pairs (name : String) : List Event → List (Float × Float)
  | [] | .reset _ :: _ => []
  | .eval _ args :: earlier => pairs name earlier ++ (pair? name earlier args).toList
  | .bind _ _ :: earlier | .unbind _ :: earlier => pairs name earlier

theorem find?_after {s : Session} (hs : s.bindings = .empty) (name : String)
    (history : List Event) :
    (s.after history).bindings.find? name = bound name history := by
  induction history with
  | nil =>
    rw [after, hs]
    rfl
  | cons e earlier ih =>
    cases e with
    | bind other v => exact (Keyed.find?_insert name other v _).trans (by rw [bound, ← ih]; rfl)
    | unbind other => exact (Keyed.From.find?_erase name other _).trans (by rw [bound, ← ih]; rfl)
    | eval | reset => exact ih

theorem isSome_pair? {name : String} {earlier : List Event} {args : List Value} :
    (pair? name earlier args).isSome = true ↔
      (∃ v, args.head? = some v ∧ v.IsNumeric) ∧ ∃ v, bound name earlier = some v ∧
      v.IsNumeric := by
  have hnumeric (v? : Option Value) : (v?.bind Value.number?).isSome = true ↔
      ∃ v, v? = some v ∧ v.IsNumeric := by
    cases v? <;> simp [Value.isNumeric_iff]
  rw [← hnumeric, ← hnumeric, pair?]
  cases args.head?.bind Value.number? <;> cases (bound name earlier).bind Value.number? <;> simp

theorem operandValue_of_number {b : Bindings} {name : String} {y : Float}
    (h : (b.find? name).bind Value.number? = some y) :
    Machine.operandValue name b.resolver = .ok y := by
  obtain ⟨v, hv, hy⟩ := Option.bind_eq_some_iff.1 h
  simp only [Machine.operandValue, Bindings.resolver, hv]
  by_cases hdouble : v.tag? = some .double
  · simp only [hdouble, if_true, hy]
  · simp only [hdouble, if_false, hy]
    rfl

theorem operandValue_of_none {b : Bindings} {name : String}
    (h : (b.find? name).bind Value.number? = none) :
    ∃ e, Machine.operandValue name b.resolver = .error e := by
  cases hv : b.find? name with
  | none =>
    simp only [Machine.operandValue, Bindings.resolver, hv]
    exact ⟨_, rfl⟩
  | some v =>
    rw [hv, Option.bind_some] at h
    have hdouble : v.tag? ≠ some .double := by
      intro hdouble
      have hsome := v.isSome_number?
      rw [h, hdouble] at hsome
      cases hsome
    simp only [Machine.operandValue, Bindings.resolver, hv, hdouble, if_false, h]
    exact ⟨_, rfl⟩

section

variable {name : String} {earlier : List Event} {args : List Value}
    {s : Session} {m : Comoments Float}

theorem eval_of_pair {x y : Float} (hs : s.bindings.find? name = bound name earlier)
    (h : pair? name earlier args = some (x, y)) (now : Nat) :
    (Machine.correl name m).eval s.bindings.resolver now args =
      (.ok (.double (m.add x y).coefficient), .correl name (m.add x y)) := by
  unfold pair? at h
  split at h
  · rename_i hx hy
    cases h
    rw [← hs] at hy
    rw [Machine.eval, Machine.readArgument_of_head hx, operandValue_of_number hy]
    rfl
  · cases h

theorem eval_of_no_pair (hs : s.bindings.find? name = bound name earlier)
    (h : pair? name earlier args = none) (now : Nat) :
    ∃ e, (Machine.correl name m).eval s.bindings.resolver now args =
      (.error e, .correl name m) := by
  cases hx : args.head?.bind Value.number? with
  | none =>
    obtain ⟨e, he⟩ := Machine.readArgument_of_none .correl hx
    exact ⟨e, by rw [Machine.eval, Machine.kind, he]; rfl⟩
  | some x =>
    have hy : (s.bindings.find? name).bind Value.number? = none := by
      rw [pair?, hx, ← hs] at h
      cases hy : (s.bindings.find? name).bind Value.number? with
      | none => rfl
      | some y => rw [hy] at h; cases h
    obtain ⟨e, he⟩ := operandValue_of_none hy
    exact ⟨e, by rw [Machine.eval, Machine.readArgument_of_head hx, he]; rfl⟩

end

theorem machine_after (name : String) (c : Config) (opened : Nat) (history : List Event) :
    ((correl name c opened).after history).machine =
      .correl name (.ofPairs (pairs name history)) := by
  induction history with
  | nil => rfl
  | cons e earlier ih =>
    cases e with
    | bind | unbind => exact ih
    | reset now =>
      rw [after, step, ih]
      rfl
    | eval now args =>
      have hbound := find?_after (s := correl name c opened) rfl name earlier
      simp only [after, step, ih, pairs]
      cases hpair : pair? name earlier args with
      | none =>
        obtain ⟨e, heval⟩ := eval_of_no_pair hbound hpair now
        rw [heval, Option.toList_none, List.append_nil]
      | some p =>
        rw [eval_of_pair hbound hpair now, Option.toList_some, Comoments.ofPairs,
          Comoments.ofPairs, List.foldl_append]
        rfl

section

variable {name : String} {c : Config} {opened : Nat} {earlier : List Event} {args : List Value}

theorem answer_of_pair {p : Float × Float} (h : pair? name earlier args = some p) (now : Nat) :
    ((correl name c opened).after earlier).answer now args =
      .ok (.double (Comoments.ofPairs (pairs name (.eval now args :: earlier))).coefficient) := by
  have hbound := find?_after (s := correl name c opened) rfl name earlier
  rw [answer, machine_after, eval_of_pair hbound h now]
  simp only [pairs, h, Option.toList_some, Comoments.ofPairs, List.foldl_append,
    List.foldl_cons, List.foldl_nil]

theorem answer_of_no_pair (h : pair? name earlier args = none) (now : Nat) :
    ∃ e, ((correl name c opened).after earlier).answer now args = .error e := by
  have hbound := find?_after (s := correl name c opened) rfl name earlier
  obtain ⟨e, heval⟩ := eval_of_no_pair hbound h now
  exact ⟨e, by rw [answer, machine_after, heval]⟩

theorem exists_pair_of_answer {now : Nat} {v : Value}
    (h : ((correl name c opened).after earlier).answer now args = .ok v) :
    ∃ p, pair? name earlier args = some p := by
  cases hpair : pair? name earlier args with
  | none =>
    have hfails : ∃ e, ((correl name c opened).after earlier).answer now args = .error e :=
      answer_of_no_pair hpair now
    obtain ⟨e, he⟩ := hfails
    cases h.symm.trans he
  | some p => exact ⟨p, rfl⟩

end

/-- Events that leave no trace in a correlation: bindings, and samples that fail. -/
inductive Idle (s : Session) (earlier : List Event) : Event → Prop
  | bind : Idle s earlier (.bind other v)
  | unbind : Idle s earlier (.unbind other)
  | failed : (s.after earlier).answer now args = .error e → Idle s earlier (.eval now args)

/-- Histories that differ in idle events only, as long as the name has the same value at all other
samples. -/
inductive Alike (s : Session) (name : String) : List Event → List Event → Prop
  | nil : Alike s name [] []
  | left : Idle s h e → Alike s name h k → Alike s name (e :: h) k
  | right : Idle s k e → Alike s name h k → Alike s name h (e :: k)
  | eval : bound name h = bound name k → Alike s name h k →
      Alike s name (.eval now args :: h) (.eval later args :: k)
  | reset : Alike s name h k → Alike s name (.reset now :: h) (.reset later :: k)

theorem pairs_of_idle {name : String} {c : Config} {opened : Nat} {earlier : List Event} {e : Event}
    (h : Idle (correl name c opened) earlier e) :
    pairs name (e :: earlier) = pairs name earlier := by
  cases h with
  | bind | unbind => rfl
  | @failed now args e h =>
    cases hpair : pair? name earlier args with
    | none => rw [pairs, hpair, Option.toList_none, List.append_nil]
    | some p => cases h.symm.trans (answer_of_pair hpair now)

theorem pair?_congr {name : String} {h k : List Event} (hbound : bound name h = bound name k)
    (args : List Value) :
    pair? name h args = pair? name k args := by
  rw [pair?, pair?, hbound]

theorem pairs_of_alike {name : String} {c : Config} {opened : Nat} {h k : List Event}
    (halike : Alike (correl name c opened) name h k) :
    pairs name h = pairs name k := by
  induction halike with
  | nil => rfl
  | left hidle _ ih => exact (pairs_of_idle hidle).trans ih
  | right hidle _ ih => exact ih.trans (pairs_of_idle hidle).symm
  | eval hbound _ ih => rw [pairs, pairs, ih, pair?_congr hbound]
  | reset => rfl

/-- A sample succeeds exactly if it is a number and the operand is bound to a number at that time.
The answer is then what the pairs of the successful samples since the last reset give, this one
included, and no bindings and no failures in between can change it. -/
theorem correl_eq_of_history (name : String) (c : Config) (opened : Nat) (earlier : List Event)
    (now : Nat) (args : List Value) :
    let s := (correl name c opened).after earlier
    ((∃ v, s.answer now args = .ok v) ↔
        (∃ v, args.head? = some v ∧ v.IsNumeric) ∧ ∃ v, bound name earlier = some v ∧ v.IsNumeric) ∧
      (∀ v, s.answer now args = .ok v →
        v = .double (Comoments.ofPairs (pairs name (.eval now args :: earlier))).coefficient) ∧
      ∀ others, Alike (correl name c opened) name earlier others →
      bound name earlier = bound name others →
        ((correl name c opened).after others).answer now args = s.answer now args := by
  intro s
  refine ⟨?_, ?_, ?_⟩
  · rw [← isSome_pair?, Option.isSome_iff_exists]
    constructor
    · rintro ⟨v, hv⟩
      exact exists_pair_of_answer hv
    · rintro ⟨p, hp⟩
      exact ⟨_, answer_of_pair hp now⟩
  · intro v hv
    obtain ⟨p, hp⟩ := exists_pair_of_answer hv
    cases hv.symm.trans (answer_of_pair hp now)
    rfl
  · intro others halike hbound
    have hfind : ((correl name c opened).after others).bindings.find? name =
        s.bindings.find? name := by
      rw [find?_after rfl, find?_after rfl, hbound]
    have hmachine : ((correl name c opened).after others).machine = s.machine := by
      rw [machine_after, machine_after, pairs_of_alike halike]
    rw [answer, answer, hmachine]
    refine congrArg Prod.fst (Machine.eval_congr (fun other hother => ?_) now args)
    rw [machine_after] at hother
    cases hother
    exact Bindings.resolver_congr hfind .double

theorem correl_eq_of_history_rebound :
    let s := correl "x" {} 0
    let earlier : List Event := [.bind "x" (.int 3), .bind "y" (.bool true), .eval 2 [.string "n"],
      .eval 1 [.long 1], .bind "x" (.long 2)]
    let others : List Event :=
      [.bind "x" (.int 3), .unbind "x", .eval 9 [.long 1], .bind "x" (.long 2)]
    let pairs := [(Double.ofInt 1, Double.ofInt 2), (Double.ofInt 4, Double.ofInt 3)]
    Alike s "x" earlier others ∧ bound "x" earlier = bound "x" others ∧
      (s.after earlier).answer 5 [.short 4] = .ok (.double (Comoments.ofPairs pairs).coefficient) ∧
      (s.after others).answer 5 [.short 4] = (s.after earlier).answer 5 [.short 4] := by
  intro s earlier others pairs
  have halike : Alike s "x" earlier others :=
    .left .bind (.left .bind (.left (.failed rfl) (.right .bind (.right .unbind
      (.eval rfl (.left .bind (.right .bind .nil)))))))
  have hbound : bound "x" earlier = bound "x" others := rfl
  obtain ⟨hiff, hvalue, hothers⟩ := correl_eq_of_history "x" {} 0 earlier 5 [.short 4]
  obtain ⟨v, hv⟩ := hiff.2 ⟨⟨_, rfl, rfl⟩, _, rfl, rfl⟩
  have hpairs : Session.pairs "x" (.eval 5 [.short 4] :: earlier) = pairs := rfl
  refine ⟨halike, hbound, ?_, hothers others halike hbound⟩
  rw [hv, hvalue v hv, hpairs]

end Session

end Rollup
