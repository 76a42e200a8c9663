import Rollup.Proofs.Aggregate.Extremum
import Rollup.Proofs.Machine.Reset
import Rollup.Proofs.Machine.Signature

namespace Rollup

namespace Machine

theorem after_append (m : Machine) (steps later : List Step) :
    m.after (steps ++ later) = (m.after steps).after later := by
  induction steps generalizing m with
  | nil => rfl
  | cons s steps ih => exact ih _

def Step.event? : Step → Option Event
  | .eval _ now args => (args.head?.bind Value.number?).map (.sample · now)
  | .reset now => some (.reset now)

theorem Step.event?_eq_sample {s : Step} {x : Float} {now : Nat} :
    s.event? = some (.sample x now) ↔
      ∃ r args, s = .eval r now args ∧ args.head?.bind Value.number? = some x := by
  constructor
  · intro h
    cases s with
    | reset now => cases h
    | eval r now args =>
      obtain ⟨x, hx, heq⟩ := Option.map_eq_some_iff.1 h
      cases heq
      exact ⟨r, args, rfl, hx⟩
  · rintro ⟨r, args, rfl, hx⟩
    rw [event?, hx]
    rfl

/-- What a machine of numbers sees of a run, the latest event first. -/
def history (steps : List Step) : List Event := (steps.filterMap Step.event?).reverse

theorem history_append (steps later : List Step) :
    history (steps ++ later) = history later ++ history steps := by
  rw [history, List.filterMap_append, List.reverse_append]
  rfl

theorem history_concat (steps : List Step) (s : Step) :
    history (steps ++ [s]) = s.event?.toList ++ history steps := by
  rw [history_append]
  cases hs : s.event? <;> simp [history, hs]

theorem history_concat_of_number {args : List Value} {x : Float}
    (hx : args.head?.bind Value.number? = some x) (steps : List Step) (r : Resolver) (now : Nat) :
    history (steps ++ [.eval r now args]) = .sample x now :: history steps := by
  rw [history_concat, Step.event?, hx]
  rfl

def sinceReset : List Event → List Float
  | [] | .reset _ :: _ => []
  | .sample x _ :: earlier => sinceReset earlier ++ [x]

theorem sinceReset_append {h : List Event} (hsamples : ∀ now, .reset now ∉ h)
    (earlier : List Event) :
    sinceReset (h ++ earlier) = sinceReset earlier ++ sinceReset h := by
  induction h with
  | nil => exact (List.append_nil _).symm
  | cons e h ih =>
    have ih := ih fun now he => hsamples now (List.mem_cons_of_mem _ he)
    cases e with
    | sample x now => simp only [List.cons_append, sinceReset, ih, List.append_assoc]
    | reset now => exact absurd List.mem_cons_self (hsamples now)

theorem reset_mem_history {steps : List Step} {now : Nat} :
    .reset now ∈ history steps ↔ .reset now ∈ steps := by
  rw [history, List.mem_reverse, List.mem_filterMap]
  constructor
  · rintro ⟨s, hs, hevent⟩
    cases s with
    | eval r now args =>
      rw [Step.event?, Option.map_eq_some_iff] at hevent
      obtain ⟨x, -, hx⟩ := hevent
      cases hx
    | reset now =>
      cases hevent
      exact hs
  · exact fun hs => ⟨_, hs, rfl⟩

structure Numeric (σ : Type) where
  machine : σ → Machine
  add : σ → Float → Nat → Float × σ
  reset : σ → Nat → σ
  eval_machine : ∀ a r now args, (machine a).eval r now args =
    (machine a).fold (readArgument Value.number? (machine a).kind args 0) fun x =>
      (.double (add a x now).1, machine (add a x now).2)
  reset_machine : ∀ a now, (machine a).reset now = machine (reset a now)

namespace Numeric

def extremum : Numeric Extremum where
  machine := .extremum
  add e x _ := e.add x
  reset e _ := e.reset
  eval_machine _ _ _ _ := rfl
  reset_machine _ _ := rfl

def percentile : Numeric Percentile where
  machine := .percentile
  add := Percentile.add
  reset := Percentile.reset
  eval_machine _ _ _ _ := rfl
  reset_machine _ _ := rfl

variable {σ : Type} (N : Numeric σ)

def replay (a : σ) : List Event → σ
  | [] => a
  | .sample x now :: earlier => (N.add (replay a earlier) x now).2
  | .reset now :: earlier => N.reset (replay a earlier) now

section

variable {args : List Value}

theorem eval_of_number {x : Float} (hx : args.head?.bind Value.number? = some x) (a : σ)
    (r : Resolver) (now : Nat) :
    (N.machine a).eval r now args =
      (.ok (.double (N.add a x now).1), N.machine (N.add a x now).2) := by
  rw [N.eval_machine, readArgument_of_head hx]
  rfl

theorem eval_of_none (hx : args.head?.bind Value.number? = none) (a : σ)
    (r : Resolver) (now : Nat) :
    ∃ e, readArgument Value.number? (N.machine a).kind args 0 = .error e ∧
      (N.machine a).eval r now args = (.error e, N.machine a) := by
  obtain ⟨e, he⟩ := readArgument_of_none (N.machine a).kind hx
  exact ⟨e, he, by rw [N.eval_machine, he]; rfl⟩

end

theorem answer_congr {a b : σ} (hkind : (N.machine a).kind = (N.machine b).kind) {s : Step}
    (h : ∀ x now, s.event? = some (.sample x now) → (N.add a x now).1 = (N.add b x now).1) :
    ((N.machine a).step s).1 = ((N.machine b).step s).1 := by
  cases s with
  | reset now => rfl
  | eval r now args =>
    cases hx : args.head?.bind Value.number? with
    | some x =>
      have hadd := h x now (by rw [Step.event?, hx]; rfl)
      simp only [Machine.step, N.eval_of_number hx, hadd]
    | none =>
      obtain ⟨e, he, heval⟩ := N.eval_of_none hx a r now
      obtain ⟨e', he', heval'⟩ := N.eval_of_none hx b r now
      rw [hkind, he'] at he
      cases he
      simp only [Machine.step, heval, heval']

theorem step_eq (a : σ) (h : List Event) (s : Step) :
    ((N.machine (N.replay a h)).step s).2 = N.machine (N.replay a (s.event?.toList ++ h)) := by
  cases s with
  | reset now => exact N.reset_machine _ now
  | eval r now args =>
    cases hx : args.head?.bind Value.number? with
    | some x => simp [Machine.step, Step.event?, hx, N.eval_of_number hx, replay]
    | none =>
      obtain ⟨e, -, heval⟩ := N.eval_of_none hx (N.replay a h) r now
      simp [Machine.step, Step.event?, hx, heval]

theorem after (a : σ) (steps : List Step) :
    (N.machine a).after steps = N.machine (N.replay a (history steps)) := by
  induction steps using List.reverseRecOn with
  | nil => rfl
  | append_singleton steps s ih => rw [after_append, ih, history_concat, ← step_eq]; rfl

end Numeric

end Machine

end Rollup
