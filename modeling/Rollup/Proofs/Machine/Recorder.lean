import Rollup.Proofs.Machine.History

namespace Rollup

namespace Machine

def offered (read : Value → Option α) (steps : List Step) : List α :=
  steps.foldl (fun samples s => match s with
    | .eval _ _ args => samples ++ (args.head?.bind read).toList
    | .reset _ => []) []

theorem offered_eval (read : Value → Option α) (steps : List Step) (r : Resolver)
    (now : Nat) (args : List Value) :
    offered read (steps ++ [.eval r now args]) = offered read steps ++
      (args.head?.bind read).toList := by
  rw [offered, List.foldl_append]
  rfl

theorem offered_reset (read : Value → Option α) (steps : List Step) (now : Nat) :
    offered read (steps ++ [.reset now]) = [] := by
  rw [offered, List.foldl_append]
  rfl

/-- What samples make of a state, and the machine that keeps it. -/
structure Recorder (α σ : Type) where
  read : Value → Option α
  fresh : σ
  add : σ → α → σ
  clear : σ → σ
  record : σ → Value
  machine : σ → Machine
  clear_fresh : clear fresh = fresh
  clear_add : ∀ s x, clear (add s x) = clear s
  eval_machine : ∀ s r now args, (machine s).eval r now args =
    (machine s).fold (readArgument read (machine s).kind args 0) fun x =>
    (record (add s x), machine (add s x))
  reset_machine : ∀ s now, (machine s).reset now = machine (clear s)
  shown?_machine : ∀ s, (machine s).shown? = some (record s)

namespace Recorder

variable {α σ : Type} (R : Recorder α σ)

def ofSamples (samples : List α) : σ := samples.foldl R.add R.fresh

theorem ofSamples_concat (samples : List α) (x : α) :
    R.ofSamples (samples ++ [x]) = R.add (R.ofSamples samples) x := by
  rw [ofSamples, List.foldl_append]
  rfl

theorem clear_ofSamples (samples : List α) : R.clear (R.ofSamples samples) = R.fresh := by
  induction samples using List.reverseRecOn with
  | nil => exact R.clear_fresh
  | append_singleton samples x ih => rw [ofSamples_concat, R.clear_add, ih]

theorem after_fresh (steps : List Step) :
    (R.machine R.fresh).after steps = R.machine (R.ofSamples (offered R.read steps)) := by
  induction steps using List.reverseRecOn with
  | nil => rfl
  | append_singleton steps s ih =>
    rw [after_append, ih]
    cases s with
    | reset now =>
      rw [offered_reset]
      exact (R.reset_machine _ now).trans (congrArg R.machine (R.clear_ofSamples _))
    | eval r now args =>
      change ((R.machine _).eval r now args).2 = _
      rw [R.eval_machine, offered_eval]
      cases hx : args.head?.bind R.read with
      | none =>
        obtain ⟨e, he⟩ := readArgument_of_none _ hx
        rw [he, Option.toList_none, List.append_nil]
        rfl
      | some x =>
        rw [readArgument_of_head hx, Option.toList_some, R.ofSamples_concat]
        rfl

theorem shown?_after (steps : List Step) :
    ((R.machine R.fresh).after steps).shown? =
      some (R.record (R.ofSamples (offered R.read steps))) := by
  rw [after_fresh, R.shown?_machine]

theorem eval_of_read {args : List Value} {x : α} (hx : args.head?.bind R.read = some x)
    (earlier : List Step) (r : Resolver) (now : Nat) :
    let m := (R.machine R.fresh).after earlier
    let v := R.record (R.ofSamples (offered R.read earlier ++ [x]))
    (m.eval r now args).1 = .ok v ∧ (m.eval r now args).2.shown? = some v := by
  intro m v
  constructor
  · change (((R.machine R.fresh).after earlier).eval r now args).1 = _
    rw [R.after_fresh, R.eval_machine, readArgument_of_head hx]
    exact congrArg (fun s => Except.ok (R.record s)) (R.ofSamples_concat _ x).symm
  · have hshown := R.shown?_after (earlier ++ [.eval r now args])
    rwa [after_append, offered_eval, hx] at hshown

end Recorder

end Machine

end Rollup
