import Rollup.Proofs.Aggregate.Gauge
import Rollup.Proofs.Machine.Recorder

namespace Rollup

namespace Machine

structure Gauging (α : Type) [LT α] [DecidableLT α] where
  sampling : Sampling α
  read : Value → Option α
  plan : Option (Bounds α) → Plan
  machine : Gauge α Float → Machine
  start_plan : ∀ range c now, start (plan range) c now = machine (.start range)
  eval_machine : ∀ g r now args, (machine g).eval r now args =
    (machine g).fold (readArgument read (machine g).kind args 0) fun x =>
      let g' := g.add sampling.widen x
      (g'.snapshot (machine g').kind.name sampling.value, machine g')
  reset_machine : ∀ g now, (machine g).reset now = machine g.clear
  shown?_machine : ∀ g, (machine g).shown? = some (g.snapshot (machine g).kind.name sampling.value)

namespace Gauging

def doubles : Gauging Float where
  sampling := .doubles
  read := Value.number?
  plan := .gaugeFp
  machine := .gaugeFp
  start_plan _ _ _ := rfl
  eval_machine _ _ _ _ := rfl
  reset_machine _ _ := rfl
  shown?_machine _ := rfl

def integers : Gauging Int64 where
  sampling := .integers
  read := clampedInteger?
  plan := .gaugeInt
  machine := .gaugeInt
  start_plan _ _ _ := rfl
  eval_machine _ _ _ _ := rfl
  reset_machine _ _ := rfl
  shown?_machine _ := rfl

variable {α : Type} [LT α] [DecidableLT α] (K : Gauging α) (range : Option (Bounds α))
    (c : Config) (opened : Nat)

def recorder : Recorder α (Gauge α Float) where
  read := K.read
  fresh := .start range
  add := Gauge.add K.sampling.widen
  clear := Gauge.clear
  record g := g.snapshot (K.machine g).kind.name K.sampling.value
  machine := K.machine
  clear_fresh := rfl
  clear_add _ _ := rfl
  eval_machine := K.eval_machine
  reset_machine := K.reset_machine
  shown?_machine := K.shown?_machine

theorem record_offered (steps : List Step) :
    (K.recorder range).record ((K.recorder range).ofSamples (offered K.read steps)) =
      (Gauge.ofSamples K.sampling.widen range (offered K.read steps)).snapshot
      (K.plan range).kind.name
        K.sampling.value := by
  have hkind : ((K.machine (.start range)).after steps).kind = (K.plan range).kind := by
    rw [kind_after, ← K.start_plan range {} 0, kind_start]
  have hafter := (K.recorder range).after_fresh steps
  rw [← hkind]
  exact congrArg (fun m : Machine => Gauge.snapshot m.kind.name _ _) hafter.symm

theorem shown?_after (steps : List Step) :
    ((start (K.plan range) c opened).after steps).shown? =
      some ((Gauge.ofSamples K.sampling.widen range (offered K.read steps)).snapshot
        (K.plan range).kind.name
        K.sampling.value) := by
  rw [K.start_plan, ← record_offered]
  exact (K.recorder range).shown?_after steps

theorem eval_of_read {args : List Value} {x : α} (hx : args.head?.bind K.read = some x)
    (earlier : List Step) (r : Resolver) (now : Nat) :
    let m := (start (K.plan range) c opened).after earlier
    let v := (Gauge.ofSamples K.sampling.widen range (offered K.read earlier ++ [x])).snapshot
      (K.plan range).kind.name K.sampling.value
    (m.eval r now args).1 = .ok v ∧ (m.eval r now args).2.shown? = some v := by
  have hrecord := K.record_offered range (earlier ++ [.eval r now args])
  rw [offered_eval, hx, Option.toList_some] at hrecord
  rw [K.start_plan, ← hrecord]
  exact (K.recorder range).eval_of_read hx earlier r now

theorem answers {args : List Value} {x : α} (hx : args.head?.bind K.read = some x)
    (earlier : List Step)
    (r : Resolver) (now : Nat) (hrange : ∀ y ∈ Sampling.ends range, K.sampling.IsNumber y)
    (hsamples : ∀ y ∈ offered K.read earlier ++ [x], K.sampling.IsNumber y)
    (hlength : (offered K.read earlier ++ [x]).length < 2 ^ 63) :
    let m := (start (K.plan range) c opened).after earlier
    ∃ fields, (m.eval r now args).1 = .ok (.record (K.plan range).kind.name fields) ∧
      (m.eval r now args).2.shown? = some (.record (K.plan range).kind.name fields) ∧
      Summary K.sampling range (offered K.read earlier ++ [x]) fields := by
  intro m
  obtain ⟨hanswer, hshown⟩ := K.eval_of_read range c opened hx earlier r now
  obtain ⟨fields, hrecord, hsummary⟩ :=
    Gauge.summary_snapshot hrange hsamples (List.concat_ne_nil x _) hlength (K.plan range).kind.name
  rw [hrecord] at hanswer hshown
  exact ⟨fields, hanswer, hshown, hsummary⟩

end Gauging

theorem toInt_ofIntClamp (z : Int) :
    (Int64.ofIntClamp z).toInt = max (-2 ^ 63) (min z (2 ^ 63 - 1)) := by
  have hleast : Int64.minValue.toInt = -2 ^ 63 := rfl
  have hmost : Int64.maxValue.toInt = 2 ^ 63 - 1 := rfl
  unfold Int64.ofIntClamp
  split
  · rename_i hlower
    split
    · rename_i hupper
      rw [Int64.toInt_ofIntLE, min_eq_left (hmost ▸ hupper), max_eq_right (hleast ▸ hlower)]
    · rename_i hupper
      rw [hmost] at hupper ⊢
      omega
  · rename_i hlower
    rw [hleast] at hlower ⊢
    omega

theorem clampedInteger?_of_isIntegral {v : Value} (h : v.tag?.any TypeTag.isIntegral = true) :
    ∃ z n, v.integer? = some z ∧ clampedInteger? v = some n ∧
      n.toInt = max (-2 ^ 63) (min z (2 ^ 63 - 1)) := by
  rw [← Value.isSome_integer?, Option.isSome_iff_exists] at h
  obtain ⟨z, hz⟩ := h
  exact ⟨z, Int64.ofIntClamp z, hz, by rw [clampedInteger?, hz]; rfl, toInt_ofIntClamp z⟩

/-- A gauge answers every sample with a record that sums up the samples since the last reset, as
long as they are counted in 63 bits: of doubles that are numbers, with a range whose ends are
numbers, and of integers, which are moved into the range of 64 bits. -/
theorem snapshot_of_history (c : Config) (opened : Nat) (earlier : List Step)
    (r : Resolver) (now : Nat) (args : List Value) :
    (∀ (range : Option (Bounds Float)) (x : Float), args.head?.bind Value.number? = some x →
      let m := (start (.gaugeFp range) c opened).after earlier
      let samples := offered Value.number? earlier ++ [x]
      (∀ y ∈ Sampling.ends range, y.isNaN = false) → (∀ y ∈ samples, y.isNaN = false) →
        samples.length < 2 ^ 63 →
      ∃ fields, (m.eval r now args).1 = .ok (.record (Plan.gaugeFp range).kind.name fields) ∧
        (m.eval r now args).2.shown? = some (.record (Plan.gaugeFp range).kind.name fields) ∧
        Summary .doubles range samples fields) ∧
    (∀ (range : Option (Bounds Int64)) (n : Int64), args.head?.bind clampedInteger? = some n →
      let m := (start (.gaugeInt range) c opened).after earlier
      let samples := offered clampedInteger? earlier ++ [n]
      samples.length < 2 ^ 63 →
      ∃ fields, (m.eval r now args).1 = .ok (.record (Plan.gaugeInt range).kind.name fields) ∧
        (m.eval r now args).2.shown? = some (.record (Plan.gaugeInt range).kind.name fields) ∧
        Summary .integers range samples fields) ∧
    ∀ v : Value, v.tag?.any TypeTag.isIntegral = true →
      ∃ z n, v.integer? = some z ∧ clampedInteger? v = some n ∧
      n.toInt = max (-2 ^ 63) (min z (2 ^ 63 - 1)) :=
  ⟨fun range _ hx hrange hsamples hlength => Gauging.doubles.answers range c opened hx earlier r now
    hrange hsamples hlength, fun range _ hn hlength =>
      Gauging.integers.answers range c opened hn earlier r now (fun _ _ => trivial)
      (fun _ _ => trivial) hlength,
    fun _ => clampedInteger?_of_isIntegral⟩

theorem snapshot_of_history_outside :
    (∃ fields,
      (((start (.gaugeFp (some ⟨Double.ofNat 9, Double.ofNat 1⟩)) {} 0).after
        [.eval .none 1 [.int 5], .reset 2, .eval .none 3 [.double (Double.ofNat 0)],
          .eval .none 4 [.string "7"]]).eval .none 5 [.short 10]).1 =
          .ok (.record "ranged_gauge_fp" fields) ∧
        Summary .doubles (some ⟨Double.ofNat 9, Double.ofNat 1⟩)
          [Double.ofNat 0, Double.ofNat 10] fields) ∧
    ∃ fields,
      (((start (.gaugeInt (some ⟨9, 1⟩)) {} 0).after [.eval .none 1 [.int 5], .reset 2,
        .eval .none 3 [.bigint (-2 ^ 70)], .eval .none 4 [.string "7"]]).eval
        .none 5 [.short 10]).1 = .ok (.record "ranged_gauge_int" fields) ∧
      Summary .integers (some ⟨9, 1⟩) [Int64.minValue, 10] fields := by
  constructor
  · obtain ⟨fields, hanswer, -, hsummary⟩ :=
      (snapshot_of_history {} 0 [.eval .none 1 [.int 5], .reset 2,
        .eval .none 3 [.double (Double.ofNat 0)], .eval .none 4 [.string "7"]] .none 5
        [.short 10]).1
      (some ⟨Double.ofNat 9, Double.ofNat 1⟩) (Double.ofNat 10) rfl (by decide +kernel)
        (by decide +kernel) (by decide)
    exact ⟨fields, hanswer, hsummary⟩
  · obtain ⟨fields, hanswer, -, hsummary⟩ :=
      (snapshot_of_history {} 0 [.eval .none 1 [.int 5], .reset 2,
        .eval .none 3 [.bigint (-2 ^ 70)], .eval .none 4 [.string "7"]] .none 5 [.short 10]).2.1
      (some ⟨9, 1⟩) 10 (by decide) (by decide)
    exact ⟨fields, hanswer, hsummary⟩

end Machine

end Rollup
