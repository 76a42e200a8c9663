import Mathlib
import Rollup.Aggregate.Windowed

/-!
Windowed aggregates and histories.

An aggregate keeps a few numbers of its samples. What it answers is still what the samples of the
current window give when they are taken in from the beginning, and which samples these are is found
from the whole history of samples and resets (`add_eq_of_history`).
-/

namespace Rollup

inductive Event
  | sample (x : Float) (now : Nat)
  | reset (now : Nat)

structure OpenWindow where
  opened : Nat
  samples : List Float

/-- The window that is open after a history, which is told from its latest event back. Windows have
a length, and the first one was opened at the creation. -/
def OpenWindow.after (length created : Nat) : List Event → OpenWindow
  | [] => ⟨created, []⟩
  | .reset now :: _ => ⟨now, []⟩
  | .sample x now :: earlier =>
    let w := after length created earlier
    if length < now - w.opened then ⟨now, [x]⟩ else ⟨w.opened, w.samples ++ [x]⟩

namespace Window

theorem roll_fst (w : Window) (now : Nat) : (w.roll now).1 = w.expired now := by
  unfold roll
  split <;> simp [*]

theorem roll_snd (w : Window) (now : Nat) :
    (w.roll now).2 = ⟨w.length, if w.length.toNanos < now - w.opened then now else w.opened⟩ := by
  by_cases h : w.length.toNanos < now - w.opened
  · simp only [roll, expired, h, decide_true, if_true, restart]
  · simp only [roll, expired, h, decide_false, Bool.false_eq_true, if_false]

theorem restart_roll (w : Window) (now later : Nat) :
    (w.roll now).2.restart later = w.restart later := by
  unfold roll
  split <;> rfl

end Window

/-- An aggregate of the samples in a window: what it keeps of them, and how it takes in one more. -/
structure Windowed (σ κ : Type) where
  add : σ → Float → Nat → Float × σ
  reset : σ → Nat → σ
  window : σ → Window
  kept : σ → κ
  clear : κ → κ
  take : κ → Float → κ
  answer : κ → Float
  window_add : ∀ a x now, window (add a x now).2 = ((window a).roll now).2
  kept_add : ∀ a x now, kept (add a x now).2 =
    take (if (window a).expired now then clear (kept a) else kept a) x
  answer_add : ∀ a x now, (add a x now).1 = answer (kept (add a x now).2)
  window_reset : ∀ a now, window (reset a now) = (window a).restart now
  kept_reset : ∀ a now, kept (reset a now) = clear (kept a)
  clear_clear : ∀ k, clear (clear k) = clear k
  clear_take : ∀ k x, clear (take k x) = clear k

namespace Windowed

variable {σ κ : Type} (A : Windowed σ κ)

def replay (a : σ) : List Event → σ
  | [] => a
  | .sample x now :: earlier => (A.add (replay a earlier) x now).2
  | .reset now :: earlier => A.reset (replay a earlier) now

theorem window_replay (a : σ) (h : List Event) :
    A.window (A.replay a h) =
      ⟨(A.window a).length,
        (OpenWindow.after (A.window a).length.toNanos (A.window a).opened h).opened⟩ := by
  induction h with
  | nil => rfl
  | cons e earlier ih =>
    cases e with
    | sample x now =>
      rw [replay, A.window_add, ih, Window.roll_snd]
      simp only [OpenWindow.after]
      split <;> rfl
    | reset now =>
      rw [replay, A.window_reset, ih]
      rfl

theorem clear_replay (a : σ) (h : List Event) :
    A.clear (A.kept (A.replay a h)) = A.clear (A.kept a) := by
  induction h with
  | nil => rfl
  | cons e earlier ih =>
    cases e with
    | sample x now =>
      rw [replay, A.kept_add, A.clear_take]
      split
      · rw [A.clear_clear, ih]
      · exact ih
    | reset now => rw [replay, A.kept_reset, A.clear_clear, ih]

theorem kept_replay {a : σ} (ha : A.clear (A.kept a) = A.kept a) (h : List Event) :
    A.kept (A.replay a h) =
      (OpenWindow.after (A.window a).length.toNanos (A.window a).opened h).samples.foldl A.take
      (A.kept a) := by
  induction h with
  | nil => rfl
  | cons e earlier ih =>
    cases e with
    | sample x now =>
      rw [replay, A.kept_add, A.window_replay, clear_replay, ha, ih]
      simp only [OpenWindow.after, Window.expired, decide_eq_true_eq]
      split
      · rfl
      · rw [List.foldl_append]
        rfl
    | reset now =>
      rw [replay, A.kept_reset, clear_replay, ha]
      rfl

theorem add_replay {a : σ} (ha : A.clear (A.kept a) = A.kept a) (earlier : List Event)
    (x : Float) (now : Nat) :
    (A.add (A.replay a earlier) x now).1 =
      A.answer ((OpenWindow.after (A.window a).length.toNanos (A.window a).opened
        (.sample x now :: earlier)).samples.foldl A.take (A.kept a)) := by
  rw [A.answer_add, ← A.kept_replay ha]
  rfl

end Windowed

def Total.windowed : Windowed Total Float where
  add := add
  reset := reset
  window := window
  kept := sum
  clear _ := Double.ofNat 0
  take s x := s + x
  answer s := s
  window_add _ _ _ := rfl
  kept_add t _ now := by rw [← t.window.roll_fst now]; rfl
  answer_add _ _ _ := rfl
  window_reset _ _ := rfl
  kept_reset _ _ := rfl
  clear_clear _ := rfl
  clear_take _ _ := rfl

def Mean.windowed : Windowed Mean (Float × Nat) where
  add := add
  reset := reset
  window := window
  kept m := (m.sum, m.count)
  clear _ := (Double.ofNat 0, 0)
  take k x := (k.1 + x, k.2 + 1)
  answer k := k.1 / Double.ofNat k.2
  window_add _ _ _ := rfl
  kept_add m _ now := by
    rw [← m.window.roll_fst now]
    split <;> simp_all [add]
  answer_add _ _ _ := rfl
  window_reset _ _ := rfl
  kept_reset _ _ := rfl
  clear_clear _ := rfl
  clear_take _ _ := rfl

theorem Estimator.clear_add (e : Estimator) (x : Float) : (e.add x).clear = e.clear := by
  unfold add
  split
  · rfl
  · split <;> rfl

def Percentile.windowed : Windowed Percentile Estimator where
  add := add
  reset := reset
  window := window
  kept := estimator
  clear := Estimator.clear
  take := Estimator.add
  answer := Estimator.estimate
  window_add _ _ _ := rfl
  kept_add p _ now := by rw [← p.window.roll_fst now]; rfl
  answer_add _ _ _ := rfl
  window_reset _ _ := rfl
  kept_reset _ _ := rfl
  clear_clear _ := rfl
  clear_take := Estimator.clear_add

theorem Mean.foldl_take (samples : List Float) (k : Float × Nat) :
    samples.foldl windowed.take k = (samples.foldl (· + ·) k.1, k.2 + samples.length) := by
  induction samples generalizing k with
  | nil => rfl
  | cons x samples ih =>
    rw [List.foldl_cons, ih, List.foldl_cons, List.length_cons, Nat.add_comm samples.length,
      ← Nat.add_assoc]
    rfl

/-- After any history, a sample is answered with the sum, the mean, and the estimated quantile of
the samples in the window that is then open; and the windows of the three aggregates are opened by
the same events. -/
theorem add_eq_of_history (length : Duration) (created : Nat) (percent : UInt8) (capacity : Nat)
    (earlier : List Event) (x : Float) (now : Nat) :
    let total := Total.windowed.replay (.start length created) earlier
    let mean := Mean.windowed.replay (.start length created) earlier
    let percentile := Percentile.windowed.replay (.start percent length capacity created) earlier
    let samples := (OpenWindow.after length.toNanos created (.sample x now :: earlier)).samples
    let opened := (OpenWindow.after length.toNanos created earlier).opened
    (total.add x now).1 = samples.foldl (· + ·) (Double.ofNat 0) ∧
      (mean.add x now).1 = samples.foldl (· + ·) (Double.ofNat 0) / Double.ofNat samples.length ∧
      (percentile.add x now).1 =
        (samples.foldl Estimator.add
          (.start (Double.ofNat percent.toNat / Double.ofNat 100) capacity)).estimate ∧
      (total.window = ⟨length, opened⟩ ∧ mean.window = ⟨length, opened⟩ ∧
      percentile.window = ⟨length, opened⟩) ∧
      ((Window.roll ⟨length, opened⟩ now).1 = true ↔ length.toNanos < now - opened) := by
  intro total mean percentile samples opened
  refine ⟨Total.windowed.add_replay rfl earlier x now, ?_, Percentile.windowed.add_replay
    rfl earlier x now, ?_, ?_⟩
  · have hmean := Mean.windowed.add_replay (a := .start length created) rfl earlier x now
    rw [Mean.foldl_take] at hmean
    refine hmean.trans ?_
    simp only [Mean.windowed, Mean.start, Nat.zero_add]
    rfl
  · exact ⟨Total.windowed.window_replay _ earlier, Mean.windowed.window_replay _ earlier,
      Percentile.windowed.window_replay _ earlier⟩
  · rw [Window.roll_fst, Window.expired, decide_eq_true_iff]

end Rollup
