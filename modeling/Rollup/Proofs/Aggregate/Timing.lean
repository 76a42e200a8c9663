import Rollup.Proofs.Aggregate.Windowed

namespace Rollup

namespace Event

def time : Event → Nat
  | sample _ now | reset now => now

def sample? : Event → Option (Float × Nat)
  | sample x now => some (x, now)
  | reset _ => none

/-- The same events, but for the numbers of samples that were not taken between two times. -/
inductive AlikeWithin (first last : Nat) : Event → Event → Prop
  | same (e : Event) : AlikeWithin first last e e
  | outside : ¬ (first ≤ now ∧ now ≤ last) → AlikeWithin first last (sample x now) (sample x' now)

end Event

def Chronological (created : Nat) (h : List Event) : Prop :=
  (h.map Event.time ++ [created]).Pairwise (· ≥ ·)

namespace OpenWindow

/-- The samples of the window that is open after a history, and when they were taken. -/
def held (length created : Nat) : List Event → List (Float × Nat)
  | [] => []
  | .reset _ :: _ => []
  | .sample x now :: earlier =>
    if length < now - (after length created earlier).opened then [(x, now)]
      else held length created earlier ++ [(x, now)]

variable {length created : Nat}

section

variable {x : Float} {now : Nat} {earlier : List Event}

theorem of_late (h : (after length created earlier).opened + length < now) :
    after length created (.sample x now :: earlier) = ⟨now, [x]⟩ ∧
      held length created (.sample x now :: earlier) = [(x, now)] := by
  have hlate : length < now - (after length created earlier).opened := Nat.lt_sub_iff_add_lt'.2 h
  simp only [after, held, if_pos hlate, and_self]

theorem of_not_late (h : now ≤ (after length created earlier).opened + length) :
    after length created (.sample x now :: earlier) =
        ⟨(after length created earlier).opened, (after length created earlier).samples ++ [x]⟩ ∧
      held length created (.sample x now :: earlier) =
      held length created earlier ++ [(x, now)] := by
  have hopen : ¬ length < now - (after length created earlier).opened :=
    Nat.not_lt.2 (Nat.sub_le_iff_le_add'.2 h)
  simp only [after, held, if_neg hopen, and_self]

theorem mem_held_self (x : Float) (now : Nat) (earlier : List Event) :
    (x, now) ∈ held length created (.sample x now :: earlier) := by
  rcases Nat.lt_or_ge ((after length created earlier).opened + length) now with hlate | hopen
  · rw [(of_late hlate).2]
    exact List.mem_cons_self
  · rw [(of_not_late hopen).2]
    exact List.mem_concat_self

end

theorem map_held (h : List Event) :
    (held length created h).map Prod.fst = (after length created h).samples := by
  induction h with
  | nil => rfl
  | cons e earlier ih =>
    cases e with
    | reset now => rfl
    | sample x now =>
      simp only [held, after]
      split
      · rfl
      · rw [List.map_append, ih]
        rfl

theorem held_suffix (h : List Event) :
    held length created h <:+ h.reverse.filterMap Event.sample? := by
  induction h with
  | nil => exact List.nil_suffix
  | cons e earlier ih =>
    rw [List.reverse_cons, List.filterMap_append]
    cases e with
    | reset now => exact List.nil_suffix
    | sample x now =>
      rw [held]
      split
      · exact List.suffix_append _ _
      · exact (List.suffix_append_inj_of_length_eq rfl).2 ⟨ih, rfl⟩

theorem opened_mem (h : List Event) :
    (after length created h).opened ∈ h.map Event.time ++ [created] := by
  induction h with
  | nil => exact List.mem_singleton_self created
  | cons e earlier ih =>
    cases e with
    | reset now => exact List.mem_cons_self
    | sample x now =>
      simp only [after]
      split
      · exact List.mem_cons_self
      · exact List.mem_cons_of_mem _ ih

theorem opened_le {e : Event} {earlier : List Event} (h : Chronological created (e :: earlier)) :
    (after length created earlier).opened ≤ e.time :=
  (List.pairwise_cons.1 h).1 _ (opened_mem earlier)

theorem mem_held {h : List Event} (hchron : Chronological created h) {p : Float × Nat}
    (hp : p ∈ held length created h) :
    (after length created h).opened ≤ p.2 ∧ p.2 ≤ (after length created h).opened + length := by
  induction h with
  | nil => cases hp
  | cons e earlier ih =>
    cases e with
    | reset now => cases hp
    | sample x now =>
      rcases Nat.lt_or_ge ((after length created earlier).opened + length) now with hlate | hopen
      · obtain ⟨hafter, hheld⟩ := of_late (x := x) hlate
        rw [hheld, List.mem_singleton] at hp
        rw [hafter, hp]
        exact ⟨le_rfl, Nat.le_add_right _ _⟩
      · obtain ⟨hafter, hheld⟩ := of_not_late (x := x) hopen
        rw [hheld] at hp
        rw [hafter]
        rcases List.mem_append.1 hp with hp | hp
        · exact ih (List.pairwise_cons.1 hchron).2 hp
        · rw [List.mem_singleton.1 hp]
          exact ⟨opened_le hchron, hopen⟩

theorem opened_congr {first last : Nat} {h h' : List Event}
    (hh : List.Forall₂ (Event.AlikeWithin first last) h h') :
    (after length created h).opened = (after length created h').opened := by
  -- The numbers of samples do not open windows.
  induction hh with
  | nil => rfl
  | @cons e _ _ _ he _ ih =>
    cases he with
    | same =>
      cases e with
      | reset now => rfl
      | sample x now =>
        simp only [after, ih]
        split <;> rfl
    | outside =>
      simp only [after, ih]
      split <;> rfl

theorem held_congr {h h' : List Event} (hchron : Chronological created h)
    (hh : List.Forall₂ (Event.AlikeWithin (after length created h).opened
      ((after length created h).opened + length))
      h h') : held length created h = held length created h' := by
  induction h generalizing h' with
  | nil =>
    cases hh
    rfl
  | cons e earlier ih =>
    cases hh with
    | cons he hearlier =>
      cases he with
      | outside hout => exact absurd (mem_held hchron (mem_held_self _ _ earlier)) hout
      | same =>
        cases e with
        | reset now => rfl
        | sample x now =>
          have hopened : (after length created earlier).opened = (after length created _).opened :=
            opened_congr hearlier
          rcases Nat.lt_or_ge ((after length created earlier).opened + length) now
            with hlate | hopen
          · rw [(of_late hlate).2, (of_late (hopened ▸ hlate)).2]
          · rw [(of_not_late hopen).1] at hearlier
            rw [(of_not_late hopen).2, (of_not_late (hopened ▸ hopen)).2,
              ih (List.pairwise_cons.1 hchron).2 hearlier]

end OpenWindow

namespace Windowed

variable {σ κ : Type} (A : Windowed σ κ)

/-- What an aggregate answers to a sample is recomputed from the samples that it holds, and depends
on no other. -/
structure Timed (a : σ) (recompute : List Float → Float) (earlier : List Event) (x : Float)
    (now before opened : Nat) (held : List (Float × Nat)) : Prop where
  window_before : A.window (A.replay a earlier) = ⟨(A.window a).length, before⟩
  window_after : A.window (A.add (A.replay a earlier) x now).2 = ⟨(A.window a).length, opened⟩
  answer : (A.add (A.replay a earlier) x now).1 = recompute (held.map Prod.fst)
  unaffected : ∀ earlier',
    List.Forall₂ (Event.AlikeWithin opened (opened + (A.window a).length.toNanos)) earlier
    earlier' → (A.add (A.replay a earlier') x now).1 = (A.add (A.replay a earlier) x now).1

variable {A}

theorem timed {a : σ} (ha : A.clear (A.kept a) = A.kept a) {recompute : List Float → Float}
    (hrecompute : ∀ samples, A.answer (samples.foldl A.take (A.kept a)) = recompute samples)
    {earlier : List Event}
    {x : Float} {now : Nat} (h : Chronological (A.window a).opened (.sample x now :: earlier)) :
    let after := OpenWindow.after (A.window a).length.toNanos (A.window a).opened
    A.Timed a recompute earlier x now (after earlier).opened
      (after (.sample x now :: earlier)).opened
      (OpenWindow.held (A.window a).length.toNanos (A.window a).opened
        (.sample x now :: earlier)) := by
  intro after
  have hanswer (earlier : List Event) := A.add_replay ha earlier x now
  simp only [← OpenWindow.map_held, hrecompute] at hanswer
  refine ⟨A.window_replay a earlier, A.window_replay a (.sample x now :: earlier), hanswer earlier,
    fun earlier' halike => ?_⟩
  rw [hanswer, hanswer, OpenWindow.held_congr h (.cons (.same _) halike)]

end Windowed

/-- If time does not go back, each answer of an aggregate is made of the samples that were taken
within one length of the window that is then open, so that two of them are not farther apart. A
window is opened by a sample only if more than the length of the one before has passed, and at its
very end that one still takes in a sample. -/
theorem samples_within_length (length : Duration) (created : Nat) (percent : UInt8) (capacity : Nat)
    (earlier : List Event) (x : Float) (now : Nat)
    (h : Chronological created (.sample x now :: earlier)) :
    let history := .sample x now :: earlier
    let held := OpenWindow.held length.toNanos created
    let before := (OpenWindow.after length.toNanos created earlier).opened
    let opened := (OpenWindow.after length.toNanos created history).opened
    let sum (samples : List Float) := samples.foldl (· + ·) (Double.ofNat 0)
    let estimator : Estimator := .start (Double.ofNat percent.toNat / Double.ofNat 100) capacity
    (Total.windowed.Timed (.start length created) sum earlier x now before opened (held history) ∧
        Mean.windowed.Timed (.start length created) (fun samples =>
        sum samples / Double.ofNat samples.length)
          earlier x now before opened (held history) ∧
        Percentile.windowed.Timed (.start percent length capacity created)
          (fun samples => (samples.foldl Estimator.add estimator).estimate) earlier x now before
            opened (held history)) ∧ (held history <:+ history.reverse.filterMap Event.sample? ∧
        (∀ p ∈ held history, opened ≤ p.2 ∧ p.2 ≤ opened + length.toNanos) ∧
        ∀ p ∈ held history, ∀ q ∈ held history, p.2 ≤ q.2 + length.toNanos) ∧
      (before + length.toNanos < now → opened = now ∧ held history = [(x, now)]) ∧
      (now ≤ before + length.toNanos → opened = before ∧
      held history = held earlier ++ [(x, now)]) := by
  intro history held before opened sum estimator
  have hwithin : ∀ p ∈ held history, opened ≤ p.2 ∧ p.2 ≤ opened + length.toNanos :=
    fun p hp => OpenWindow.mem_held h hp
  refine ⟨⟨Total.windowed.timed (a := .start length created) rfl (fun _ => rfl) h,
      Mean.windowed.timed (a := .start length created) rfl (fun samples => ?_) h,
      Percentile.windowed.timed (a := .start percent length capacity created) rfl (fun _ => rfl) h⟩,
    ⟨OpenWindow.held_suffix history, hwithin, fun p hp q hq => ?_⟩,
    fun hlate => ?_, fun hopen => ?_⟩
  · rw [Mean.foldl_take]
    simp only [Mean.windowed, Mean.start, Nat.zero_add]
    rfl
  · have := (hwithin p hp).2
    have := (hwithin q hq).1
    omega
  · obtain ⟨hafter, hheld⟩ := OpenWindow.of_late (x := x) hlate
    exact ⟨congrArg OpenWindow.opened hafter, hheld⟩
  · obtain ⟨hafter, hheld⟩ := OpenWindow.of_not_late (x := x) hopen
    exact ⟨(congrArg OpenWindow.opened hafter).trans rfl, hheld⟩

theorem samples_within_length_end :
    let held (now : Nat) :=
      OpenWindow.held (Duration.ofNanos 10).toNanos 3 [.sample (Double.ofNat 1) now,
        .sample (Double.ofNat 2) 9, .reset 4]
    Chronological 3 [.sample (Double.ofNat 1) 15, .sample (Double.ofNat 2) 9, .reset 4] ∧
      held 14 = [(Double.ofNat 2, 9), (Double.ofNat 1, 14)] ∧ held 15 = [(Double.ofNat 1, 15)] := by
  intro held
  have hchron (now : Nat) (hnow : 9 ≤ now) :
      Chronological 3 [.sample (Double.ofNat 1) now, .sample (Double.ofNat 2) 9, .reset 4] := by
    simp [Chronological, Event.time]
    omega
  obtain ⟨-, -, -, hopen⟩ := samples_within_length (.ofNanos 10) 3 50 100
    _ _ 14 (hchron 14 (by decide))
  obtain ⟨-, -, hlate, -⟩ := samples_within_length (.ofNanos 10) 3 50 100
    _ _ 15 (hchron 15 (by decide))
  exact ⟨hchron 15 (by decide), (hopen (by decide)).2, (hlate (by decide)).2⟩

end Rollup
