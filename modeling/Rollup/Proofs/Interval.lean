import Mathlib
import Rollup.Machine

namespace Rollup

namespace Duration

theorem toNanos_max : max.toNanos = 0x1_0000_0000_0000_0000 * 1_000_000_000 - 1 := rfl

theorem toNanos_ofNanos (n : Nat) : (ofNanos n).toNanos = min n max.toNanos := by
  rw [toNanos_max, ofNanos]
  split
  · rename_i hfits
    have hseconds : (UInt64.ofNat (n / 1_000_000_000)).toNat = n / 1_000_000_000 :=
      UInt64.toNat_ofNat_of_lt' hfits
    rw [toNanos, hseconds, Nat.div_add_mod]
    omega
  · rw [toNanos_max]
    omega

theorem toNanos_injective : Function.Injective toNanos := by
  rintro ⟨seconds, nanos, hlt⟩ ⟨seconds', nanos', hlt'⟩ h
  simp only [toNanos] at h
  obtain rfl : nanos = nanos' := by omega
  obtain rfl : seconds = seconds' := UInt64.toNat_inj.1 (by omega)
  rfl

/-- Nanoseconds in a word, of which the seconds must fit one of 64 bits, and the rest fits one of
32. -/
def ofWord (n : BitVec 128) : Duration :=
  let seconds := n / 1_000_000_000#128
  let rest := n % 1_000_000_000#128
  if seconds.toNat < 0x1_0000_0000_0000_0000 then
    ⟨.ofBitVec (seconds.setWidth 64), (rest.setWidth 32).toNat,
      (Nat.mod_le _ _).trans_lt (Nat.mod_lt _ (by decide))⟩
  else max

theorem ofWord_eq (n : BitVec 128) : ofWord n = ofNanos n.toNat := by
  have hseconds : (n / 1_000_000_000#128).toNat = n.toNat / 1_000_000_000 := BitVec.toNat_udiv
  have hrest : (n % 1_000_000_000#128).toNat = n.toNat % 1_000_000_000 := BitVec.toNat_umod
  unfold ofWord ofNanos
  by_cases hfits : n.toNat / 1_000_000_000 < 0x1_0000_0000_0000_0000
  · have hlt := Nat.mod_lt n.toNat (by decide : 1_000_000_000 > 0)
    have hseconds' : ((n / 1_000_000_000#128).setWidth 64).toNat = n.toNat / 1_000_000_000 := by
      rw [BitVec.toNat_setWidth, hseconds, Nat.mod_eq_of_lt hfits]
    have hrest' : ((n % 1_000_000_000#128).setWidth 32).toNat = n.toNat % 1_000_000_000 := by
      rw [BitVec.toNat_setWidth, hrest, Nat.mod_eq_of_lt (hlt.trans (by decide))]
    apply toNanos_injective
    simp only [hseconds, hfits, if_true, toNanos, UInt64.toNat_ofBitVec, hseconds', hrest',
      UInt64.toNat_ofNat_of_lt' hfits]
  · simp only [hseconds, hfits, if_false]

end Duration

def saturatingMul (a b : BitVec w) : BitVec w := if a.umulOverflow b then .allOnes w else a * b

theorem toNat_saturatingMul {a b : BitVec w} (h : a.toNat * b.toNat < 2 ^ w) :
    (saturatingMul a b).toNat = a.toNat * b.toNat := by
  have hfits : a.umulOverflow b = false := decide_eq_false (Nat.not_le.2 h)
  rw [saturatingMul, hfits, if_neg Bool.false_ne_true, BitVec.toNat_mul, Nat.mod_eq_of_lt h]

theorem TimeUnit.nanos_le (u : TimeUnit) : u.nanos ≤ days.nanos := by
  cases u <;> decide

namespace Interval

def nanos (i : Interval) : Nat := i.amount.toNat * i.unit.nanos

def nanosInWord (i : Interval) : BitVec 128 :=
  saturatingMul (i.amount.toBitVec.setWidth 128) (.ofNat 128 i.unit.nanos)

section

variable (i : Interval)

theorem toNat_nanosInWord : i.nanosInWord.toNat = i.nanos := by
  have hamount : i.amount.toBitVec.toNat < 2 ^ 64 := i.amount.toNat_lt
  have hunit : i.unit.nanos ≤ 86400 * 1_000_000_000 := i.unit.nanos_le
  have hwide : (i.amount.toBitVec.setWidth 128).toNat = i.amount.toNat :=
    (BitVec.toNat_setWidth ..).trans (Nat.mod_eq_of_lt (by omega))
  have hword : (BitVec.ofNat 128 i.unit.nanos).toNat = i.unit.nanos :=
    (BitVec.toNat_ofNat ..).trans (Nat.mod_eq_of_lt (by omega))
  have hproduct : i.nanos ≤ 2 ^ 64 * (86400 * 1_000_000_000) := Nat.mul_le_mul hamount.le hunit
  rw [nanosInWord, toNat_saturatingMul] <;> rw [hwide, hword]
  · rfl
  · exact hproduct.trans_lt (by decide)

theorem ofWord_nanosInWord : Duration.ofWord i.nanosInWord = i.duration := by
  rw [Duration.ofWord_eq, toNat_nanosInWord]
  rfl

theorem toNanos_duration : i.duration.toNanos = min i.nanos Duration.max.toNanos :=
  Duration.toNanos_ofNanos _

theorem eq_duration_iff (d : Duration) :
    d = i.duration ↔ d.toNanos = min i.nanos Duration.max.toNanos := by
  rw [← toNanos_duration, Duration.toNanos_injective.eq_iff]

theorem two_pow_le_seconds_iff :
    0x1_0000_0000_0000_0000 ≤ i.nanos / 1_000_000_000 ↔ Duration.max.toNanos < i.nanos := by
  rw [Duration.toNanos_max]
  omega

end

variable {i j : Interval}

theorem toNanos_duration_le (h : i.nanos ≤ j.nanos) : i.duration.toNanos ≤ j.duration.toNanos := by
  rw [toNanos_duration, toNanos_duration]
  exact min_le_min_right _ h

theorem duration_eq (h : i.nanos = j.nanos) : i.duration = j.duration := by
  rw [eq_duration_iff, toNanos_duration, h]

theorem nanos_le_of_amount_le {amount amount' : UInt64} (u : TimeUnit) (h : amount ≤ amount') :
    (Interval.mk amount u).nanos ≤ (Interval.mk amount' u).nanos :=
  Nat.mul_le_mul_right _ h

end Interval

def Plan.interval? : Plan → Option Interval
  | sum i | avg i | percentile _ i => some i
  | max | min | correl _ | extract _ _ | flag | gaugeFp _ | gaugeInt _ => none

namespace Machine

def window? : Machine → Option Window
  | sum t => some t.window
  | avg m => some m.window
  | percentile p => some p.window
  | extremum _ | correl _ _ | extract _ _ | flag _ | gaugeFp _ | gaugeInt _ => none

theorem window?_start (p : Plan) (c : Config) (now : Nat) :
    (start p c now).window? = p.interval?.map fun i => ⟨i.duration, now⟩ := by
  cases p <;> rfl

end Machine

theorem Window.expired_of_le {d d' : Duration} (h : d.toNanos ≤ d'.toNanos) {opened now : Nat}
    (hexpired : (Window.mk d' opened).expired now = true) :
    (Window.mk d opened).expired now = true :=
  decide_eq_true (h.trans_lt (of_decide_eq_true hexpired))

namespace Interval

/-- The duration of an interval is the exact length, or the longest duration if that is shorter, and
no step of the computation in words loses anything of it. So intervals of one length have one
duration, and an interval that is not shorter than another does not give a plan a window that runs
out before. -/
theorem duration_exact (i : Interval) :
    ((∀ d, d = i.duration ↔ d.toNanos = min i.nanos Duration.max.toNanos) ∧
      i.duration.nanos < 1_000_000_000) ∧
      (i.nanosInWord.toNat = i.nanos ∧ Duration.ofWord i.nanosInWord = i.duration ∧
        (0x1_0000_0000_0000_0000 ≤ i.nanos / 1_000_000_000 ↔ Duration.max.toNanos < i.nanos)) ∧
      (∀ amount, i.amount ≤ amount →
        i.duration.toNanos ≤ (Interval.mk amount i.unit).duration.toNanos) ∧
      ∀ j : Interval, (i.nanos = j.nanos → i.duration = j.duration) ∧
        (i.nanos ≤ j.nanos → i.duration.toNanos ≤ j.duration.toNanos ∧
          ∀ (p q : Plan) (c : Config) (opened : Nat), p.interval? = some i → q.interval? = some j →
            ∃ w w', (Machine.start p c opened).window? = some w ∧
            (Machine.start q c opened).window? = some w' ∧
              ∀ now, w'.expired now = true → w.expired now = true) := by
  refine ⟨⟨i.eq_duration_iff, i.duration.nanos_lt⟩,
    ⟨i.toNat_nanosInWord, i.ofWord_nanosInWord, i.two_pow_le_seconds_iff⟩,
    fun _ h => toNanos_duration_le (nanos_le_of_amount_le i.unit h), fun j =>
    ⟨duration_eq, fun h => ?_⟩⟩
  have hle := toNanos_duration_le h
  refine ⟨hle, fun p q c opened hp hq =>
    ⟨⟨i.duration, opened⟩, ⟨j.duration, opened⟩, ?_, ?_, fun now => ?_⟩⟩
  · rw [Machine.window?_start, hp, Option.map_some]
  · rw [Machine.window?_start, hq, Option.map_some]
  · exact Window.expired_of_le hle

theorem duration_exact_hour :
    duration ⟨60, .minutes⟩ = duration ⟨1, .hours⟩ ∧
      Duration.max = duration ⟨0xffff_ffff_ffff_ffff, .days⟩ ∧
      ∃ w w', (Machine.start (.sum ⟨60, .minutes⟩) {} 5).window? = some w ∧
        (Machine.start (.avg ⟨0xffff_ffff_ffff_ffff, .days⟩) {} 5).window? = some w' ∧
        ∀ now, w'.expired now = true → w.expired now = true := by
  obtain ⟨-, -, -, hcompare⟩ := duration_exact ⟨60, .minutes⟩
  obtain ⟨-, hwindows⟩ := (hcompare ⟨0xffff_ffff_ffff_ffff, .days⟩).2 (by decide)
  exact ⟨(hcompare ⟨1, .hours⟩).1 rfl, ((duration_exact ⟨0xffff_ffff_ffff_ffff, .days⟩).1.1 _).2
    (by decide), hwindows _ _ _ _ rfl rfl⟩

end Interval

end Rollup
