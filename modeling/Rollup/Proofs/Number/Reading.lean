import Rollup.Number.Reading
import Rollup.Proofs.Number.Numeral
import Rollup.Proofs.Number.Truncation
import Rollup.Proofs.Token.Reads
import Rollup.Unicode.Properties

namespace Rollup

namespace Unicode

theorem dropWhile_append_of_isBlank {before cs : List Char} (h : ∀ c ∈ before, isBlank c = true)
    (hne : cs ≠ []) (hcs : ∀ c ∈ cs, isBlank c = false) (after : List Char) :
    (before ++ cs ++ after).dropWhile isBlank = cs ++ after := by
  obtain ⟨c, cs, rfl⟩ := List.exists_cons_of_ne_nil hne
  rw [List.append_assoc, List.dropWhile_append_of_pos h, List.cons_append,
    List.dropWhile_cons_of_neg (by rw [hcs c List.mem_cons_self]; exact Bool.false_ne_true)]

theorem trim_append {before cs after : List Char} (hbefore : ∀ c ∈ before, isBlank c = true)
    (hne : cs ≠ []) (hcs : ∀ c ∈ cs, isBlank c = false) (hafter : ∀ c ∈ after, isBlank c = true) :
    trim (before ++ cs ++ after) = cs := by
  have hback : (after.reverse ++ cs.reverse ++ []).dropWhile isBlank = cs.reverse ++ [] :=
    dropWhile_append_of_isBlank (fun c hc => hafter c (List.mem_reverse.1 hc))
      (mt List.reverse_eq_nil_iff.1 hne)
      (fun c hc => hcs c (List.mem_reverse.1 hc)) []
  rw [List.append_nil, List.append_nil] at hback
  rw [trim, dropWhile_append_of_isBlank hbefore hne hcs, List.reverse_append,
    hback, List.reverse_reverse]

theorem exists_trim (cs : List Char) : ∃ before after, cs = before ++ trim cs ++ after ∧
    (∀ c ∈ before, isBlank c = true) ∧ ∀ c ∈ after, isBlank c = true := by
  have hblank {l : List Char} {c : Char} (h : c ∈ l.takeWhile isBlank) : isBlank c = true :=
    List.mem_takeWhile_imp h
  refine ⟨cs.takeWhile isBlank, ((cs.dropWhile isBlank).reverse.takeWhile isBlank).reverse, ?_,
    fun c => hblank, fun c hc => hblank (List.mem_reverse.1 hc)⟩
  rw [trim, List.append_assoc, ← List.reverse_append, List.takeWhile_append_dropWhile,
    List.reverse_reverse, List.takeWhile_append_dropWhile]

end Unicode

namespace Reading

structure IsDigits (cs : List Char) (n : Nat) : Prop where
  ne_nil : cs ≠ []
  isDigit : ∀ c ∈ cs, c.isDigit = true
  value : Nat.ofDigitChars 10 cs 0 = n

inductive IsNumeral : List Char → Int → Prop
  | unsigned : IsDigits cs n → IsNumeral cs n
  | plus : IsDigits cs n → IsNumeral ('+' :: cs) n
  | minus : IsDigits cs n → IsNumeral ('-' :: cs) (-n)

theorem digits?_eq_some {cs : List Char} {n : Nat} : digits? cs = some n ↔ IsDigits cs n := by
  unfold digits?
  split
  · rename_i h
    rw [Bool.and_eq_true, Bool.not_eq_true', List.isEmpty_eq_false_iff, List.all_eq_true] at h
    rw [Option.some_inj, digitsValue_eq]
    exact ⟨fun hvalue => ⟨h.1, h.2, hvalue⟩, IsDigits.value⟩
  · rename_i h
    rw [Bool.and_eq_true, Bool.not_eq_true', List.isEmpty_eq_false_iff, List.all_eq_true] at h
    exact ⟨nofun, fun hdigits => absurd ⟨hdigits.ne_nil, hdigits.isDigit⟩ h⟩

section

variable {cs : List Char} {n : Nat} (h : IsDigits cs n)

include h

theorem IsDigits.exists_cons : ∃ c rest, cs = c :: rest ∧ c.isDigit = true := by
  obtain ⟨c, rest, rfl⟩ := List.exists_cons_of_ne_nil h.ne_nil
  exact ⟨c, rest, rfl, h.isDigit c List.mem_cons_self⟩

theorem IsDigits.sign_eq : sign cs = (false, cs) := by
  obtain ⟨c, rest, rfl, hc⟩ := h.exists_cons
  unfold sign
  split
  · rename_i heq
    cases heq
    cases hc
  · rename_i heq
    cases heq
    cases hc
  · rfl

end

theorem IsNumeral.exists_sign {cs : List Char} {n : Int} (h : IsNumeral cs n) : ∃ negative rest k,
    sign cs = (negative, rest) ∧ IsDigits rest k ∧ n = if negative then -(k : Int) else k := by
  cases h with
  | unsigned h => exact ⟨false, _, _, h.sign_eq, h, rfl⟩
  | plus h => exact ⟨false, _, _, rfl, h, rfl⟩
  | minus h => exact ⟨true, _, _, rfl, h, rfl⟩

theorem int?_of_sign {cs rest : List Char} {negative : Bool} (h : sign cs = (negative, rest)) :
    int? cs = (digits? rest).map fun (n : Nat) => if negative then -(n : Int) else (n : Int) := by
  rw [int?, h]
  dsimp only
  cases digits? rest <;> rfl

theorem int?_eq_some {cs : List Char} {n : Int} : int? cs = some n ↔ IsNumeral cs n := by
  constructor
  · intro h
    obtain ⟨⟨negative, rest⟩, hsign⟩ : ∃ p, sign cs = p := ⟨_, rfl⟩
    rw [int?_of_sign hsign] at h
    obtain ⟨k, hk, rfl⟩ := Option.map_eq_some_iff.1 h
    rw [digits?_eq_some] at hk
    unfold sign at hsign
    split at hsign <;> cases hsign
    · exact .plus hk
    · exact .minus hk
    · exact .unsigned hk
  · intro h
    obtain ⟨negative, rest, k, hsign, hk, rfl⟩ := h.exists_sign
    rw [int?_of_sign hsign, digits?_eq_some.2 hk]
    rfl

theorem not_isBlank_of_isDigit {c : Char} (h : c.isDigit = true) : Unicode.isBlank c = false := by
  obtain ⟨hlow, hhigh⟩ := isDigit_bounds h
  simp only [Unicode.isBlank, Unicode.whiteSpace, Unicode.covers, Bool.and_eq_false_iff,
    Bool.or_eq_false_iff, Bool.not_eq_false', decide_eq_true_eq, decide_eq_false_iff_not]
  omega

theorem IsNumeral.ne_nil {cs : List Char} {n : Int} (h : IsNumeral cs n) : cs ≠ [] := by
  cases h with
  | unsigned h => exact h.ne_nil
  | plus | minus => exact List.cons_ne_nil _ _

theorem IsNumeral.not_isBlank {cs : List Char} {n : Int} (h : IsNumeral cs n) :
    ∀ c ∈ cs, Unicode.isBlank c = false := by
  cases h with
  | unsigned h => exact fun c hc => not_isBlank_of_isDigit (h.isDigit c hc)
  | plus h | minus h =>
    refine List.forall_mem_cons.2 ⟨by decide, fun c hc => not_isBlank_of_isDigit (h.isDigit c hc)⟩

theorem int?_trim_eq_some {cs : List Char} {n : Int} :
    int? (Unicode.trim cs) = some n ↔ ∃ before numeral after, cs = before ++ numeral ++ after ∧
      (∀ c ∈ before, Unicode.isBlank c = true) ∧ (∀ c ∈ after, Unicode.isBlank c = true) ∧
      IsNumeral numeral n := by
  constructor
  · intro h
    obtain ⟨before, after, hcs, hbefore, hafter⟩ := Unicode.exists_trim cs
    exact ⟨before, _, after, hcs, hbefore, hafter, int?_eq_some.1 h⟩
  · rintro ⟨before, numeral, after, rfl, hbefore, hafter, h⟩
    rw [Unicode.trim_append hbefore h.ne_nil h.not_isBlank hafter, int?_eq_some.2 h]

theorem toLower_of_isDigit {c : Char} (h : c.isDigit = true) : c.toLower = c := by
  obtain ⟨hlow, hhigh⟩ := isDigit_bounds h
  have hupper : ¬ (c.val ≥ 'A'.val ∧ c.val ≤ 'Z'.val) := fun hletter => by
    have hle : 65 ≤ c.toNat := hletter.1
    omega
  rw [Char.toLower, dif_neg hupper]

section

variable {cs : List Char} {n : Nat} (h : IsDigits cs n)

include h

theorem IsDigits.named?_eq : named? cs = none := by
  obtain ⟨c, rest, rfl, hc⟩ := h.exists_cons
  -- The names start with letters.
  have hletter {d : Char} (hd : d.isDigit = false) (text : List Char) :
      String.ofList ((c :: rest).map Char.toLower) ≠ String.ofList (d :: text) := by
    intro heq
    have hlower := (List.cons.inj (String.ofList_injective heq)).1
    rw [toLower_of_isDigit hc] at hlower
    rw [hlower, hd] at hc
    cases hc
  unfold named?
  split
  · rename_i heq
    exact absurd heq (hletter (d := 'i') (by decide) _)
  · rename_i heq
    exact absurd heq (hletter (d := 'i') (by decide) _)
  · rename_i heq
    exact absurd heq (hletter (d := 'n') (by decide) _)
  · rfl

theorem IsDigits.decimal?_eq : decimal? cs = some (Double.ofScientific n 0) := by
  have hwhole : cs.takeWhile Char.isDigit = cs := List.takeWhile_eq_self_iff.2 h.isDigit
  have hrest : cs.dropWhile Char.isDigit = [] := List.dropWhile_eq_nil_iff.2 h.isDigit
  have hsome : cs.isEmpty = false := List.isEmpty_eq_false_iff.2 h.ne_nil
  simp only [decimal?, hwhole, hrest, hsome, List.append_nil, digitsValue_eq, h.value]
  rfl

theorem IsDigits.named?_or_decimal? :
    (named? cs).or (decimal? cs) = some (Double.ofScientific n 0) := by
  rw [h.named?_eq, h.decimal?_eq, Option.none_or]

end

theorem double?_of_isNumeral {cs : List Char} {n : Int} (h : IsNumeral cs n) (hn : |n| ≤ 2 ^ 53) :
    ∃ x, double? cs = some x ∧ Double.HasValue x n := by
  obtain ⟨negative, rest, k, hsign, hk, rfl⟩ := h.exists_sign
  have hread : double? cs =
      some (if negative then -Double.ofScientific k 0 else Double.ofScientific k 0) := by
    rw [double?, hsign]
    dsimp only
    rw [hk.named?_or_decimal?]
    rfl
  refine ⟨_, hread, ?_⟩
  cases negative with
  | false =>
    rw [if_neg Bool.false_ne_true, if_neg Bool.false_ne_true, Int.cast_natCast]
    rw [if_neg Bool.false_ne_true, Nat.abs_cast] at hn
    exact Double.hasValue_ofScientific_zero (by exact_mod_cast hn)
  | true =>
    rw [if_pos rfl, if_pos rfl, Int.cast_neg, Int.cast_natCast]
    rw [if_pos rfl, abs_neg, Nat.abs_cast] at hn
    have hvalue := Double.hasValue_ofScientific_zero (n := k) (by exact_mod_cast hn)
    rw [← hvalue.value_eq]
    exact Double.hasValue_neg hvalue.isNumber

end Reading

end Rollup
