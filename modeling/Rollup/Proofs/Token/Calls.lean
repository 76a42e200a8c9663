import Rollup.Proofs.Token.Partition

namespace Rollup

inductive Call
  | next
  | iterate
  | required (expected : TokenKind)
  | expect (expected : TokenKind)
  deriving DecidableEq

inductive Answer
  | ended
  | token (t : Token)
  | error (e : LexError)

def Answer.taken? : Answer → Option Token
  | ended => none
  | token t => some t
  | error (.unexpectedToken _ t) => some t
  | error _ => none

theorem Cursor.length_tokens_le (c : Cursor) : c.tokens.1.length ≤ c.rest.length := by
  obtain ⟨d, hreads, -⟩ := exists_reads (List.append_nil c.tokens.1).symm
  exact Nat.le_of_add_right_le hreads.length_le

namespace Call

def run : Call → Cursor → Answer × Cursor
  | next, c =>
    match c.next with
    | .ok none d => (.ended, d)
    | .ok (some t) d => (.token t, d)
    | .error e d => (.error e, d)
  | iterate, c =>
    match c.iterate with
    | (none, d) => (.ended, d)
    | (some (.ok t), d) => (.token t, d)
    | (some (.error e), d) => (.error e, d)
  | required k, c =>
    match Cursor.required k c with
    | .ok t d => (.token t, d)
    | .error e d => (.error e, d)
  | expect k, c =>
    match Cursor.expect k c with
    | .ok t d => (.token t, d)
    | .error e d => (.error e, d)

/-- What a call makes of a token. -/
def receive : Call → Token → Answer
  | expect k, t => if t.kind = k then .token t else .error (.unexpectedToken k t)
  | _, t => .token t

def atEnd (n : Nat) : Call → Answer
  | next | iterate => .ended
  | required k | expect k => .error (.unexpectedEnd k n)

def after (c : Cursor) (calls : List Call) : Cursor := calls.foldl (fun c k => (k.run c).2) c

def answers : Cursor → List Call → List Answer
  | _, [] => []
  | c, k :: calls => (k.run c).1 :: answers (k.run c).2 calls

theorem after_cons (c : Cursor) (k : Call) (calls : List Call) :
    after c (k :: calls) = after (k.run c).2 calls := rfl

theorem after_append (c : Cursor) (calls later : List Call) :
    after c (calls ++ later) = after (after c calls) later := List.foldl_append

/-- Nothing but layout stands between a place and a character outside the alphabet, which the other
place is in front of. -/
inductive Meets : Cursor → Char → Cursor → Prop
  | mk : (∀ g ∈ gap, isLayout g = true) → ¬ InAlphabet ch →
      Meets ⟨n, gap ++ ch :: rest⟩ ch ⟨n + gap.length, ch :: rest⟩

theorem Meets.next_eq {c d : Cursor} {ch : Char} (h : Meets c ch d) :
    c.next = .error (.unexpectedCharacter ch d.offset) d := by
  cases h with
  | mk hgap hch => rw [Cursor.next_layout hgap, Cursor.next_foreign hch]

theorem Meets.rest_ne_nil {c d : Cursor} {ch : Char} (h : Meets c ch d) : c.rest ≠ [] := by
  cases h with
  | mk => exact List.append_ne_nil_of_right_ne_nil _ (List.cons_ne_nil _ _)

variable {c d : Cursor} {text : String}

theorem run_of_token {t : Token} (k : Call) (h : c.next = .ok (some t) d) :
    k.run c = (k.receive t, d) := by
  cases k with
  | next => simp only [run, h, receive]
  | iterate => simp only [run, Cursor.iterate, h, receive]
  | required k => simp only [run, Cursor.required, h, receive]
  | expect k =>
    simp only [run, Cursor.expect, Cursor.required, h, receive]
    split_ifs <;> rfl

theorem run_of_end (k : Call) (h : c.next = .ok none d) : k.run c = (k.atEnd d.offset, d) := by
  cases k with
  | next => simp only [run, h, atEnd]
  | iterate => simp only [run, Cursor.iterate, h, atEnd]
  | required k => simp only [run, Cursor.required, h, atEnd]
  | expect k => simp only [run, Cursor.expect, Cursor.required, h, atEnd]

theorem run_of_error {e : LexError} (k : Call) (h : c.next = .error e d) :
    k.run c = (.error e, if k = iterate then d.toEnd else d) := by
  cases k with
  | next => simp only [run, h, reduceCtorEq, if_false]
  | iterate => simp only [run, Cursor.iterate, h, if_true]
  | required k => simp only [run, Cursor.required, h, reduceCtorEq, if_false]
  | expect k => simp only [run, Cursor.expect, Cursor.required, h, reduceCtorEq, if_false]

theorem taken?_receive (k : Call) (t : Token) : (k.receive t).taken? = some t := by
  cases k with
  | expect k =>
    rw [receive]
    split_ifs <;> rfl
  | _ => rfl

theorem taken?_atEnd (n : Nat) (k : Call) : (k.atEnd n).taken? = none := by
  cases k <;> rfl

theorem next_of_error {e : LexError} (h : c.next = .error e d) : d.next = .error e d := by
  cases Cursor.finds_of_next h with
  | foreign _ _ hch => exact Cursor.next_foreign hch _ _

theorem within_toEnd (h : c.Within text) : c.toEnd.Within text := by
  obtain ⟨before, htext, hlength⟩ := h
  exact ⟨before ++ c.rest,
    by rw [htext, Cursor.toEnd, List.append_nil], by rw [List.length_append, hlength]; rfl⟩

theorem within_run (k : Call) (h : c.Within text) :
    (k.run c).2.Within text ∧ c.offset ≤ (k.run c).2.offset := by
  cases hnext : c.next with
  | error e d =>
    have hle : c.offset ≤ d.offset ∧ d.Within text := by
      obtain ⟨n, cs⟩ := c
      cases Cursor.finds_of_next hnext with
      | foreign hrest =>
        subst hrest
        exact ⟨Nat.le_add_right _ _, h.append.2⟩
    rw [run_of_error k hnext]
    split_ifs
    · exact ⟨within_toEnd hle.2, hle.1.trans (Nat.le_add_right _ _)⟩
    · exact hle.symm
  | ok t? d =>
    cases t? with
    | none =>
      rw [run_of_end k hnext]
      cases Cursor.finds_of_next hnext
      exact ⟨within_toEnd h, Nat.le_add_right _ _⟩
    | some t =>
      rw [run_of_token k hnext]
      exact ⟨(h.of_next hnext).2, (Cursor.tiles_of_next h hnext).2⟩

theorem run_toEnd (k : Call) (c : Cursor) : k.run c.toEnd = (k.atEnd c.toEnd.offset, c.toEnd) :=
  run_of_end k rfl

theorem after_toEnd (c : Cursor) (calls : List Call) : after c.toEnd calls = c.toEnd := by
  induction calls with
  | nil => rfl
  | cons k calls ih => rw [after_cons, run_toEnd, ih]

theorem after_of_error {e : LexError} {calls : List Call} (h : d.next = .error e d)
    (hcalls : iterate ∉ calls) :
    after d calls = d := by
  -- Only an iteration passes over a character outside the alphabet.
  induction calls with
  | nil => rfl
  | cons k calls ih =>
    obtain ⟨hk, hcalls⟩ := not_or.1 (List.mem_cons.not.1 hcalls)
    rw [after_cons, run_of_error k h, if_neg (Ne.symm hk)]
    exact ih hcalls

theorem exists_toEnd_of_iterate (h : ∀ t, (iterate.run c).1 ≠ .token t) :
    ∃ d : Cursor, (iterate.run c).2 = d.toEnd := by
  cases hnext : c.next with
  | error e d => exact ⟨d, by rw [run_of_error iterate hnext, if_pos rfl]⟩
  | ok t? d =>
    cases t? with
    | none =>
      rw [run_of_end iterate hnext]
      cases Cursor.finds_of_next hnext
      exact ⟨c, rfl⟩
    | some t => exact absurd (congrArg Prod.fst (run_of_token iterate hnext)) (h t)

theorem filterMap_taken? (c : Cursor) (calls : List Call) :
    (answers c calls).filterMap Answer.taken? = c.tokens.1.take calls.length := by
  induction calls generalizing c with
  | nil => rfl
  | cons k calls ih =>
    rw [answers, List.filterMap_cons, ih]
    cases hnext : c.next with
    | error e d =>
      have htail : (if k = iterate then d.toEnd else d).tokens.1 = [] := by
        split_ifs
        · exact congrArg Prod.fst (Cursor.tokens_of_end rfl)
        · exact congrArg Prod.fst (Cursor.tokens_of_error (next_of_error hnext))
      have htaken : Answer.taken? (.error e) = none := by
        cases Cursor.finds_of_next hnext
        rfl
      simp only [run_of_error k hnext, htaken, htail, Cursor.tokens_of_error hnext, List.take_nil]
    | ok t? d =>
      cases t? with
      | none =>
        have htail : d.tokens.1 = [] := by
          cases Cursor.finds_of_next hnext
          exact congrArg Prod.fst (Cursor.tokens_of_end rfl)
        simp only [run_of_end k hnext, taken?_atEnd, htail, Cursor.tokens_of_end hnext,
          List.take_nil]
      | some t =>
        simp only [run_of_token k hnext, taken?_receive, Cursor.tokens_of_next hnext,
          List.length_cons, List.take_succ_cons]

theorem within_after (h : c.Within text) (calls : List Call) :
    (after c calls).Within text ∧ c.offset ≤ (after c calls).offset := by
  induction calls generalizing c with
  | nil => exact ⟨h, Nat.le_refl _⟩
  | cons k calls ih =>
    obtain ⟨hwithin, hle⟩ := within_run k h
    obtain ⟨hwithin', hle'⟩ := ih hwithin
    exact ⟨hwithin', hle.trans hle'⟩

theorem stop_after {calls : List Call} (h : (after c calls).rest ≠ []) :
    (after c calls).tokens.2 = c.tokens.2 := by
  induction calls generalizing c with
  | nil => rfl
  | cons k calls ih =>
    rw [after_cons] at h ⊢
    rw [ih h]
    cases hnext : c.next with
    | error e d =>
      rw [run_of_error k hnext] at h ⊢
      split_ifs at h ⊢
      · exact absurd (congrArg Cursor.rest (after_toEnd d calls)) h
      · rw [Cursor.tokens_of_error hnext, Cursor.tokens_of_error (next_of_error hnext)]
    | ok t? d =>
      cases t? with
      | none =>
        rw [run_of_end k hnext] at h ⊢
        cases Cursor.finds_of_next hnext
        exact absurd (congrArg Cursor.rest (after_toEnd c calls)) h
      | some t => rw [run_of_token k hnext, Cursor.tokens_of_next hnext]

theorem length_iterate_le {n : Nat} (h : c.rest.length ≤ n + 1) :
    (iterate.run c).2.rest.length ≤ n := by
  rw [run]
  split
  · rename_i d hiterate
    obtain ⟨e, he⟩ := exists_toEnd_of_iterate (c := c) (by simp [run, hiterate])
    simp only [run, hiterate] at he
    simp [he, Cursor.toEnd]
  · rename_i hiterate
    exact Nat.le_of_lt_succ ((Cursor.length_lt_of_iterate hiterate).trans_le h)
  · rename_i hiterate
    exact Nat.le_of_lt_succ ((Cursor.length_lt_of_iterate hiterate).trans_le h)

theorem iterate_ends {n : Nat} (h : c.rest.length ≤ n) :
    (iterate.run (after c (List.replicate n iterate))).1 = .ended := by
  induction n generalizing c with
  | zero =>
    have hend : c = c.toEnd := by
      obtain ⟨offset, rest⟩ := c
      obtain rfl : rest = [] := by simpa using h
      rfl
    rw [List.replicate_zero, hend, after_toEnd, run_toEnd]
    rfl
  | succ n ih =>
    rw [List.replicate_succ, after_cons]
    exact ih (length_iterate_le h)

/-- However calls are mixed, they take the tokens of the text one after the other, and stop in front
of the first character outside the alphabet, until an iteration passes over it. -/
theorem calls_in_any_order (text : String) :
    ∃ ts stop, Tiles text 0 (extent text stop) ts ∧ Stops text stop ∧ ts.length ≤ text.length ∧
      (∀ calls, (answers (.start text) calls).filterMap Answer.taken? = ts.take calls.length) ∧
      (∀ calls later, (after (.start text) calls).offset ≤
        (after (.start text) (calls ++ later)).offset ∧
        (after (.start text) (calls ++ later)).offset ≤ text.length) ∧
      (∀ calls ch d, Meets (after (.start text) calls) ch d →
        stop = some (.unexpectedCharacter ch d.offset) ∧
          (∀ k : Call, (k.run (after (.start text) calls)).1 =
            .error (.unexpectedCharacter ch d.offset)) ∧
          ∀ k later, iterate ∉ k :: later → after (.start text) (calls ++ k :: later) = d ∧
            ∀ j : Call, (j.run d).1 = .error (.unexpectedCharacter ch d.offset)) ∧
      (∀ calls, (∀ t, (iterate.run (after (.start text) calls)).1 ≠ .token t) → ∀ later,
        after (.start text) (calls ++ iterate :: later) = ⟨text.length, []⟩ ∧
          ∀ k : Call, (k.run ⟨text.length, []⟩).1 = k.atEnd text.length) ∧
      ∀ n, text.length ≤ n →
        (iterate.run (after (.start text) (List.replicate n iterate))).1 = .ended := by
  have hstart := Cursor.within_start text
  obtain ⟨ts, stop, htokens⟩ : ∃ ts stop, (Cursor.start text).tokens = (ts, stop) := ⟨_, _, rfl⟩
  obtain ⟨htiles, hstop⟩ := Cursor.tiles_of_tokens htokens
  refine ⟨ts, stop, htiles, hstop, ?_, fun calls => ?_, fun calls later => ?_,
    fun calls ch d hmeets => ?_, fun calls hiterate later => ?_, fun n hn => ?_⟩
  · have hle := Cursor.length_tokens_le (Cursor.start text)
    rwa [htokens, Cursor.start, String.length_toList] at hle
  · rw [filterMap_taken?, htokens]
  · obtain ⟨hwithin, -⟩ := within_after hstart calls
    obtain ⟨hwithin', hle⟩ := within_after hwithin later
    rw [after_append]
    exact ⟨hle, hwithin'.offset_add_length ▸ Nat.le_add_right _ _⟩
  · have hnext := hmeets.next_eq
    refine ⟨?_, fun k => by rw [run_of_error k hnext], fun k later hlater => ⟨?_, fun j => ?_⟩⟩
    · have hscan := stop_after hmeets.rest_ne_nil
      rw [Cursor.tokens_of_error hnext, htokens] at hscan
      exact hscan.symm
    · obtain ⟨hk, hlater⟩ := not_or.1 (List.mem_cons.not.1 hlater)
      rw [after_append, after_cons, run_of_error k hnext, if_neg (Ne.symm hk)]
      exact after_of_error (next_of_error hnext) hlater
    · rw [run_of_error j (next_of_error hnext)]
  · obtain ⟨hwithin, -⟩ := within_after hstart (calls ++ iterate :: later)
    obtain ⟨d, hd⟩ := exists_toEnd_of_iterate hiterate
    have hend : (Cursor.mk text.length []).toEnd = ⟨text.length, []⟩ := rfl
    refine ⟨?_, fun k => by rw [← hend, run_toEnd]; rfl⟩
    rw [after_append, after_cons, hd, after_toEnd] at hwithin ⊢
    rw [← hwithin.offset_add_length]
    rfl
  · refine iterate_ends ?_
    rwa [Cursor.start, String.length_toList]

theorem calls_in_any_order_percent :
    let text := "sum (5 %"
    let calls : List Call := [next, expect .comma, iterate]
    Meets (after (.start text) calls) '%' ⟨7, ['%']⟩ ∧ iterate ∉ [required .name, next] ∧
      after (.start text) (calls ++ [required .name, next]) = ⟨7, ['%']⟩ ∧
      (∀ t, (iterate.run (after (.start text) calls)).1 ≠ .token t) ∧
      after (.start text) (calls ++ [iterate, expect .name]) = ⟨8, []⟩ ∧
      ((expect .name).run ⟨8, []⟩).1 = .error (.unexpectedEnd .name 8) := by
  intro text calls
  obtain ⟨ts, stop, -, -, -, -, -, hmeets, hiterate, -⟩ := calls_in_any_order text
  have hcalls : after (.start text) calls = ⟨6, [' ', '%']⟩ := by decide +kernel
  have hpercent : Meets (after (.start text) calls) '%' ⟨7, ['%']⟩ := by
    have hgap : ∀ g ∈ [' '], isLayout g = true := List.forall_mem_singleton.2 (by decide)
    have hforeign : ¬ InAlphabet '%' := by
      rw [TokenKind.inAlphabet_iff]
      decide +kernel
    rw [hcalls]
    exact .mk hgap hforeign
  obtain ⟨-, herror, hstays⟩ := hmeets calls '%' _ hpercent
  have hnever : iterate ∉ [required .name, next] := by decide
  have hover : ∀ t, (iterate.run (after (.start text) calls)).1 ≠ .token t := by
    rw [herror]
    exact nofun
  have hlength : text.length = 8 := by decide
  obtain ⟨hend, hcall⟩ := hiterate calls hover [expect .name]
  rw [hlength] at hend hcall
  exact ⟨hpercent, hnever, (hstays (required .name) [next] hnever).1, hover,
    hend, hcall (expect .name)⟩

end Call
end Rollup
