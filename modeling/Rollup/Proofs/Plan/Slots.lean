import Rollup.Proofs.Plan.Parse

/-!
A machine that predicts what a formula goes on with.

The stack holds what is still waited for. A lexeme fills the slot on top, or opens it into further
slots, or is refused, and no slot is looked at before its turn. So a run depends on lexemes alone,
and stops at the first of them that it refuses (`exists_halts`).
-/

namespace Rollup

/-- What is wrong with a token, apart from where it stands. -/
inductive Complaint
  | unexpected
  | expected (kind : TokenKind)
  | unknownFunction
  | notFunction (found : Expression)
  | unknownTimeUnit
  | integerOutOfRange
  | percentOutOfRange

def Complaint.about : Complaint → Token → ParseError
  | unexpected, t => .unexpectedToken t
  | expected k, t => .lex (.unexpectedToken k t)
  | unknownFunction, t => .unknownFunction t.text t.position
  | notFunction x, _ => .expectedFunction x
  | unknownTimeUnit, t => .unknownTimeUnit t.text t.position
  | integerOutOfRange, t => .integerOutOfRange t.text t.position
  | percentOutOfRange, t => .percentOutOfRange t.text t.position

inductive Slot
  | token (kind : TokenKind)
  | integer (bits : Nat)
  | percent
  | unit
  | unitName
  | fields
  | function (registry : Registry)
  /-- The name of an operand where a function should stand. -/
  | operand

def Kind.slots : Kind → List Slot
  | max | min | flag | gaugeFp | gaugeInt => [.token .leftBracket, .token .rightBracket]
  | sum | avg => [.token .leftBracket, .integer 64, .unit, .token .rightBracket]
  | percentile =>
    [.token .leftBracket, .percent, .token .comma, .integer 64, .unit, .token .rightBracket]
  | correl => [.token .leftBracket, .token .dollar, .token .name, .token .rightBracket]
  | extract _ => [.token .leftBracket, .token .name, .fields]
  | rangedGaugeFp | rangedGaugeInt =>
    [.token .leftBracket, .integer 63, .token .comma, .integer 63, .token .rightBracket]

namespace Slot

open Grammar (number)

def wanted : Slot → TokenKind
  | token k => k
  | integer _ | percent => .integer
  | unit | unitName | function _ | operand => .name
  | fields => .rightBracket

def fillInteger (bits : Nat) (s : String) : Except Complaint (List Slot) :=
  if number s < 2 ^ bits then .ok [] else .error .integerOutOfRange

def fillPercent (s : String) : Except Complaint (List Slot) :=
  if number s < 2 ^ 64 then if number s ≤ 100 then .ok [] else .error .percentOutOfRange
  else .error .integerOutOfRange

def fillUnit (s : String) : Except Complaint (List Slot) :=
  if (TimeUnit.ofName? s).isSome then .ok [] else .error .unknownTimeUnit

/-- The slots that a lexeme opens in place of the one that it stands in, or why it may not stand
there. -/
def fill : Slot → Lexeme → Except Complaint (List Slot)
  | token k, l => if l.kind = k then .ok [] else .error (.expected k)
  | integer bits, l =>
    if l.kind = .integer then fillInteger bits l.text else .error (.expected .integer)
  | percent, l => if l.kind = .integer then fillPercent l.text else .error (.expected .integer)
  | unit, l =>
    match l.kind with
    | .name => fillUnit l.text
    | .comma => .ok [unitName]
    | _ => .error .unexpected
  | unitName, l => if l.kind = .name then fillUnit l.text else .error (.expected .name)
  | fields, l =>
    match l.kind with
    | .rightBracket => .ok []
    | .comma => .ok [token .name, fields]
    | _ => .error .unexpected
  | function r, l =>
    match l.kind with
    | .name =>
      match r.find? l.text with
      | some k => .ok k.slots
      | none => .error .unknownFunction
    | .integer =>
      if number l.text < 2 ^ 64 then .error (.notFunction (.integer (.ofNat (number l.text))))
      else .error .integerOutOfRange
    | .dollar => .ok [operand]
    | _ => .error .unexpected
  | operand, l =>
    if l.kind = .name then .error (.notFunction (.operand l.text)) else .error (.expected .name)

def runAt (σ : List Slot) (c : Cursor) : EStateM.Result ParseError Cursor Unit :=
  match σ with
  | [] => .ok () c
  | x :: σ =>
    match hc : Cursor.required x.wanted c with
    | .error e d => .error (.lex e) d
    | .ok t d =>
      match x.fill t.toLexeme with
      | .error complaint => .error (complaint.about t) d
      | .ok opened =>
        have := Cursor.length_lt_of_required hc
        runAt (opened ++ σ) d
termination_by c.rest.length

def run (σ : List Slot) : Parse Unit := runAt σ

def resume : Except Complaint (List Slot) → List Slot → Token → Parse Unit
  | .error complaint, _, t => throw (complaint.about t)
  | .ok opened, σ, _ => run (opened ++ σ)

theorem run_nil : run [] = pure () := by
  funext c
  rw [run, runAt]
  rfl

theorem run_cons (x : Slot) (σ : List Slot) :
    run (x :: σ) = Parse.required x.wanted >>= fun t => resume (x.fill t.toLexeme) σ t := by
  funext c
  change _ = EStateM.bind (Parse.required x.wanted) (fun t => resume (x.fill t.toLexeme) σ t) c
  unfold EStateM.bind Parse.required Parse.ofScan
  rw [run, runAt]
  split
  · rename_i hc
    simp only [hc]
  · rename_i t d hc
    simp only [hc]
    cases x.fill t.toLexeme with
    | error => rfl
    | ok => rfl

theorem run_of_required {x : Slot} {c d : Cursor} {t : Token} (σ : List Slot)
    (h : Cursor.required x.wanted c = .ok t d) :
    run (x :: σ) c = resume (x.fill t.toLexeme) σ t d := by
  rw [run_cons]
  exact Parse.bind_of_ok _ (Parse.ofScan_eq_ok.2 h)

theorem run_of_required_error {x : Slot} {c d : Cursor} {e : LexError} (σ : List Slot)
    (h : Cursor.required x.wanted c = .error e d) : run (x :: σ) c = .error (.lex e) d := by
  rw [run_cons]
  exact Parse.bind_of_error _ (Parse.ofScan_of_error h)

theorem run_append (σ τ : List Slot) : run (σ ++ τ) = run σ >>= fun _ => run τ := by
  funext c
  change runAt (σ ++ τ) c = EStateM.bind (runAt σ) (fun _ => runAt τ) c
  unfold EStateM.bind
  fun_induction runAt σ c with
  | case1 c => rfl
  | case2 c x σ e d hc =>
    rw [List.cons_append, runAt]
    split <;> simp_all
  | case3 c x σ t d hc complaint hfill =>
    rw [List.cons_append, runAt]
    split <;> simp_all
  | case4 c x σ t d hc opened hfill hlt ih =>
    rw [List.cons_append, runAt, ← ih]
    split <;> simp_all

def step : List Slot → Lexeme → Except Complaint (List Slot)
  | [], _ => .error .unexpected
  | x :: σ, l => (· ++ σ) <$> x.fill l

theorem step_eq_ok {x : Slot} {σ τ : List Slot} {l : Lexeme} :
    step (x :: σ) l = .ok τ ↔ ∃ opened, x.fill l = .ok opened ∧ opened ++ σ = τ := by
  rw [step]
  cases x.fill l <;> simp

theorem step_eq_error {x : Slot} {σ : List Slot} {l : Lexeme} {complaint : Complaint} :
    step (x :: σ) l = .error complaint ↔ x.fill l = .error complaint := by
  rw [step]
  cases x.fill l <;> simp

def advance (σ : List Slot) (ls : List Lexeme) : Except Complaint (List Slot) := ls.foldlM step σ

def ending : Parse Unit := Parse.next >>= fun
  | none => pure ()
  | some t => throw (Complaint.unexpected.about t)

def judge (σ : List Slot) : Parse Unit := run σ >>= fun _ => ending

/-- A place from which no lexeme is taken, and what is found there. -/
inductive Halts : List Slot → Cursor → EStateM.Result ParseError Cursor Unit → Prop
  | finished : c.next = .ok none d → Halts [] c (.ok () d)
  | cutOff : c.next = .ok none d →
      Halts (x :: σ) c (.error (.lex (.unexpectedEnd x.wanted d.offset)) d)
  | refused : c.next = .ok (some t) d → step σ t.toLexeme = .error complaint →
      Halts σ c (.error (complaint.about t) d)
  | illegal : c.next = .error e d → Halts σ c (.error (.lex e) d)

theorem ending_eq (c : Cursor) :
    ending c =
      match c.next with
      | .ok none d => .ok () d
      | .ok (some t) d => .error (.unexpectedToken t) d
      | .error e d => .error (.lex e) d := by
  change EStateM.bind (Parse.ofScan Cursor.next) _ c = _
  unfold EStateM.bind Parse.ofScan
  cases c.next with
  | error => rfl
  | ok t? d => cases t? <;> rfl

theorem judge_nil : judge [] = ending := by rw [judge, run_nil, pure_bind]

theorem advance_cons {σ τ : List Slot} {l : Lexeme} {ls : List Lexeme} :
    advance σ (l :: ls) = .ok τ ↔ ∃ ρ, step σ l = .ok ρ ∧ advance ρ ls = .ok τ := by
  rw [advance, List.foldlM_cons]
  cases step σ l with
  | error => exact ⟨nofun, fun ⟨_, h, _⟩ => nomatch h⟩
  | ok ρ => exact ⟨fun h => ⟨ρ, rfl, h⟩, fun ⟨_, h, hτ⟩ => by cases h; exact hτ⟩

theorem run_of_next {c d : Cursor} {t : Token} {σ τ : List Slot} (h : c.next = .ok (some t) d)
    (hstep : step σ t.toLexeme = .ok τ) : run σ c = run τ d := by
  cases σ with
  | nil => cases hstep
  | cons x σ =>
    obtain ⟨opened, hfill, rfl⟩ := step_eq_ok.1 hstep
    rw [run_of_required σ (Cursor.required_eq_ok.2 h), hfill]
    rfl

theorem run_of_reads {c d : Cursor} {ts : List Token} {σ τ : List Slot} (h : c.Reads ts d)
    (hτ : advance σ (ts.map Token.toLexeme) = .ok τ) : run σ c = run τ d := by
  induction h generalizing σ with
  | nil =>
    cases hτ
    rfl
  | cons hnext _ ih =>
    obtain ⟨ρ, hstep, hρ⟩ := advance_cons.1 hτ
    rw [run_of_next hnext hstep]
    exact ih hρ

theorem judge_congr {c d : Cursor} {σ τ : List Slot} (h : run σ c = run τ d) :
    judge σ c = judge τ d :=
  Parse.bind_congr_left _ h

theorem judge_of_next {c d : Cursor} {t : Token} {σ τ : List Slot} (h : c.next = .ok (some t) d)
    (hstep : step σ t.toLexeme = .ok τ) : judge σ c = judge τ d := judge_congr (run_of_next h hstep)

theorem judge_of_reads {c d : Cursor} {ts : List Token} {σ τ : List Slot} (h : c.Reads ts d)
    (hτ : advance σ (ts.map Token.toLexeme) = .ok τ) : judge σ c = judge τ d :=
  judge_congr (run_of_reads h hτ)

theorem run_of_halts {x : Slot} {σ : List Slot} {c : Cursor}
    {r : EStateM.Result ParseError Cursor Unit} (h : Halts (x :: σ) c r) : run (x :: σ) c = r := by
  -- As long as something is waited for, a run that takes no lexeme fails.
  cases h with
  | cutOff hnext => exact run_of_required_error σ (by simp only [Cursor.required, hnext])
  | refused hnext hstep =>
    rw [run_of_required σ (Cursor.required_eq_ok.2 hnext), step_eq_error.1 hstep]
    rfl
  | illegal hnext => exact run_of_required_error σ (by simp only [Cursor.required, hnext])

theorem judge_of_halts {c : Cursor} {σ : List Slot} {r : EStateM.Result ParseError Cursor Unit}
    (h : Halts σ c r) :
    judge σ c = r := by
  cases σ with
  | nil =>
    rw [judge_nil, ending_eq]
    cases h with
    | finished hnext => simp only [hnext]
    | refused hnext hstep =>
      cases hstep
      simp only [hnext, Complaint.about]
    | illegal hnext => simp only [hnext]
  | cons x σ =>
    have hrun := run_of_halts h
    cases h <;> exact Parse.bind_of_error _ hrun

theorem exists_halts (σ : List Slot) (c : Cursor) :
    ∃ ts d τ, c.Reads ts d ∧ advance σ (ts.map Token.toLexeme) = .ok τ ∧ Halts τ d (judge σ c) := by
  have hhere {σ : List Slot} {c : Cursor} {r} (h : Halts σ c r) :
      ∃ ts d τ, c.Reads ts d ∧ advance σ (ts.map Token.toLexeme) = .ok τ ∧ Halts τ d (judge σ c) :=
    ⟨[], c, σ, .nil, rfl, judge_of_halts h ▸ h⟩
  induction hlength : c.rest.length using Nat.strongRecOn generalizing σ c with
  | ind n ih =>
    cases hnext : c.next with
    | error e d => exact hhere (.illegal hnext)
    | ok t? d =>
      cases t? with
      | none =>
        cases σ with
        | nil => exact hhere (.finished hnext)
        | cons x σ => exact hhere (.cutOff hnext)
      | some t =>
        cases hstep : step σ t.toLexeme with
        | error complaint => exact hhere (.refused hnext hstep)
        | ok ρ =>
          obtain ⟨ts, e, τ, hreads, hτ, hhalts⟩ :=
            ih _ (hlength ▸ Cursor.length_lt_of_next hnext) ρ d rfl
          refine ⟨t :: ts, e, τ, .cons hnext hreads, advance_cons.2 ⟨ρ, hstep, hτ⟩, ?_⟩
          rwa [judge_of_next hnext hstep]

theorem exists_run (σ : List Slot) (c : Cursor) :
    ∃ ts d τ, c.Reads ts d ∧ advance σ (ts.map Token.toLexeme) = .ok τ ∧
      (τ = [] ∧ run σ c = .ok () d ∨ τ ≠ [] ∧ Halts τ d (run σ c)) := by
  obtain ⟨ts, d, τ, hreads, hτ, hhalts⟩ := exists_halts σ c
  refine ⟨ts, d, τ, hreads, hτ, ?_⟩
  rw [run_of_reads hreads hτ]
  cases τ with
  | nil => exact .inl ⟨rfl, by rw [run_nil]; rfl⟩
  | cons x τ => exact .inr ⟨List.cons_ne_nil _ _, by rwa [run_of_halts hhalts]⟩

end Slot

end Rollup
