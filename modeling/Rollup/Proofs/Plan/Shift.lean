import Rollup.Proofs.Plan.Consumption

namespace Rollup

def Token.moved (n : Nat) (t : Token) : Token := { t with position := t.position + n }

namespace LexError

def moved (n : Nat) : LexError → LexError
  | unexpectedCharacter ch p => unexpectedCharacter ch (p + n)
  | unexpectedToken k t => unexpectedToken k (t.moved n)
  | unexpectedEnd k p => unexpectedEnd k (p + n)

end LexError

namespace ParseError

def moved (n : Nat) : ParseError → ParseError
  | lex e => lex (e.moved n)
  | unknownFunction name p => unknownFunction name (p + n)
  | unknownTimeUnit name p => unknownTimeUnit name (p + n)
  | expectedFunction found => expectedFunction found
  | unexpectedToken t => unexpectedToken (t.moved n)
  | integerOutOfRange literal p => integerOutOfRange literal (p + n)
  | percentOutOfRange literal p => percentOutOfRange literal (p + n)

theorem position?_moved (n : Nat) (e : ParseError) :
    (e.moved n).position? = e.position?.map (· + n) := by
  cases e with
  | lex e => cases e <;> rfl
  | _ => rfl

end ParseError

theorem Complaint.about_moved (complaint : Complaint) (n : Nat) (t : Token) :
    complaint.about (t.moved n) = (complaint.about t).moved n := by
  cases complaint <;> rfl

namespace Cursor

def moved (n : Nat) (c : Cursor) : Cursor := ⟨c.offset + n, c.rest⟩

theorem skipLayout_moved (n : Nat) (c : Cursor) :
    (c.moved n).skipLayout = c.skipLayout.moved n := by
  simp only [skipLayout, moved, Nat.add_right_comm]

theorem next_moved (n : Nat) (c : Cursor) :
    next (c.moved n) =
      match next c with
      | .ok t? d => .ok (t?.map (Token.moved n)) (d.moved n)
      | .error e d => .error (e.moved n) (d.moved n) := by
  simp only [next, skipLayout_moved]
  obtain ⟨m, cs⟩ := c.skipLayout
  cases cs with
  | nil => rfl
  | cons ch cs =>
    simp only [moved]
    cases TokenKind.ofChar? ch with
    | none => rfl
    | some kind => simp only [Option.map_some, Token.moved, Nat.add_right_comm]

theorem required_moved (k : TokenKind) (n : Nat) (c : Cursor) :
    required k (c.moved n) =
      match required k c with
      | .ok t d => .ok (t.moved n) (d.moved n)
      | .error e d => .error (e.moved n) (d.moved n) := by
  rw [required, next_moved, required]
  cases next c with
  | error e d => rfl
  | ok t? d => cases t? <;> rfl

theorem Reads.moved {c d : Cursor} {ts : List Token} (h : Reads c ts d) (n : Nat) :
    Reads (c.moved n) (ts.map (Token.moved n)) (d.moved n) := by
  induction h with
  | nil => exact .nil
  | cons hnext _ ih => exact .cons (by rw [next_moved, hnext]; rfl) ih

end Cursor

namespace Parse

def moved (n : Nat) : EStateM.Result ParseError Cursor α → EStateM.Result ParseError Cursor α
  | .ok a d => .ok a (d.moved n)
  | .error e d => .error (e.moved n) (d.moved n)

/-- A step that reads the same wherever the text stands. -/
def Uniform (s : Parse α) : Prop := ∀ n c, s (c.moved n) = moved n (s c)

theorem Uniform.bind {s : Parse α} {f : α → Parse β} (hs : Uniform s) (hf : ∀ a, Uniform (f a)) :
    Uniform (s >>= f) := by
  intro n c
  change EStateM.bind s f (c.moved n) = moved n (EStateM.bind s f c)
  unfold EStateM.bind
  rw [hs]
  cases s c with
  | error e d => rfl
  | ok a d => exact hf a n d

theorem uniform_run (σ : List Slot) : Uniform (Slot.run σ) := by
  intro n c
  change Slot.runAt σ (c.moved n) = moved n (Slot.runAt σ c)
  fun_induction Slot.runAt σ c with
  | case1 c => rw [Slot.runAt]; rfl
  | case2 c x σ e d hc =>
    exact Slot.run_of_required_error σ (by rw [Cursor.required_moved, hc])
  | case3 c x σ t d hc complaint hfill =>
    have hreq : Cursor.required x.wanted (c.moved n) = .ok (t.moved n) (d.moved n) := by
      rw [Cursor.required_moved, hc]
    refine (Slot.run_of_required σ hreq).trans ?_
    change Slot.resume (x.fill t.toLexeme) σ _ _ = _
    rw [hfill]
    change EStateM.Result.error (complaint.about (t.moved n)) _ = _
    rw [Complaint.about_moved]
    rfl
  | case4 c x σ t d hc opened hfill hlt ih =>
    have hreq : Cursor.required x.wanted (c.moved n) = .ok (t.moved n) (d.moved n) := by
      rw [Cursor.required_moved, hc]
    refine (Slot.run_of_required σ hreq).trans ?_
    change Slot.resume (x.fill t.toLexeme) σ _ _ = _
    rw [hfill]
    exact ih

theorem uniform_of_follows {s : Parse α} {σ : List Slot} {L : Language α} (hfollows : Follows s σ)
    (hs : Accepts s L) :
    Uniform s := by
  intro n c
  cases hc : s c with
  | ok a d =>
    obtain ⟨ts, hreads, hL⟩ := (hs c a d).1 hc
    refine (hs _ _ _).2 ⟨_, hreads.moved n, ?_⟩
    rw [List.map_map]
    exact hL
  | error e d =>
    have hrun := uniform_run σ n c
    rw [hfollows.run_eq, hfollows.run_eq, hc] at hrun
    cases hmoved : s (c.moved n) with
    | ok a f =>
      rw [hmoved] at hrun
      cases hrun
    | error e' f =>
      rw [hmoved] at hrun
      cases hrun
      rfl

theorem uniform_parameters (k : Kind) : Uniform (parameters k) :=
  uniform_of_follows (follows_parameters k) (accepts_parameters k)

theorem uniform_conclude (p : Plan) : Uniform (conclude (.plan p)) := by
  intro n c
  change EStateM.bind (ofScan Cursor.next) _ (c.moved n) =
    moved n (EStateM.bind (ofScan Cursor.next) _ c)
  unfold EStateM.bind ofScan
  rw [Cursor.next_moved]
  cases c.next with
  | error e d => rfl
  | ok t? d => cases t? <;> rfl

end Parse

end Rollup
