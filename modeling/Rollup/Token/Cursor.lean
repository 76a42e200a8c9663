import Rollup.Token

/-!
A place in a text, and the steps that read one token there.

A step that meets a character outside the alphabet stays in front of it, so that every later step
meets it again; a step that finds a token of the wrong kind has consumed it.
-/

namespace Rollup

structure Cursor where
  offset : Nat
  rest : List Char
  deriving DecidableEq, Repr

abbrev Scan := EStateM LexError Cursor

instance decidableEqResult [DecidableEq ε] [DecidableEq σ] [DecidableEq α] :
    DecidableEq (EStateM.Result ε σ α)
  | .ok a s, .ok b t => decidable_of_iff (a = b ∧ s = t) (by simp)
  | .error e s, .error f t => decidable_of_iff (e = f ∧ s = t) (by simp)
  | .ok .., .error .. => isFalse nofun
  | .error .., .ok .. => isFalse nofun

namespace Cursor

def start (text : String) : Cursor := ⟨0, text.toList⟩

def skipLayout (c : Cursor) : Cursor :=
  ⟨c.offset + (c.rest.takeWhile isLayout).length, c.rest.dropWhile isLayout⟩

def toEnd (c : Cursor) : Cursor := ⟨c.offset + c.rest.length, []⟩

def next : Scan (Option Token) := fun c =>
  let c := c.skipLayout
  match c.rest with
  | [] => .ok none c
  | ch :: cs =>
    match TokenKind.ofChar? ch with
    | none => .error (.unexpectedCharacter ch c.offset) c
    | some kind =>
      let run := ch :: cs.takeWhile kind.extendedBy
      .ok (some ⟨⟨kind, String.ofList run⟩, c.offset⟩)
        ⟨c.offset + run.length, cs.dropWhile kind.extendedBy⟩

/-- The next token, of whatever kind; `expected` is what the message says at the end of the text. -/
def required (expected : TokenKind) : Scan Token := fun c =>
  match next c with
  | .error e c => .error e c
  | .ok none c => .error (.unexpectedEnd expected c.offset) c
  | .ok (some t) c => .ok t c

def expect (expected : TokenKind) : Scan Token := fun c =>
  match required expected c with
  | .error e c => .error e c
  | .ok t c => if t.kind = expected then .ok t c else .error (.unexpectedToken expected t) c

/-- The next item of an iteration over the tokens, which ends behind the first error. -/
def iterate (c : Cursor) : Option (Except LexError Token) × Cursor :=
  match next c with
  | .error e c => (some (.error e), c.toEnd)
  | .ok none c => (none, c)
  | .ok (some t) c => (some (.ok t), c)

theorem length_skipLayout_le (c : Cursor) : c.skipLayout.rest.length ≤ c.rest.length :=
  (List.dropWhile_sublist _).length_le

theorem length_lt_of_next {c d : Cursor} {t : Token} (h : next c = .ok (some t) d) :
    d.rest.length < c.rest.length := by
  have hskip := length_skipLayout_le c
  simp only [next] at h
  split at h
  · cases h
  · rename_i ch cs hrest
    split at h
    · cases h
    · rename_i kind _
      cases h
      have := (List.dropWhile_sublist kind.extendedBy (l := cs)).length_le
      rw [hrest, List.length_cons] at hskip
      exact Nat.lt_of_le_of_lt this hskip

theorem length_lt_of_required {c d : Cursor} {k : TokenKind} {t : Token}
    (h : required k c = .ok t d) : d.rest.length < c.rest.length := by
  simp only [required] at h
  split at h
  · cases h
  · cases h
  · rename_i hnext
    cases h
    exact length_lt_of_next hnext

theorem length_lt_of_expect {c d : Cursor} {k : TokenKind} {t : Token}
    (h : expect k c = .ok t d) : d.rest.length < c.rest.length := by
  simp only [expect] at h
  split at h
  · cases h
  · rename_i hreq
    split at h
    · cases h
      exact length_lt_of_required hreq
    · cases h

def tokens (c : Cursor) : List Token × Option LexError :=
  match h : next c with
  | .error e _ => ([], some e)
  | .ok none _ => ([], none)
  | .ok (some t) d =>
    have := length_lt_of_next h
    let (ts, stop) := d.tokens
    (t :: ts, stop)
termination_by c.rest.length

end Cursor

end Rollup
