import Rollup.Json
import Rollup.Number.Numeral

namespace Rollup

inductive JsonToken
  | null
  | bool (b : Bool)
  | number (n : JsonNumber)
  | string (s : String)
  | comma
  | colon
  | openArray
  | closeArray
  | openObject
  | closeObject

namespace JsonToken

def isSpace (c : Char) : Bool := c == ' ' || c == '\t' || c == '\n' || c == '\r'

def hexValue? (c : Char) : Option Nat :=
  if '0' ≤ c ∧ c ≤ '9' then some (c.toNat - '0'.toNat)
  else if 'a' ≤ c ∧ c ≤ 'f' then some (c.toNat - 'a'.toNat + 10)
  else if 'A' ≤ c ∧ c ≤ 'F' then some (c.toNat - 'A'.toNat + 10)
  else none

def unit? (a b c d : Char) : Option Nat := do
  return (((← hexValue? a) * 16 + (← hexValue? b)) * 16 + (← hexValue? c)) * 16 + (← hexValue? d)

def escaped? : Char → Option Char
  | '"' => some '"'
  | '\\' => some '\\'
  | '/' => some '/'
  | 'b' => some '\x08'
  | 'f' => some '\x0c'
  | 'n' => some '\n'
  | 'r' => some '\r'
  | 't' => some '\t'
  | _ => none

def ofSurrogates (high low : Nat) : Char :=
  Char.ofNat (0x10000 + (high - 0xd800) * 0x400 + (low - 0xdc00))

/-- The characters up to the closing quote, and what follows it. Half of a surrogate pair on its own
is no character. -/
def stringBody? : List Char → Option (List Char × List Char)
  | [] => none
  | '"' :: rest => some ([], rest)
  | '\\' :: 'u' :: a :: b :: c :: d :: rest =>
    match unit? a b c d with
    | none => none
    | some n =>
      if n < 0xd800 ∨ 0xdfff < n then (stringBody? rest).map fun (s, r) => (Char.ofNat n :: s, r)
      else if 0xdc00 ≤ n then none
      else
        match rest with
        | '\\' :: 'u' :: a :: b :: c :: d :: rest =>
          match unit? a b c d with
          | none => none
          | some m =>
            if 0xdc00 ≤ m ∧ m ≤ 0xdfff then (stringBody? rest).map fun (s, r) =>
              (ofSurrogates n m :: s, r)
            else none
        | _ => none
  | '\\' :: c :: rest =>
    match escaped? c with
    | none => none
    | some e => (stringBody? rest).map fun (s, r) => (e :: s, r)
  | c :: rest =>
    if c.toNat < 0x20 ∨ c = '\\' then none else (stringBody? rest).map fun (s, r) => (c :: s, r)

def integral? : List Char → Option (List Char × List Char)
  | '0' :: rest => some (['0'], rest)
  | c :: rest =>
    if c.isDigit then some (c :: rest.takeWhile Char.isDigit, rest.dropWhile Char.isDigit) else none
  | [] => none

def fraction? : List Char → Option (List Char × List Char)
  | '.' :: rest =>
    let digits := rest.takeWhile Char.isDigit
    if digits.isEmpty then none else some (digits, rest.dropWhile Char.isDigit)
  | rest => some ([], rest)

def exponentDigits? (sign : Int) (cs : List Char) : Option (Option Int × List Char) :=
  let digits := cs.takeWhile Char.isDigit
  if digits.isEmpty then none
    else some (some (sign * digitsValue digits), cs.dropWhile Char.isDigit)

def exponent? : List Char → Option (Option Int × List Char)
  | c :: rest =>
    if c = 'e' ∨ c = 'E' then
      match rest with
      | '+' :: rest => exponentDigits? 1 rest
      | '-' :: rest => exponentDigits? (-1) rest
      | rest => exponentDigits? 1 rest
    else some (none, c :: rest)
  | [] => some (none, [])

def makeNumber? (negative : Bool) (whole fraction : List Char) (exponent : Option Int) :
    Option JsonNumber :=
  let n := digitsValue whole
  let signed : Int := if negative then -n else n
  let double? : Option JsonNumber :=
    let x := Double.ofScientific (digitsValue (whole ++ fraction))
      (exponent.getD 0 - fraction.length)
    let x := if negative then -x else x
    if h : x.isFinite = true then some (.double x h) else none
  if fraction.isEmpty ∧ exponent.isNone ∧ ¬(negative ∧ n = 0) then
    if h : -0x8000_0000_0000_0000 ≤ signed ∧ signed < 0x1_0000_0000_0000_0000
      then some (.integer signed h) else double?
  else double?

def number? (negative : Bool) (cs : List Char) : Option (JsonNumber × List Char) := do
  let (whole, cs) ← integral? cs
  let (fraction, cs) ← fraction? cs
  let (exponent, cs) ← exponent? cs
  return (← makeNumber? negative whole fraction exponent, cs)

def first? : List Char → Option (JsonToken × List Char)
  | ',' :: rest => some (comma, rest)
  | ':' :: rest => some (colon, rest)
  | '[' :: rest => some (openArray, rest)
  | ']' :: rest => some (closeArray, rest)
  | '\x7b' :: rest => some (openObject, rest)
  | '\x7d' :: rest => some (closeObject, rest)
  | 'n' :: 'u' :: 'l' :: 'l' :: rest => some (null, rest)
  | 't' :: 'r' :: 'u' :: 'e' :: rest => some (bool true, rest)
  | 'f' :: 'a' :: 'l' :: 's' :: 'e' :: rest => some (bool false, rest)
  | '"' :: rest => (stringBody? rest).map fun (s, r) => (string (String.ofList s), r)
  | '-' :: rest => (number? true rest).map fun (n, r) => (number n, r)
  | cs => (number? false cs).map fun (n, r) => (number n, r)

theorem length_lt_of_stringBody? {cs s r : List Char} (h : stringBody? cs = some (s, r)) :
    r.length < cs.length := by
  fun_induction stringBody? cs generalizing s r with
  | case1 => cases h
  | case2 rest =>
    cases h
    exact Nat.lt_succ_self _
  | case3 => cases h
  | case4 a b c d rest m hm hscalar ih =>
    obtain ⟨⟨t, u⟩, ht, he⟩ := Option.map_eq_some_iff.1 h
    cases he
    have := ih ht
    simp only [List.length_cons]
    omega
  | case5 => cases h
  | case6 => cases h
  | case7 a b c d m hm hscalar hhigh a' b' c' d' rest m' hm' hlow ih =>
    obtain ⟨⟨t, u⟩, ht, he⟩ := Option.map_eq_some_iff.1 h
    cases he
    have := ih ht
    simp only [List.length_cons]
    omega
  | case8 => cases h
  | case9 => cases h
  | case10 => cases h
  | case11 c rest hu e he ih =>
    obtain ⟨⟨t, u⟩, ht, he⟩ := Option.map_eq_some_iff.1 h
    cases he
    have := ih ht
    simp only [List.length_cons]
    omega
  | case12 => cases h
  | case13 c rest hquote hu hescape hplain ih =>
    obtain ⟨⟨t, u⟩, ht, he⟩ := Option.map_eq_some_iff.1 h
    cases he
    have := ih ht
    simp only [List.length_cons]
    omega

theorem length_lt_of_integral? {cs ds r : List Char} (h : integral? cs = some (ds, r)) :
    r.length < cs.length := by
  unfold integral? at h
  split at h
  · cases h
    exact Nat.lt_succ_self _
  · rename_i c rest _
    split at h
    · cases h
      exact Nat.lt_succ_of_le (List.dropWhile_sublist Char.isDigit).length_le
    · cases h
  · cases h

theorem length_le_of_fraction? {cs ds r : List Char} (h : fraction? cs = some (ds, r)) :
    r.length ≤ cs.length := by
  unfold fraction? at h
  split at h
  · dsimp only at h
    split at h
    · cases h
    · cases h
      exact Nat.le_succ_of_le (List.dropWhile_sublist Char.isDigit).length_le
  · cases h
    exact Nat.le_refl _

theorem length_le_of_exponentDigits? {sign : Int} {cs r : List Char} {e : Option Int}
    (h : exponentDigits? sign cs = some (e, r)) : r.length ≤ cs.length := by
  simp only [exponentDigits?] at h
  split at h
  · cases h
  · cases h
    exact (List.dropWhile_sublist Char.isDigit).length_le

theorem length_le_of_exponent? {cs r : List Char} {e : Option Int}
    (h : exponent? cs = some (e, r)) :
    r.length ≤ cs.length := by
  unfold exponent? at h
  split at h
  · split at h
    · split at h
      all_goals
        have := length_le_of_exponentDigits? h
        simp only [List.length_cons] at this ⊢
        omega
    · cases h
      exact Nat.le_refl _
  · cases h
    exact Nat.le_refl _

theorem length_lt_of_number? {negative : Bool} {cs r : List Char} {n : JsonNumber}
    (h : number? negative cs = some (n, r)) : r.length < cs.length := by
  simp only [number?, Option.bind_eq_bind, Option.bind_eq_some_iff,
    Option.pure_def, Option.some.injEq, Prod.mk.injEq] at h
  obtain ⟨⟨whole, cs₁⟩, hwhole, ⟨fraction, cs₂⟩, hfraction, ⟨exponent, cs₃⟩, hexponent, m, hm, rfl,
      rfl⟩ := h
  exact Nat.lt_of_le_of_lt (length_le_of_exponent? hexponent)
    (Nat.lt_of_le_of_lt (length_le_of_fraction? hfraction) (length_lt_of_integral? hwhole))

theorem length_lt_of_first? {cs r : List Char} {t : JsonToken} (h : first? cs = some (t, r)) :
    r.length < cs.length := by
  unfold first? at h
  split at h
  case h_10 =>
    obtain ⟨⟨s, u⟩, hs, he⟩ := Option.map_eq_some_iff.1 h
    cases he
    exact Nat.lt_succ_of_lt (length_lt_of_stringBody? hs)
  case h_11 =>
    obtain ⟨⟨s, u⟩, hs, he⟩ := Option.map_eq_some_iff.1 h
    cases he
    exact Nat.lt_succ_of_lt (length_lt_of_number? hs)
  case h_12 =>
    obtain ⟨⟨s, u⟩, hs, he⟩ := Option.map_eq_some_iff.1 h
    cases he
    exact length_lt_of_number? hs
  all_goals
    cases h
    simp only [List.length_cons]
    omega

def ofChars? (cs : List Char) : Option (List JsonToken) :=
  match hspace : cs.dropWhile isSpace with
  | [] => some []
  | c :: rest =>
    match hfirst : first? (c :: rest) with
    | none => none
    | some (t, left) =>
      have : left.length < cs.length :=
        Nat.lt_of_lt_of_le (length_lt_of_first? hfirst)
          (hspace ▸ (List.dropWhile_sublist isSpace).length_le)
      (ofChars? left).map (t :: ·)
termination_by cs.length

end JsonToken

namespace Json

open JsonToken

/-- Tokens that are left when some of `ts` have been read. -/
abbrev Left (ts : List JsonToken) := { r : List JsonToken // r.length < ts.length }

def Left.weaken {ts us : List JsonToken} (h : us.length ≤ ts.length) (r : Left us) : Left ts :=
  ⟨r.1, Nat.lt_of_lt_of_le r.2 h⟩

mutual

/-- A value that opens at most `depth` containers inside one another. -/
def value? (depth : Nat) (ts : List JsonToken) : Option (Json × Left ts) :=
  match ts with
  | .null :: rest => some (null, ⟨rest, by simp only [List.length_cons]; omega⟩)
  | .bool b :: rest => some (bool b, ⟨rest, by simp only [List.length_cons]; omega⟩)
  | .number n :: rest => some (number n, ⟨rest, by simp only [List.length_cons]; omega⟩)
  | .string s :: rest => some (string s, ⟨rest, by simp only [List.length_cons]; omega⟩)
  | .openArray :: rest =>
    match depth, rest with
    | 0, _ => none
    | _ + 1, .closeArray :: rest => some (array [], ⟨rest, by simp only [List.length_cons]; omega⟩)
    | depth + 1, rest =>
      match items? depth rest with
      | none => none
      | some (l, left) => some (array l, left.weaken (by simp only [List.length_cons]; omega))
  | .openObject :: rest =>
    match depth, rest with
    | 0, _ => none
    | _ + 1, .closeObject :: rest =>
      some (object .nil, ⟨rest, by simp only [List.length_cons]; omega⟩)
    | depth + 1, rest =>
      match members? depth Keyed.empty rest with
      | none => none
      | some (m, left) => some (object m, left.weaken (by simp only [List.length_cons]; omega))
  | _ => none
termination_by (ts.length, 0)

def items? (depth : Nat) (ts : List JsonToken) : Option (List Json × Left ts) :=
  match value? depth ts with
  | none => none
  | some (j, ⟨.closeArray :: rest, h⟩) =>
    some ([j], ⟨rest, by simp only [List.length_cons] at h; omega⟩)
  | some (j, ⟨.comma :: rest, h⟩) =>
    match items? depth rest with
    | none => none
    | some (l, left) => some (j :: l, left.weaken (by simp only [List.length_cons] at h; omega))
  | some _ => none
termination_by (ts.length, 1)
decreasing_by
  · exact Prod.Lex.right _ (by decide)
  · exact Prod.Lex.left _ _ (by simp only [List.length_cons] at h; omega)

def members? (depth : Nat) (seen : Keyed Json) (ts : List JsonToken) :
    Option (Keyed Json × Left ts) :=
  match ts with
  | .string k :: .colon :: rest =>
    match value? depth rest with
    | none => none
    | some (j, ⟨.closeObject :: left, h⟩) =>
      some (Keyed.insert seen k j, ⟨left, by simp only [List.length_cons] at h ⊢; omega⟩)
    | some (j, ⟨.comma :: left, h⟩) =>
      match members? depth (Keyed.insert seen k j) left with
      | none => none
      | some (m, left) => some (m, left.weaken (by simp only [List.length_cons] at h ⊢; omega))
    | some _ => none
  | _ => none
termination_by (ts.length, 1)
decreasing_by
  · exact Prod.Lex.left _ _ (by simp only [List.length_cons]; omega)
  · exact Prod.Lex.left _ _ (by simp only [List.length_cons] at h ⊢; omega)

end

def parse? (text : String) : Option Json := do
  let (j, left) ← value? 127 (← JsonToken.ofChars? text.toList)
  if left.1.isEmpty then some j else none

end Json

end Rollup
