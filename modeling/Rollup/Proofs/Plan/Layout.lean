import Rollup.Proofs.Plan.Follows
import Rollup.Proofs.Token.Place
import Rollup.Proofs.Token.Rendering

namespace Rollup

open Slot

inductive SameStop : Option LexError → Option LexError → Prop
  | ended : SameStop none none
  | character : SameStop (some (.unexpectedCharacter ch n)) (some (.unexpectedCharacter ch m))

/-- Two places behind which there are the same lexemes and the same stop. -/
structure SameScan (c c' : Cursor) : Prop where
  lexemes : c.tokens.1.map Token.toLexeme = c'.tokens.1.map Token.toLexeme
  stop : SameStop c.tokens.2 c'.tokens.2

namespace SameScan

variable {c c' : Cursor}

theorem of_reads (h : SameScan c c') {d : Cursor} {ts : List Token} (hreads : c.Reads ts d) :
    ∃ ts' d', c'.Reads ts' d' ∧ ts.map Token.toLexeme = ts'.map Token.toLexeme ∧ SameScan d d' := by
  obtain ⟨hlexemes, hstop⟩ := h
  rw [hreads.tokens_eq] at hlexemes hstop
  rw [List.map_append] at hlexemes
  obtain ⟨ts', us', hsplit, hts, hus⟩ := List.map_eq_append_iff.1 hlexemes.symm
  obtain ⟨d', hreads', hd'⟩ := Cursor.exists_reads hsplit
  refine ⟨ts', d', hreads', hts.symm, ?_, ?_⟩
  · rw [hd', hus]
  · rw [hd']
    exact hstop

theorem of_next (h : SameScan c c') {d : Cursor} {t : Token} (hnext : c.next = .ok (some t) d) :
    ∃ t' d', c'.next = .ok (some t') d' ∧ t.toLexeme = t'.toLexeme := by
  obtain ⟨ts', d', hreads', hts, _⟩ := h.of_reads (Cursor.reads_singleton.2 hnext)
  obtain ⟨t', rfl, ht⟩ := List.map_eq_singleton_iff.1 hts.symm
  exact ⟨t', d', Cursor.reads_singleton.1 hreads', ht.symm⟩

theorem tokens_eq_nil (h : SameScan c c') (hnil : c.tokens.1 = []) : c'.tokens.1 = [] := by
  have hlexemes := h.lexemes
  rw [hnil] at hlexemes
  exact List.map_eq_nil_iff.1 hlexemes.symm

theorem of_end (h : SameScan c c') {d : Cursor} (hnext : c.next = .ok none d) :
    ∃ d', c'.next = .ok none d' := by
  have htokens := Cursor.tokens_of_end hnext
  have hstop := h.stop
  rw [htokens] at hstop
  apply Cursor.exists_end
  refine Prod.ext (h.tokens_eq_nil (by rw [htokens])) ?_
  generalize c'.tokens.2 = stop at hstop
  cases hstop
  rfl

theorem of_error (h : SameScan c c') {d : Cursor} {e : LexError} (hnext : c.next = .error e d) :
    ∃ ch n m d', e = .unexpectedCharacter ch n ∧
      c'.next = .error (.unexpectedCharacter ch m) d' := by
  have htokens := Cursor.tokens_of_error hnext
  have hstop := h.stop
  rw [htokens] at hstop
  cases hscan : c'.tokens with
  | mk us stop =>
    rw [hscan] at hstop
    obtain rfl : us = [] := by simpa [hscan] using h.tokens_eq_nil (by rw [htokens])
    cases hstop with
    | @character ch n m =>
      obtain ⟨d', hnext'⟩ := Cursor.exists_error hscan
      exact ⟨ch, n, m, d', rfl, hnext'⟩

end SameScan

theorem sameScan_render {ps qs : List Piece} {last last' : List Char}
    (h : ps.map Piece.lexeme = qs.map Piece.lexeme)
    (hps : ∀ p ∈ ps, p.WellFormed) (hqs : ∀ q ∈ qs, q.WellFormed) (hchain : ps.IsChain Piece.Before)
    (hchain' : qs.IsChain Piece.Before) (hlast : ∀ c ∈ last, isLayout c = true)
    (hlast' : ∀ c ∈ last', isLayout c = true) (n m : Nat) :
    SameScan ⟨n, render ps ++ last⟩ ⟨m, render qs ++ last'⟩ := by
  have htokens := Cursor.tokens_render hps hchain hlast n
  have htokens' := Cursor.tokens_render hqs hchain' hlast' m
  constructor
  · rw [htokens, htokens', toLexeme_place, toLexeme_place, h]
  · rw [htokens, htokens']
    exact .ended

/-- The same plan, or the same complaint about what has the same index in its own text. -/
inductive SameAnswer (text text' : String) : Except ParseError Plan → Except ParseError Plan → Prop
  | plan : SameAnswer text text' (.ok p) (.ok p)
  | token {i : Nat} : (Cursor.start text).tokens.1[i]? = some t →
      (Cursor.start text').tokens.1[i]? = some t' → t.toLexeme = t'.toLexeme →
      SameAnswer text text' (.error (Complaint.about complaint t))
      (.error (Complaint.about complaint t'))
  | character : (Cursor.start text).tokens.2 = some (.unexpectedCharacter ch n) →
      (Cursor.start text').tokens.2 = some (.unexpectedCharacter ch m) →
      SameAnswer text text' (.error (.lex (.unexpectedCharacter ch n)))
      (.error (.lex (.unexpectedCharacter ch m)))
  | ended : (Cursor.start text).tokens.2 = none → (Cursor.start text').tokens.2 = none →
      SameAnswer text text' (.error (.lex (.unexpectedEnd k text.length)))
        (.error (.lex (.unexpectedEnd k text'.length)))

namespace Plan

theorem parse_eq_ok_of_sameScan {text text' : String} {p : Plan}
    (h : SameScan (Cursor.start text) (Cursor.start text')) (hp : parse text = .ok p) :
    parse text' = .ok p := by
  obtain ⟨ts, htokens, hformula⟩ := exists_tokens_of_parse hp
  obtain ⟨d, e, hreads, hnext⟩ := Cursor.tokens_eq_iff.1 htokens
  obtain ⟨ts', d', hreads', hts, hscan⟩ := h.of_reads hreads
  obtain ⟨e', hnext'⟩ := hscan.of_end hnext
  exact parse_of_tokens (Cursor.tokens_eq_iff.2 ⟨d', e', hreads', hnext'⟩) (hts ▸ hformula)

theorem sameAnswer_of_halts {text text' : String} {ts ts' : List Token}
    {d d' f : Cursor} {τ : List Slot} {e : ParseError} (hreads : (Cursor.start text).Reads ts d)
    (hreads' : (Cursor.start text').Reads ts' d')
    (hlength : ts.length = ts'.length) (hscan : SameScan d d') (hhalts : Halts τ d (.error e f)) :
    ∃ e' f', Halts τ d' (.error e' f') ∧ SameAnswer text text' (.error e) (.error e') := by
  have htokens := hreads.tokens_eq
  have htokens' := hreads'.tokens_eq
  cases hhalts with
  | cutOff hnext =>
    obtain ⟨f', hnext'⟩ := hscan.of_end hnext
    refine ⟨_, f', .cutOff hnext', ?_⟩
    rw [((Cursor.within_start text).of_reads hreads).2.of_end hnext,
      ((Cursor.within_start text').of_reads hreads').2.of_end hnext']
    exact .ended (by rw [htokens, Cursor.tokens_of_end hnext])
      (by rw [htokens', Cursor.tokens_of_end hnext'])
  | refused hnext hstep =>
    obtain ⟨t', f', hnext', ht⟩ := hscan.of_next hnext
    refine ⟨_, f', .refused hnext' (ht ▸ hstep), .token (i := ts.length) ?_ ?_ ht⟩
    · rw [htokens, Cursor.tokens_of_next hnext]
      simp
    · rw [htokens', Cursor.tokens_of_next hnext', hlength]
      simp
  | illegal hnext =>
    obtain ⟨ch, n, m, f', rfl, hnext'⟩ := hscan.of_error hnext
    refine ⟨_, f', .illegal hnext', ?_⟩
    exact .character (by rw [htokens, Cursor.tokens_of_error hnext])
      (by rw [htokens', Cursor.tokens_of_error hnext'])

/-- Texts whose scans agree are the same formula, or are refused for the same reason at the same
lexeme. -/
theorem parse_of_sameScan (text text' : String)
    (h : SameScan (Cursor.start text) (Cursor.start text')) :
    SameAnswer text text' (parse text) (parse text') := by
  cases hparse : parse text with
  | ok p =>
    rw [parse_eq_ok_of_sameScan h hparse]
    exact .plan
  | error e =>
    obtain ⟨f, hjudge⟩ := parse_eq_error.1 hparse
    obtain ⟨ts, d, τ, hreads, hτ, hhalts⟩ := exists_halts [.function .builtin] (Cursor.start text)
    obtain ⟨ts', d', hreads', hts, hscan⟩ := h.of_reads hreads
    have hlength : ts.length = ts'.length := by simpa using congrArg List.length hts
    rw [hjudge] at hhalts
    obtain ⟨e', f', hhalts', hanswer⟩ := sameAnswer_of_halts hreads hreads' hlength hscan hhalts
    have hjudge' := (judge_of_reads hreads' (hts ▸ hτ)).trans (judge_of_halts hhalts')
    rw [parse_eq_error.2 ⟨f', hjudge'⟩]
    exact hanswer

theorem parse_of_sameScan_unit :
    let text := "sum(5fortnight)"
    let text' := " sum ( 5 fortnight )"
    SameScan (Cursor.start text) (Cursor.start text') ∧
      SameAnswer text text' (parse text) (parse text') ∧
      parse text = .error (.unknownTimeUnit "fortnight" 5) ∧
      parse text' = .error (.unknownTimeUnit "fortnight" 9) := by
  intro text text'
  have hscan : SameScan (Cursor.start text) (Cursor.start text') := by
    let ls := [Lexeme.name "sum", .leftBracket, .integer "5", .name "fortnight", .rightBracket]
    have hspelled : ∀ l ∈ ls, l.Spelled := by
      simp only [ls, List.forall_mem_cons]
      exact ⟨.name (by decide) (List.all_eq_true.1 (by decide)), .leftBracket,
        .integer (by decide) (List.all_eq_true.1 (by decide)),
        .name (by decide) (List.all_eq_true.1 (by decide)), .rightBracket, nofun⟩
    have hnil : ∀ c ∈ ([] : List Char), isLayout c = true := nofun
    have hapart : ls.IsChain Lexeme.Apart := by
      simp [ls, Lexeme.Apart, TokenKind.IsRun, Lexeme.name, Lexeme.integer, Lexeme.leftBracket,
        Lexeme.rightBracket]
    have htext : Cursor.start text = ⟨0, render (spaced [] ls) ++ []⟩ := by decide
    have htext' : Cursor.start text' = ⟨0, render (blanked ls) ++ []⟩ := by decide
    rw [htext, htext']
    exact sameScan_render ((map_lexeme_spaced [] ls).trans (map_lexeme_blanked ls).symm)
      (wellFormed_spaced hnil hspelled) (wellFormed_blanked hspelled) (isChain_spaced hapart)
        (isChain_blanked ls)
      hnil hnil 0 0
  exact ⟨hscan, parse_of_sameScan text text' hscan, by decide +kernel, by decide +kernel⟩

end Plan

end Rollup
