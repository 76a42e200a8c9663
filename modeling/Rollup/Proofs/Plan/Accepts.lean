import Rollup.Plan.Parser
import Rollup.Proofs.Plan.Grammar
import Rollup.Proofs.Token.Reads

namespace Rollup

namespace Parse

open TokenKind

abbrev Language (α : Type) := List Lexeme → α → Prop

/-- A step succeeds exactly where the lexemes of a language stand, and it reads them all. -/
def Accepts (s : Parse α) (L : Language α) : Prop :=
  ∀ c a d, s c = .ok a d ↔ ∃ ts, c.Reads ts d ∧ L (ts.map Token.toLexeme) a

theorem spelled_of_reads {c d : Cursor} {ts : List Token} (h : c.Reads ts d) :
    ∀ l ∈ ts.map Token.toLexeme, l.Spelled := by
  intro l hl
  obtain ⟨t, ht, rfl⟩ := List.mem_map.1 hl
  exact h.spells t ht

theorem Accepts.congr {s : Parse α} {L M : Language α} (hs : Accepts s L)
    (h : ∀ ls a, (∀ l ∈ ls, l.Spelled) → (L ls a ↔ M ls a)) : Accepts s M := by
  intro c a d
  rw [hs]
  exact exists_congr fun ts => and_congr_right fun hts => h _ _ (spelled_of_reads hts)

theorem bind_eq_ok {s : Parse α} {f : α → Parse β} {c e : Cursor} {b : β} :
    (s >>= f) c = .ok b e ↔ ∃ a d, s c = .ok a d ∧ f a d = .ok b e := by
  change EStateM.bind s f c = _ ↔ _
  unfold EStateM.bind
  cases s c with
  | ok a d => exact ⟨fun h => ⟨a, d, rfl, h⟩, fun ⟨_, _, h, h'⟩ => by cases h; exact h'⟩
  | error _ _ => simp

theorem bind_of_ok {s : Parse α} {c d : Cursor} {a : α} (f : α → Parse β) (h : s c = .ok a d) :
    (s >>= f) c = f a d := by
  change EStateM.bind s f c = f a d
  simp only [EStateM.bind, h]

theorem bind_of_error {s : Parse α} {c d : Cursor} {e : ParseError} (f : α → Parse β)
    (h : s c = .error e d) :
    (s >>= f) c = .error e d := by
  change EStateM.bind s f c = _
  simp only [EStateM.bind, h]

theorem bind_congr_left {s t : Parse α} {c d : Cursor} (f : α → Parse β) (h : s c = t d) :
    (s >>= f) c = (t >>= f) d := by
  change EStateM.bind s f c = EStateM.bind t f d
  simp only [EStateM.bind, h]

theorem accepts_pure (a : α) : Accepts (pure a) fun ls b => ls = [] ∧ b = a := by
  intro c b d
  constructor
  · rintro ⟨⟩
    exact ⟨[], .nil, rfl, rfl⟩
  · rintro ⟨ts, hts, hnil, rfl⟩
    rw [List.map_eq_nil_iff.1 hnil] at hts
    cases hts
    rfl

theorem accepts_throw (e : ParseError) : Accepts (throw e) fun _ (_ : α) => False := by
  intro c a d
  constructor
  · intro h
    cases h
  · rintro ⟨_, _, ⟨⟩⟩

theorem accepts_ite {p q : Prop} [Decidable p] (h : p ↔ q) (a : α) (e : ParseError) :
    Accepts (if p then pure a else throw e) fun ls b => ls = [] ∧ q ∧ b = a := by
  by_cases hp : p
  · simp only [hp, ← h, if_true]
    exact (accepts_pure a).congr fun ls b _ => by simp
  · simp only [hp, ← h, if_false]
    exact (accepts_throw e).congr fun ls b _ => by simp

theorem Accepts.bind {s : Parse α} {f : α → Parse β} {L : Language α} {M : α → Language β}
    (hs : Accepts s L) (hf : ∀ a, Accepts (f a) (M a)) :
    Accepts (s >>= f) fun ls b => ∃ ks ms a, ls = ks ++ ms ∧ L ks a ∧ M a ms b := by
  intro c b e
  rw [bind_eq_ok]
  constructor
  · rintro ⟨a, d, ha, hb⟩
    obtain ⟨ss, hss, hL⟩ := (hs c a d).1 ha
    obtain ⟨ts, hts, hM⟩ := (hf a d b e).1 hb
    exact ⟨ss ++ ts, Cursor.reads_append.2 ⟨d, hss, hts⟩, _, _, a, List.map_append, hL, hM⟩
  · rintro ⟨ts, hts, ks, ms, a, hsplit, hL, hM⟩
    obtain ⟨ss, us, rfl, rfl, rfl⟩ := List.map_eq_append_iff.1 hsplit
    obtain ⟨d, hss, hus⟩ := Cursor.reads_append.1 hts
    exact ⟨a, d, (hs c a d).2 ⟨ss, hss, hL⟩, (hf a d b e).2 ⟨us, hus, hM⟩⟩

theorem Accepts.map {s : Parse α} {L : Language α} (hs : Accepts s L) (f : α → β) :
    Accepts (f <$> s) fun ls b => ∃ a, L ls a ∧ b = f a := by
  rw [← bind_pure_comp]
  refine (hs.bind fun a => accepts_pure (f a)).congr fun ls b _ => ?_
  constructor
  · rintro ⟨ks, _, a, rfl, ha, rfl, rfl⟩
    exact ⟨a, by simpa using ha, rfl⟩
  · rintro ⟨a, ha, rfl⟩
    exact ⟨ls, [], a, by simp, ha, rfl, rfl⟩

theorem ofScan_eq_ok {s : Scan α} {c d : Cursor} {a : α} :
    ofScan s c = .ok a d ↔ s c = .ok a d := by
  unfold ofScan
  cases s c <;> simp

theorem ofScan_of_error {s : Scan α} {c d : Cursor} {e : LexError} (h : s c = .error e d) :
    ofScan s c = .error (.lex e) d := by
  simp only [ofScan, h]

theorem accepts_required {f : Token → Parse α} {M : Lexeme → Language α}
    (h : ∀ t, Accepts (f t) (M t.toLexeme)) (k : TokenKind) :
    Accepts (required k >>= f) fun ls a => ∃ l rest, ls = l :: rest ∧ M l rest a := by
  intro c a e
  simp only [bind_eq_ok, required, ofScan_eq_ok, Cursor.required_eq_ok]
  constructor
  · rintro ⟨t, d, hnext, ht⟩
    obtain ⟨ts, hts, hM⟩ := (h t d a e).1 ht
    exact ⟨t :: ts, .cons hnext hts, _, _, rfl, hM⟩
  · rintro ⟨ts, hts, l, rest, hsplit, hM⟩
    obtain ⟨t, ts, rfl, rfl, rfl⟩ := List.map_eq_cons_iff.1 hsplit
    obtain _ | ⟨hnext, hts⟩ := hts
    exact ⟨t, _, hnext, (h t _ a e).2 ⟨ts, hts, hM⟩⟩

theorem accepts_expect {k : TokenKind} {f : Token → Parse α} {M : String → Language α}
    (h : ∀ t, Accepts (f t) (M t.text)) :
    Accepts (expect k >>= f) fun ls a => ∃ s rest, ls = ⟨k, s⟩ :: rest ∧ M s rest a := by
  intro c a e
  simp only [bind_eq_ok, expect, ofScan_eq_ok, Cursor.expect_eq_ok]
  constructor
  · rintro ⟨t, d, ⟨hnext, rfl⟩, ht⟩
    obtain ⟨ts, hts, hM⟩ := (h t d a e).1 ht
    exact ⟨t :: ts, .cons hnext hts, _, _, rfl, hM⟩
  · rintro ⟨ts, hts, s, rest, hsplit, hM⟩
    obtain ⟨t, ts, rfl, ht, rfl⟩ := List.map_eq_cons_iff.1 hsplit
    obtain _ | ⟨hnext, hts⟩ := hts
    obtain ⟨rfl, rfl⟩ := Lexeme.mk.injEq .. ▸ ht
    exact ⟨t, _, ⟨hnext, rfl⟩, (h t _ a e).2 ⟨ts, hts, hM⟩⟩

theorem accepts_mark (l : Lexeme) {s : Parse α} {M : Language α} (hs : Accepts s M)
    (hl : ∀ cs, l.kind.Spells cs → String.ofList cs = l.text := by rintro _ ⟨⟩; rfl) :
    Accepts (expect l.kind >>= fun _ => s) fun ls a => ∃ rest, ls = l :: rest ∧ M rest a := by
  refine (accepts_expect (M := fun _ => M) fun _ => hs).congr fun ls a hls => ?_
  constructor
  · rintro ⟨s, rest, rfl, hM⟩
    exact ⟨rest, by rw [(hls _ List.mem_cons_self).eq_mark (m := l) rfl hl], hM⟩
  · rintro ⟨rest, rfl, hM⟩
    exact ⟨l.text, rest, rfl, hM⟩

end Parse

end Rollup
