import Rollup.Proofs.Token.Reads

namespace Rollup

def Occurs (text : String) (cs : List Char) (n : Nat) : Prop :=
  ∃ before after, text.toList = before ++ (cs ++ after) ∧ before.length = n

theorem Occurs.getElem? {text : String} {cs : List Char} {n i : Nat} (h : Occurs text cs n)
    (hi : i < cs.length) :
    text.toList[n + i]? = cs[i]? := by
  obtain ⟨before, after, htext, rfl⟩ := h
  rw [htext, List.getElem?_append_right (Nat.le_add_right _ _), Nat.add_sub_cancel_left,
    List.getElem?_append_left hi]

theorem occurs_singleton {text : String} {c : Char} {n : Nat} :
    Occurs text [c] n ↔ text.toList[n]? = some c := by
  constructor
  · exact fun h => h.getElem? Nat.one_pos
  · intro h
    obtain ⟨hn, rfl⟩ := List.getElem?_eq_some_iff.1 h
    exact ⟨text.toList.take n, text.toList.drop (n + 1), by simp, List.length_take_of_le hn.le⟩

namespace Cursor

/-- What is left to read stands at the end of a text, behind the offset. -/
def Within (text : String) (c : Cursor) : Prop :=
  ∃ before, text.toList = before ++ c.rest ∧ before.length = c.offset

theorem within_start (text : String) : (start text).Within text := ⟨[], rfl, rfl⟩

variable {text : String} {c d : Cursor}

theorem Within.append {n : Nat} {cs rest : List Char} (h : Within text ⟨n, cs ++ rest⟩) :
    Occurs text cs n ∧ Within text ⟨n + cs.length, rest⟩ := by
  obtain ⟨before, htext, rfl⟩ := h
  refine ⟨⟨before, rest, htext, rfl⟩, before ++ cs, ?_, List.length_append⟩
  rw [htext, List.append_assoc]

theorem Within.getElem? (h : c.Within text) (i : Nat) :
    text.toList[c.offset + i]? = c.rest[i]? := by
  obtain ⟨before, htext, hlength⟩ := h
  rw [htext, ← hlength, List.getElem?_append_right (Nat.le_add_right _ _), Nat.add_sub_cancel_left]

theorem Within.offset_add_length (h : c.Within text) : c.offset + c.rest.length = text.length := by
  obtain ⟨before, htext, hlength⟩ := h
  rw [← String.length_toList, htext, List.length_append, hlength]

theorem Within.exists_gap {n p : Nat} {cs run : List Char} (h : Within text ⟨n, cs⟩)
    (hrun : Occurs text run p)
    (hle : n ≤ p) : ∃ gap after, cs = gap ++ (run ++ after) ∧ n + gap.length = p := by
  obtain ⟨front, htext, rfl⟩ := h
  obtain ⟨before, after, hslice, rfl⟩ := hrun
  rw [hslice] at htext
  obtain ⟨gap, rfl, htail⟩ | ⟨gap, rfl, htail⟩ := List.append_eq_append_iff.1 htext
  · obtain rfl : gap = [] := by simpa using hle
    exact ⟨[], after, htail.symm, by simp⟩
  · exact ⟨gap, after, htail, List.length_append.symm⟩

theorem Within.of_next {t : Token} (h : c.Within text) (hnext : next c = .ok (some t) d) :
    Occurs text t.text.toList t.position ∧ d.Within text := by
  obtain ⟨n, cs⟩ := c
  cases finds_of_next hnext with
  | token hrest _ _ _ =>
    subst hrest
    simp only [String.toList_ofList]
    exact h.append.2.append

theorem Within.of_end (h : c.Within text) (hnext : next c = .ok none d) :
    d.offset = text.length := by
  cases finds_of_next hnext with
  | ended => exact h.offset_add_length

theorem Within.of_error {e : LexError} (h : c.Within text) (hnext : next c = .error e d) :
    ∃ ch n, e = .unexpectedCharacter ch n ∧ Occurs text [ch] n := by
  obtain ⟨n, cs⟩ := c
  cases finds_of_next hnext with
  | @foreign gap ch after hrest _ _ =>
    subst hrest
    have hchar : Within text ⟨n + gap.length, [ch] ++ after⟩ := h.append.2
    exact ⟨ch, _, rfl, hchar.append.1⟩

theorem Within.of_reads {ts : List Token} (h : c.Within text) (hreads : Reads c ts d) :
    (∀ t ∈ ts, Occurs text t.text.toList t.position) ∧ d.Within text := by
  induction hreads with
  | nil => exact ⟨nofun, h⟩
  | cons hnext _ ih =>
    obtain ⟨ht, hd⟩ := h.of_next hnext
    obtain ⟨hts, he⟩ := ih hd
    exact ⟨List.forall_mem_cons.2 ⟨ht, hts⟩, he⟩

end Cursor

end Rollup
