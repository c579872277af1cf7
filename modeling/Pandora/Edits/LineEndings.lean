import Pandora.Edits.Replace

/-! # Line endings

Reading line endings as line feeds commutes with a concatenation that does not part a carriage
return from its line feed (`toLf_append_cases`), and every split of the text so read comes from one
of the text itself (`toLf_split`). -/

namespace Pandora.Edits

open List

variable {x y text a b : List Char} {c d : Char}

theorem toLf_crlf (text : List Char) : toLf ('\r' :: '\n' :: text) = '\n' :: toLf text := by
  conv_lhs => unfold toLf
  rw [if_pos ⟨rfl, rfl⟩]

theorem toLf_other (h : ¬ (c = '\r' ∧ d = '\n')) (text : List Char) :
    toLf (c :: d :: text) = c :: toLf (d :: text) := by
  conv_lhs => unfold toLf
  rw [if_neg h]

theorem toLf_singleton (c : Char) : toLf [c] = [c] := rfl

/-- A carriage return before its line feed is the only thing that is left out. -/
theorem toLf_append_cases : ∀ x y : List Char, toLf (x ++ y) = toLf x ++ toLf y ∨
    (toLf (x ++ y)).length + 1 = (toLf x).length + (toLf y).length
  | [], y => Or.inl rfl
  | [c], [] => Or.inl rfl
  | [c], d :: y => by
    by_cases hc : c = '\r' ∧ d = '\n'
    · obtain ⟨rfl, rfl⟩ := hc
      right
      have hy : (toLf ('\n' :: y)).length = (toLf y).length + 1 := by
        cases y with
        | nil => rfl
        | cons e y => rw [toLf_other (by simp), length_cons]
      rw [singleton_append, toLf_crlf, hy, length_cons, toLf_singleton,
        length_singleton]
      omega
    · left
      rw [singleton_append, toLf_other hc, toLf_singleton, singleton_append]
  | c :: d :: x, y => by
    by_cases hc : c = '\r' ∧ d = '\n'
    · obtain ⟨rfl, rfl⟩ := hc
      rw [cons_append, cons_append, toLf_crlf, toLf_crlf, cons_append,
        length_cons, length_cons]
      rcases toLf_append_cases x y with hsame | hless
      · exact Or.inl (by rw [hsame])
      · exact Or.inr (by omega)
    · rw [cons_append, cons_append, toLf_other hc, toLf_other hc, ← cons_append,
        length_cons, length_cons]
      rcases toLf_append_cases (d :: x) y with hsame | hless
      · exact Or.inl (by rw [hsame, cons_append])
      · exact Or.inr (by omega)

theorem length_toLf_append_le (x y : List Char) :
    (toLf (x ++ y)).length ≤ (toLf x).length + (toLf y).length := by
  rcases toLf_append_cases x y with hsame | hless
  · rw [hsame, length_append]
  · omega

theorem toLf_ne_nil : ∀ {x : List Char}, x ≠ [] → toLf x ≠ []
  | [], h => absurd rfl h
  | [c], _ => cons_ne_nil c []
  | c :: d :: x, _ => by
    by_cases hc : c = '\r' ∧ d = '\n'
    · obtain ⟨rfl, rfl⟩ := hc
      rw [toLf_crlf]
      exact cons_ne_nil _ _
    · rw [toLf_other hc]
      exact cons_ne_nil _ _

theorem length_toLf_le_append (x y : List Char) : (toLf x).length ≤ (toLf (x ++ y)).length := by
  by_cases hy : y = []
  · rw [hy, append_nil]
  · have hpos := length_pos_iff.mpr (toLf_ne_nil hy)
    rcases toLf_append_cases x y with hsame | hless
    · rw [hsame, length_append]
      omega
    · omega

theorem toLf_split : ∀ {text a b : List Char}, toLf text = a ++ b →
    ∃ x y, text = x ++ y ∧ toLf x = a ∧ toLf y = b
  | text, [], b, h => ⟨[], text, rfl, rfl, h⟩
  | [], a :: as, b, h => by cases h
  | [c], a :: as, b, h => by
    rw [toLf_singleton, cons_append, List.cons.injEq] at h
    obtain ⟨rfl, hrest⟩ := h
    obtain ⟨rfl, rfl⟩ := append_eq_nil_iff.mp hrest.symm
    exact ⟨[c], [], rfl, rfl, rfl⟩
  | c :: d :: text, a :: as, b, h => by
    by_cases hc : c = '\r' ∧ d = '\n'
    · obtain ⟨rfl, rfl⟩ := hc
      rw [toLf_crlf, cons_append, List.cons.injEq] at h
      obtain ⟨rfl, hrest⟩ := h
      obtain ⟨x, y, rfl, rfl, rfl⟩ := toLf_split hrest
      exact ⟨'\r' :: '\n' :: x, y, rfl, toLf_crlf x, rfl⟩
    · rw [toLf_other hc, cons_append, List.cons.injEq] at h
      obtain ⟨rfl, hrest⟩ := h
      obtain ⟨x, y, hsplit, hx, rfl⟩ := toLf_split hrest
      refine ⟨c :: x, y, by rw [hsplit, cons_append], ?_, rfl⟩
      rw [← hx]
      cases x with
      | nil => rfl
      | cons e x =>
        have he : d = e := (List.cons.inj hsplit).1
        exact toLf_other (he ▸ hc) x

/-! ## Line feeds and carriage returns -/

theorem toCrlf_append (x y : List Char) : toCrlf (x ++ y) = toCrlf x ++ toCrlf y :=
  flatMap_append

/-- Every line feed of the text has its carriage return. -/
def LinesCrlf (text : List Char) : Prop := toCrlf (toLf text) = text

theorem length_toCrlf_cons (c : Char) (text : List Char) :
    (toCrlf (c :: text)).length = (if c = '\n' then 2 else 1) + (toCrlf text).length := by
  unfold toCrlf
  rw [flatMap_cons, length_append]
  split_ifs <;> rfl

/-- Putting the line endings down again makes a text no shorter, and keeps it if it keeps the
length. -/
theorem length_toCrlf_toLf : ∀ text : List Char, text.length ≤ (toCrlf (toLf text)).length ∧
    ((toCrlf (toLf text)).length = text.length → LinesCrlf text)
  | [] => ⟨le_refl _, fun _ => rfl⟩
  | [c] => by
    unfold LinesCrlf
    rw [toLf_singleton, length_toCrlf_cons, length_singleton]
    by_cases hc : c = '\n'
    · rw [if_pos hc]
      exact ⟨by omega, fun h => by omega⟩
    · rw [if_neg hc]
      refine ⟨by omega, fun _ => ?_⟩
      simp [toCrlf, hc]
  | c :: d :: text => by
    by_cases hc : c = '\r' ∧ d = '\n'
    · obtain ⟨rfl, rfl⟩ := hc
      obtain ⟨hle, hsame⟩ := length_toCrlf_toLf text
      unfold LinesCrlf at hsame ⊢
      rw [toLf_crlf, length_toCrlf_cons, if_pos rfl, length_cons, length_cons]
      refine ⟨by omega, fun h => ?_⟩
      have htext := hsame (by omega)
      unfold toCrlf at htext ⊢
      rw [flatMap_cons, if_pos rfl, htext]
      rfl
    · obtain ⟨hle, hsame⟩ := length_toCrlf_toLf (d :: text)
      unfold LinesCrlf at hsame ⊢
      rw [toLf_other hc, length_toCrlf_cons, length_cons (a := c)]
      by_cases hfeed : c = '\n'
      · rw [if_pos hfeed]
        exact ⟨by omega, fun h => by omega⟩
      · rw [if_neg hfeed]
        refine ⟨by omega, fun h => ?_⟩
        have htext := hsame (by omega)
        unfold toCrlf at htext ⊢
        rw [flatMap_cons, if_neg hfeed, htext, singleton_append]

theorem length_le_toCrlf (text : List Char) : text.length ≤ (toCrlf text).length := by
  induction text with
  | nil => exact le_refl _
  | cons c text ih =>
    rw [length_toCrlf_cons, length_cons]
    split_ifs <;> omega

/-- A text without carriage returns before line feeds is read as it is. -/
theorem toLf_of_no_crlf : ∀ {text : List Char}, ¬ crlf <:+: text → toLf text = text
  | [], _ => rfl
  | [c], _ => rfl
  | c :: d :: text, h => by
    have hc : ¬ (c = '\r' ∧ d = '\n') := by
      rintro ⟨rfl, rfl⟩
      exact h ⟨[], text, rfl⟩
    have hrest : ¬ crlf <:+: d :: text := fun hlater => h (infix_cons hlater)
    rw [toLf_other hc, toLf_of_no_crlf hrest]

end Pandora.Edits
