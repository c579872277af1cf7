import Mathlib

/-! # Separators that may occur in the words

A word is ended by a separator. If it has no separator inside, the text tells where it ends; if it
has some, their number does (`counted_inj`). So a text that joins such words determines them as far
as the numbers of separators in them are known (`flatMap_inj_of_counts`). -/

namespace Pandora.Lib.Separators

open List

variable {α β γ : Type}

theorem counted_inj [DecidableEq β] {sep : β} : ∀ {a b s t : List β}, a.count sep = b.count sep →
    a ++ sep :: s = b ++ sep :: t → a = b ∧ s = t
  | [], [], s, t, _, h => ⟨rfl, (List.cons.inj h).2⟩
  | [], y :: b, s, t, hcount, h => by
    obtain ⟨rfl, -⟩ := List.cons.inj h
    rw [count_nil, count_cons_self] at hcount
    omega
  | x :: a, [], s, t, hcount, h => by
    obtain ⟨rfl, -⟩ := List.cons.inj h
    rw [count_nil, count_cons_self] at hcount
    omega
  | x :: a, y :: b, s, t, hcount, h => by
    obtain ⟨rfl, hrest⟩ := List.cons.inj h
    rw [count_cons, count_cons, Nat.add_right_cancel_iff] at hcount
    obtain ⟨rfl, hst⟩ := counted_inj hcount hrest
    exact ⟨rfl, hst⟩

/-- A separator that does not overlap itself and stands at the front stands in the word. -/
theorem front_mem_word {c y : β} {rest b s t : List β} (hrest : c ∉ rest)
    (h : c :: rest ++ s = y :: b ++ c :: rest ++ t) : c :: rest <:+: y :: b := by
  rw [cons_append, cons_append, cons_append, append_assoc] at h
  obtain ⟨rfl, htail⟩ := List.cons.inj h
  rcases List.append_eq_append_iff.mp htail with ⟨mid, rfl, -⟩ | ⟨mid, rfl, hmid⟩
  · exact ⟨[], mid, rfl⟩
  · cases mid with
    | nil => exact ⟨[], [], by rw [append_nil, append_nil, nil_append]⟩
    | cons x mid =>
      obtain ⟨rfl, -⟩ := List.cons.inj hmid
      exact absurd (mem_append_right b mem_cons_self) hrest

theorem word_inj {c : β} {rest : List β} (hrest : c ∉ rest) : ∀ {a b s t : List β},
    ¬ c :: rest <:+: a → ¬ c :: rest <:+: b →
      a ++ c :: rest ++ s = b ++ c :: rest ++ t → a = b ∧ s = t
  | [], [], s, t, _, _, h => ⟨rfl, append_cancel_left h⟩
  | [], y :: b, s, t, _, hb, h => absurd (front_mem_word hrest h) hb
  | x :: a, [], s, t, ha, _, h => absurd (front_mem_word hrest h.symm) ha
  | x :: a, y :: b, s, t, ha, hb, h => by
    obtain ⟨rfl, htail⟩ := List.cons.inj h
    obtain ⟨rfl, hst⟩ := word_inj hrest (fun hin => ha (infix_cons hin))
      (fun hin => hb (infix_cons hin)) htail
    exact ⟨rfl, hst⟩

/-- Words that are determined by their text once something is known of each. -/
theorem flatMap_inj_of_counts {p : α → Prop} {enc : α → List β} {known : α → γ}
    (h : ∀ a b s t, p a → p b → known a = known b → enc a ++ s = enc b ++ t → a = b ∧ s = t) :
    ∀ {l l' : List α}, (∀ a ∈ l, p a) → (∀ a ∈ l', p a) → l.map known = l'.map known →
      l.flatMap enc = l'.flatMap enc → l = l'
  | [], [], _, _, _, _ => rfl
  | [], _ :: _, _, _, hknown, _ => by cases hknown
  | _ :: _, [], _, _, hknown, _ => by cases hknown
  | a :: l, b :: l', hl, hl', hknown, he => by
    rw [forall_mem_cons] at hl hl'
    rw [map_cons, map_cons, List.cons.injEq] at hknown
    rw [flatMap_cons, flatMap_cons] at he
    obtain ⟨rfl, hrest⟩ := h a b _ _ hl.1 hl'.1 hknown.1 he
    rw [flatMap_inj_of_counts h hl.2 hl'.2 hknown.2 hrest]

end Pandora.Lib.Separators
