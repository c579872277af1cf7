import Mathlib

/-! # Objects with an identity

Objects that are neither copied nor rebuilt: an object is named by the index of its creation,
creation appends, a method that takes the object by reference sets its entry, and one that consumes
it sets the entry to `none`. `Live xs i a` says that object `i` exists and has the value `a`. -/

namespace Pandora.Lib.Objects

variable {α : Type} {xs : List (Option α)} {i j : ℕ} {a b : α}

/-- Object `i` exists and has the value `a`. -/
def Live (xs : List (Option α)) (i : ℕ) (a : α) : Prop := xs[i]? = some (some a)

theorem Live.unique (ha : Live xs i a) (hb : Live xs i b) : a = b := by
  unfold Live at ha hb
  rw [ha] at hb
  simpa using hb

theorem Live.lt (h : Live xs i a) : i < xs.length := by
  obtain ⟨hi, -⟩ := List.getElem?_eq_some_iff.mp h
  exact hi

theorem join_eq_some : xs[i]?.join = some a ↔ Live xs i a := by
  rw [Option.join_eq_some_iff, Live]

theorem live_append {o : Option α} :
    Live (xs ++ [o]) i a ↔ Live xs i a ∨ (i = xs.length ∧ o = some a) := by
  unfold Live
  rcases Nat.lt_or_ge i xs.length with hi | hi
  · rw [List.getElem?_append_left hi]
    exact ⟨Or.inl, fun h => h.elim id fun h => absurd h.1 (by omega)⟩
  · rw [List.getElem?_append_right hi]
    have hnone : xs[i]? = none := List.getElem?_eq_none hi
    constructor
    · intro h
      obtain ⟨hlt, he⟩ := List.getElem?_eq_some_iff.mp h
      simp only [List.length_singleton] at hlt
      exact Or.inr ⟨by omega, by simpa [show i - xs.length = 0 by omega] using he⟩
    · rintro (h | ⟨rfl, rfl⟩)
      · rw [hnone] at h; simp at h
      · simp

theorem live_set {o : Option α} (h : Live (xs.set j o) i a) :
    (i ≠ j ∧ Live xs i a) ∨ (i = j ∧ o = some a) := by
  by_cases hij : i = j
  · subst hij
    have hlt : i < xs.length := by simpa using h.lt
    rw [Live, List.getElem?_set_self hlt, Option.some.injEq] at h
    exact Or.inr ⟨rfl, h⟩
  · rw [Live, List.getElem?_set_ne (Ne.symm hij)] at h
    exact Or.inl ⟨hij, h⟩

end Pandora.Lib.Objects
