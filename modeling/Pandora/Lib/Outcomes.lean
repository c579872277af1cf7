import Mathlib

/-! # Outcomes of computations that may fail

`Outcome E x Q`: the computation `x` gives a value of `Q`, or fails with an error of `E`. With no
error in `E` it succeeds (`outcome_total`). The rules follow the way the computation is written. -/

namespace Pandora.Lib.Outcomes

variable {ε α β : Type} {E E' : ε → Prop} {x : Except ε α} {a : α} {Q Q' : α → Prop}

def Outcome (E : ε → Prop) (x : Except ε α) (Q : α → Prop) : Prop :=
  match x with
  | .ok a => Q a
  | .error e => E e

@[simp] theorem outcome_ok : Outcome E (.ok a) Q ↔ Q a := Iff.rfl

@[simp] theorem outcome_error {e : ε} : Outcome E (.error e) Q ↔ E e := Iff.rfl

theorem outcome_total : Outcome (fun _ => False) x Q ↔ ∃ a, x = .ok a ∧ Q a := by
  cases x with
  | ok a => simp
  | error e => simp

theorem Outcome.value (h : Outcome E x Q) (hx : x = .ok a) : Q a := by
  subst hx
  exact h

theorem Outcome.of_eq (hx : x = .ok a) (hQ : Q a) : Outcome E x Q := by
  subst hx
  exact hQ

theorem Outcome.mono (h : Outcome E x Q) (hQ : ∀ a, Q a → Q' a) : Outcome E x Q' := by
  cases x with
  | ok a => exact hQ a h
  | error e => exact h

theorem Outcome.bind {f : α → Except ε β} {R : β → Prop} (hx : Outcome E x Q)
    (hf : ∀ a, Q a → Outcome E (f a) R) : Outcome E (x >>= f) R := by
  cases x with
  | ok a => exact hf a hx
  | error e => exact hx

theorem Outcome.foldlM {f : β → α → Except ε β} {xs : List α} {b : β} (I : β → Prop) (hb : I b)
    (hstep : ∀ b, ∀ a ∈ xs, I b → Outcome E (f b a) I) : Outcome E (xs.foldlM f b) I := by
  induction xs generalizing b with
  | nil => exact hb
  | cons a xs ih =>
    rw [List.foldlM_cons]
    exact (hstep b a List.mem_cons_self hb).bind fun b' hb' =>
      ih hb' fun b a ha => hstep b a (List.mem_cons_of_mem _ ha)

theorem Outcome.mapM {f : α → Except ε β} {xs : List α} {R : α → β → Prop}
    (hstep : ∀ a ∈ xs, Outcome E (f a) (R a)) :
    Outcome E (xs.mapM f) (List.Forall₂ R xs) := by
  induction xs with
  | nil => exact .nil
  | cons a xs ih =>
    rw [List.mapM_cons]
    refine (hstep a List.mem_cons_self).bind fun b hb => ?_
    refine (ih fun a ha => hstep a (List.mem_cons_of_mem _ ha)).bind fun bs hbs => ?_
    exact .cons hb hbs

end Pandora.Lib.Outcomes
