import Mathlib

/-! # Machine integers

Arithmetic on fixed-width integers, with the values as integers of Lean. A result the type does not
have is a panic in a build with overflow checks, and is wrapped around in a build without them
(`IntType.arith`). A cast always wraps (`IntType.wrap`). A call ends with a result, with an error of
its own, with a panic, or never (`Fault`). -/

namespace Pandora.Lib.MachineInts

/-- How a call ends if it gives no result. -/
inductive Fault (ε : Type)
  | error (e : ε)
  | panic
  | hang
deriving DecidableEq

inductive IntType
  | u32 | i32 | i64

/-- The value of the type that agrees with `x` in the bits the type has: a cast with `as`. -/
def IntType.wrap : IntType → ℤ → ℤ
  | u32, x => x % 2 ^ 32
  | i32, x => Int.bmod x (2 ^ 32)
  | i64, x => Int.bmod x (2 ^ 64)

/-- The result of an operation with the exact value `x`. -/
def IntType.arith {ε : Type} (checks : Bool) (t : IntType) (x : ℤ) : Except (Fault ε) ℤ :=
  if t.wrap x = x then .ok x else if checks then .error .panic else .ok (t.wrap x)

/-- `i64::saturating_add`, from the exact sum. -/
def saturateI64 (x : ℤ) : ℤ := max (-2 ^ 63) (min x (2 ^ 63 - 1))

/-- The result of a fallible function that cannot panic. -/
def lift {ε α : Type} : Except ε α → Except (Fault ε) α
  | .ok a => .ok a
  | .error e => .error (.error e)

variable {ε α : Type}

theorem lift_eq_ok {x : Except ε α} {a : α} : lift x = .ok a ↔ x = .ok a := by
  cases x with
  | ok | error => simp [lift]

/-- The call ends, with a result or with an error of its own. -/
def Ends {ε α : Type} (x : Except (Fault ε) α) : Prop :=
  ∀ fault, x = .error fault → ∃ e, fault = .error e

theorem ends_ok (a : α) : Ends (.ok a : Except (Fault ε) α) := by
  intro fault h
  cases h

theorem ends_error (e : ε) : Ends (.error (.error e) : Except (Fault ε) α) := by
  intro fault h
  cases h
  exact ⟨e, rfl⟩

theorem Ends.bind {β : Type} {x : Except (Fault ε) α} {f : α → Except (Fault ε) β}
    (hx : Ends x) (hf : ∀ a, Ends (f a)) : Ends (x >>= f) := by
  cases x with
  | ok a => exact hf a
  | error fault =>
    obtain ⟨e, rfl⟩ := hx fault rfl
    exact ends_error e

theorem ends_lift (x : Except ε α) : Ends (lift x) := by
  cases x with
  | ok a => exact ends_ok a
  | error e => exact ends_error e

/-! ### Values of a type -/

/-- The integers that the type has. -/
def IntType.Fits : IntType → ℤ → Prop
  | u32, x => 0 ≤ x ∧ x < 2 ^ 32
  | i32, x => -2 ^ 31 ≤ x ∧ x < 2 ^ 31
  | i64, x => -2 ^ 63 ≤ x ∧ x < 2 ^ 63

theorem bmod_eq_self_iff {x : ℤ} {n : ℕ} :
    Int.bmod x (2 ^ (n + 1)) = x ↔ -2 ^ n ≤ x ∧ x < 2 ^ n := by
  have hhalf : ((2 ^ (n + 1) : ℕ) : ℤ) = 2 * 2 ^ n := by
    rw [pow_succ]
    push_cast
    exact Int.mul_comm _ _
  have hpos : (0 : ℤ) < 2 ^ n := Int.pow_pos (by omega)
  constructor
  · intro h
    have hlow := Int.le_bmod (x := x) (Nat.two_pow_pos (n + 1))
    have hhigh := Int.bmod_lt (x := x) (Nat.two_pow_pos (n + 1))
    rw [h, hhalf] at hlow hhigh
    omega
  · rintro ⟨hlow, hhigh⟩
    refine Int.bmod_eq_of_le ?_ ?_
    all_goals
      rw [hhalf]
      omega

theorem IntType.wrap_eq_self_iff {t : IntType} {x : ℤ} : t.wrap x = x ↔ t.Fits x := by
  cases t with
  | u32 =>
    show x % 2 ^ 32 = x ↔ 0 ≤ x ∧ x < 2 ^ 32
    omega
  | i32 | i64 => exact bmod_eq_self_iff

theorem IntType.arith_of_fits {checks : Bool} {t : IntType} {x : ℤ} (h : t.Fits x) :
    (t.arith checks x : Except (Fault ε) ℤ) = .ok x := if_pos (wrap_eq_self_iff.mpr h)

theorem IntType.arith_checked (t : IntType) (x : ℤ) :
    t.Fits x ∧ (t.arith true x : Except (Fault ε) ℤ) = .ok x ∨
      (t.arith true x : Except (Fault ε) ℤ) = .error .panic := by
  by_cases h : t.Fits x
  · exact Or.inl ⟨h, arith_of_fits h⟩
  · refine Or.inr ?_
    unfold IntType.arith
    rw [if_neg (mt wrap_eq_self_iff.mp h), if_pos rfl]

/-! ### Builds with and without checks -/

/-- The first call panics, or the second ends as it does. -/
def AgreesUnlessPanic {ε α : Type} (x y : Except (Fault ε) α) : Prop :=
  x = .error .panic ∨ x = y

namespace AgreesUnlessPanic

variable {ε α β : Type}

theorem refl (x : Except (Fault ε) α) : AgreesUnlessPanic x x := Or.inr rfl

theorem bind {x y : Except (Fault ε) α} {f g : α → Except (Fault ε) β}
    (h : AgreesUnlessPanic x y) (hf : ∀ a, AgreesUnlessPanic (f a) (g a)) :
    AgreesUnlessPanic (x >>= f) (y >>= g) := by
  rcases h with rfl | rfl
  · exact Or.inl rfl
  · cases x with
    | ok a => exact hf a
    | error fault => exact refl _

theorem map {x y : Except (Fault ε) α} (f : α → β) (h : AgreesUnlessPanic x y) :
    AgreesUnlessPanic (f <$> x) (f <$> y) := by
  rcases h with rfl | rfl
  · exact Or.inl rfl
  · exact refl _

theorem arith (checks : Bool) (t : IntType) (x : ℤ) :
    AgreesUnlessPanic (t.arith true x : Except (Fault ε) ℤ) (t.arith checks x) := by
  rcases @IntType.arith_checked ε t x with ⟨hfits, hexact⟩ | hpanic
  · rw [hexact, IntType.arith_of_fits hfits]
    exact refl _
  · exact Or.inl hpanic

theorem ite {p : Prop} [Decidable p] {x y x' y' : Except (Fault ε) α}
    (h : AgreesUnlessPanic x y) (h' : AgreesUnlessPanic x' y') :
    AgreesUnlessPanic (if p then x else x') (if p then y else y') := by
  split_ifs
  · exact h
  · exact h'

end AgreesUnlessPanic

end Pandora.Lib.MachineInts
