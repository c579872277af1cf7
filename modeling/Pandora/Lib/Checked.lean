import Mathlib

/-! # Checked computations

A fallible function is written in `Except ε`: `ensure p e` is the early return `if !p return
Err(e)`, `orError o e` is `ok_or`, `checkedAdd` is unsigned addition in 64 bits, and `fitsI64`,
`fitsU64`, `fitsU32` are the conversions to a signed 64-bit column and back.

Each has a lemma that says when it succeeds, and `bind_eq_ok` takes a sequence of checks apart; a
proof about a successful call never unfolds the monad. -/

namespace Pandora.Lib.Checked

open List

variable {ε α β : Type}

/-- Fail with `e` unless `p` holds. -/
def ensure (p : Prop) [Decidable p] (e : ε) : Except ε Unit := if p then .ok () else .error e

/-- `Option::ok_or`. -/
def orError (o : Option α) (e : ε) : Except ε α :=
  match o with
  | some a => .ok a
  | none => .error e

/-- `u64::checked_add`. -/
def checkedAdd (a b : ℕ) : Option ℕ := if a + b < 2 ^ 64 then some (a + b) else none

/-- `i64::try_from` of an unsigned value: the value itself, if it is below `2 ^ 63`. -/
def fitsI64 (v : ℕ) : Option ℕ := if v < 2 ^ 63 then some v else none

/-- `u64::try_from` of a signed column. -/
def fitsU64 (v : ℤ) : Option ℕ := if 0 ≤ v then some v.toNat else none

/-- `u32::try_from` of a signed column. -/
def fitsU32 (v : ℤ) : Option UInt32 :=
  if 0 ≤ v ∧ v < 2 ^ 32 then some (UInt32.ofNat v.toNat) else none

variable {x : Except ε α} {f : α → Except ε β}

@[simp] theorem bind_eq_ok {b : β} :
    (x >>= f) = .ok b ↔ ∃ a, x = .ok a ∧ f a = .ok b := by
  cases x with
  | ok | error => simp [bind, Except.bind]

variable {e : ε}

theorem bind_eq_error :
    (x >>= f) = .error e ↔ x = .error e ∨ ∃ a, x = .ok a ∧ f a = .error e := by
  cases x with
  | ok | error => simp [bind, Except.bind]

theorem ok_bind (a : α) (f : α → Except ε β) : (Except.ok a >>= f) = f a := rfl

@[simp] theorem map_eq_ok {f : α → β} {b : β} :
    f <$> x = .ok b ↔ ∃ a, x = .ok a ∧ f a = b := by
  cases x with
  | ok | error => simp [Functor.map, Except.map]

variable {a : α}

@[simp] theorem pure_eq_ok {b : α} : (pure a : Except ε α) = .ok b ↔ a = b := by
  simp [pure, Except.pure]

@[simp] theorem throw_ne_ok {b : α} : ¬ (throw e : Except ε α) = .ok b := by
  simp [throw, throwThe, MonadExceptOf.throw]

variable {p : Prop}

@[simp] theorem ensure_eq_ok [Decidable p] {u : Unit} :
    ensure p e = .ok u ↔ p := by
  unfold ensure; split_ifs with h <;> simp [h]

theorem ensure_eq_error [Decidable p] {e' : ε} :
    ensure p e = .error e' ↔ ¬ p ∧ e = e' := by
  unfold ensure
  split_ifs with h <;> simp [h]

@[simp] theorem orError_eq_ok {o : Option α} :
    orError o e = .ok a ↔ o = some a := by
  cases o <;> simp [orError]

@[simp] theorem mapError_eq_ok {ε' : Type} {f : ε → ε'} :
    x.mapError f = .ok a ↔ x = .ok a := by
  cases x <;> simp [Except.mapError]

@[simp] theorem checkedAdd_eq_some {a b c : ℕ} :
    checkedAdd a b = some c ↔ a + b < 2 ^ 64 ∧ a + b = c := by
  unfold checkedAdd
  by_cases h : a + b < 2 ^ 64
  · rw [if_pos h, Option.some.injEq]
    exact ⟨fun he => ⟨h, he⟩, And.right⟩
  · rw [if_neg h]
    exact ⟨nofun, fun he => absurd he.1 h⟩

@[simp] theorem fitsI64_eq_some {v c : ℕ} : fitsI64 v = some c ↔ v < 2 ^ 63 ∧ v = c := by
  unfold fitsI64
  by_cases h : v < 2 ^ 63
  · rw [if_pos h, Option.some.injEq]
    exact ⟨fun he => ⟨h, he⟩, And.right⟩
  · rw [if_neg h]
    exact ⟨nofun, fun he => absurd he.1 h⟩

theorem fitsI64_eq_none {v : ℕ} (h : ¬ v < 2 ^ 63) : fitsI64 v = none := if_neg h

@[simp] theorem fitsU64_natCast (n : ℕ) : fitsU64 n = some n := by
  simp [fitsU64]

@[simp] theorem fitsU32_toNat (v : UInt32) : fitsU32 v.toNat = some v := by
  have hv := v.toNat_lt
  unfold fitsU32
  rw [if_pos ⟨by omega, by omega⟩, Int.toNat_natCast, UInt32.ofNat_toNat]

/-- The error of a failed computation. -/
def error? (x : Except ε α) : Option ε :=
  match x with
  | .ok _ => none
  | .error e => some e

theorem error?_eq_some : error? x = some e ↔ x = .error e := by
  cases x <;> simp [error?]

theorem forM_eq_ok {f : α → Except ε Unit} : ∀ {l : List α},
    forM l f = .ok () ↔ ∀ a ∈ l, f a = .ok ()
  | [] => by simp [pure, Except.pure]
  | a :: l => by
    rw [forM_cons, bind_eq_ok]
    constructor
    · rintro ⟨⟨⟩, ha, hl⟩ b hb
      rcases List.mem_cons.mp hb with rfl | hb
      · exact ha
      · exact forM_eq_ok.mp hl b hb
    · intro h
      exact ⟨⟨⟩, h a (by simp), forM_eq_ok.mpr fun b hb => h b (by simp [hb])⟩

/-- A loop over a list, where each step has one possible result and a condition for it. -/
theorem mapM_eq_ok {p : α → Prop} {g : α → β}
    (hf : ∀ a b, f a = .ok b ↔ p a ∧ b = g a) : ∀ {l : List α} {l' : List β},
    l.mapM f = .ok l' ↔ (∀ a ∈ l, p a) ∧ l' = l.map g
  | [], l' => by
    rw [mapM_nil, pure_eq_ok]; simp [eq_comm]
  | a :: l, l' => by
    simp only [mapM_cons, bind_eq_ok, pure_eq_ok, hf, mapM_eq_ok hf, mem_cons,
      forall_eq_or_imp, map_cons]
    constructor
    · rintro ⟨_, ⟨ha, rfl⟩, _, ⟨hl, rfl⟩, rfl⟩; exact ⟨⟨ha, hl⟩, rfl⟩
    · rintro ⟨⟨ha, hl⟩, rfl⟩; exact ⟨g a, ⟨ha, rfl⟩, l.map g, ⟨hl, rfl⟩, rfl⟩

/-- Decoding every element with a decoder that only checks returns the list itself. -/
theorem mapM_check_eq_ok {f : α → Except ε α} {p : α → Prop}
    (hf : ∀ a b, f a = .ok b ↔ p a ∧ b = a) {l l' : List α} :
    l.mapM f = .ok l' ↔ (∀ a ∈ l, p a) ∧ l' = l := by
  rw [mapM_eq_ok hf, map_id']

theorem mapM_of_forall {g : α → β} : ∀ {l : List α},
    (∀ a ∈ l, f a = .ok (g a)) → l.mapM f = .ok (l.map g)
  | [], _ => rfl
  | a :: l, h => by
    have ha := h a (by simp)
    have hl := mapM_of_forall fun b hb => h b (mem_cons_of_mem _ hb)
    rw [mapM_cons, ha, ok_bind, hl]
    rfl

theorem mem_mapM {b : β} : ∀ {l : List α} {l' : List β},
    l.mapM f = .ok l' → (b ∈ l' ↔ ∃ a ∈ l, f a = .ok b)
  | [], l', h => by
    rw [mapM_nil, pure_eq_ok] at h
    rw [← h]
    simp
  | a :: l, l', h => by
    simp only [mapM_cons, bind_eq_ok, pure_eq_ok] at h
    obtain ⟨c, hc, bs, hbs, rfl⟩ := h
    rw [mem_cons, exists_mem_cons_iff, mem_mapM hbs, hc, Except.ok.injEq, eq_comm]

theorem exists_mapM : ∀ {l : List α}, (∀ a ∈ l, ∃ b, f a = .ok b) → ∃ l', l.mapM f = .ok l'
  | [], _ => ⟨[], rfl⟩
  | a :: l, h => by
    obtain ⟨b, hb⟩ := h a mem_cons_self
    obtain ⟨bs, hbs⟩ := exists_mapM fun a ha => h a (mem_cons_of_mem _ ha)
    refine ⟨b :: bs, ?_⟩
    rw [mapM_cons, hb, ok_bind, hbs]
    rfl

theorem exists_of_mapM : ∀ {l : List α} {l' : List β}, l.mapM f = .ok l' → ∀ a ∈ l, ∃ b, f a = .ok b
  | [], _, _ => nofun
  | a :: l, l', h => by
    simp only [mapM_cons, bind_eq_ok, pure_eq_ok] at h
    obtain ⟨b, hb, l', hl, -⟩ := h
    exact List.forall_mem_cons.mpr ⟨⟨b, hb⟩, exists_of_mapM hl⟩

theorem length_of_mapM : ∀ {l : List α} {l' : List β}, l.mapM f = .ok l' → l'.length = l.length
  | [], l', h => by
    rw [mapM_nil, pure_eq_ok] at h
    rw [← h]
    rfl
  | a :: l, l', h => by
    simp only [mapM_cons, bind_eq_ok, pure_eq_ok] at h
    obtain ⟨b, -, bs, hbs, rfl⟩ := h
    rw [length_cons, length_cons, length_of_mapM hbs]

/-- A transaction: the new state is kept only when it commits. -/
def commit {σ : Type} (s : σ) (result : Except ε (σ × α)) : σ × Except ε α :=
  match result with
  | .ok (s', a) => (s', .ok a)
  | .error e => (s, .error e)

/-! ### Errors -/

/-- If the computation fails, then with an error that has the property. -/
structure FailsOnly (P : ε → Prop) (x : Except ε α) : Prop where
  error : ∀ e, x = .error e → P e

namespace FailsOnly

variable {P : ε → Prop}

theorem ok : FailsOnly P (.ok a : Except ε α) := ⟨fun _ h => nomatch h⟩

theorem bind (hx : FailsOnly P x) (hf : ∀ a, FailsOnly P (f a)) : FailsOnly P (x >>= f) := by
  refine ⟨fun e h => ?_⟩
  rcases bind_eq_error.mp h with h | ⟨a, -, h⟩
  · exact hx.error e h
  · exact (hf a).error e h

theorem ensure [Decidable p] (h : P e) : FailsOnly P (ensure p e) := by
  refine ⟨fun e' he => ?_⟩
  rw [← (ensure_eq_error.mp he).2]
  exact h

theorem orError {o : Option α} (h : P e) : FailsOnly P (orError o e) := by
  refine ⟨fun e' he => ?_⟩
  rcases o with _ | a
  · cases he
    exact h
  · cases he

theorem mapError {ε' : Type} {x : Except ε' α} {f : ε' → ε} (h : ∀ e, P (f e)) :
    FailsOnly P (x.mapError f) := by
  refine ⟨fun e he => ?_⟩
  rcases x with e' | a
  · cases he
    exact h e'
  · cases he

theorem mapM (hf : ∀ a, FailsOnly P (f a)) :
    ∀ l : List α, FailsOnly P (l.mapM f)
  | [] => by
    rw [mapM_nil]
    exact ok
  | a :: l => by
    rw [mapM_cons]
    exact (hf a).bind fun b => (mapM hf l).bind fun bs => ok

end FailsOnly

/-! ### Refusals -/

/-- The computation fails with `e` in state `s`, unless it fails in every state alike. -/
def Refused {σ : Type} (e : ε) (f : σ → Except ε α) (s : σ) : Prop :=
  f s = .error e ∨ ∃ e', ∀ s', f s' = .error e'

/-- A check that does not read the state comes before the refusal. -/
theorem refused_bind {σ : Type} {x : Except ε β} {f : β → σ → Except ε α} {s : σ}
    (h : ∀ b, Refused e (f b) s) : Refused e (fun s => x >>= fun b => f b s) s := by
  rcases x with e' | b
  · exact Or.inr ⟨e', fun _ => rfl⟩
  · exact h b

end Pandora.Lib.Checked
