import Mathlib

/-! # Runs of a machine

A machine takes one input at a time, moves to the next state and answers. `run` is the state after a
list of inputs; a property of *every reachable state* is a property of `run s is` for every `is`.

`run_invariant` is the rule for what every step keeps; `run_invariant_along` for what those steps
keep that meet a condition on the input and the state (`Along`); `run_invariant_clocked` for what
only gets weaker as time passes (`Clocked`); and `run_history` for an invariant between the history
and the state it leads to, where `Answers s is k i o` says that input `i` stands at position `k` of
the run and is answered `o`. -/

namespace Pandora.Lib.Runs

open List

/-- One step: the next state and the answer. -/
structure Machine (σ ι ο : Type) where
  step : σ → ι → σ × ο

namespace Machine

variable {σ ι ο : Type} (m : Machine σ ι ο)

/-- The state after a list of inputs. -/
def run (s : σ) (is : List ι) : σ := is.foldl (fun s i => (m.step s i).1) s

/-- The answer to an input. -/
def answer (s : σ) (i : ι) : ο := (m.step s i).2

@[simp] theorem run_nil (s : σ) : m.run s [] = s := rfl

@[simp] theorem run_cons (s : σ) (i : ι) (is : List ι) :
    m.run s (i :: is) = m.run (m.step s i).1 is := rfl

theorem run_append (s : σ) (is js : List ι) : m.run s (is ++ js) = m.run (m.run s is) js := by
  simp [run]

theorem run_snoc (s : σ) (is : List ι) (i : ι) :
    m.run s (is ++ [i]) = (m.step (m.run s is) i).1 := by
  rw [run_append]; rfl

variable {P : σ → Prop}

/-- **The invariant rule.** -/
theorem run_invariant (hstep : ∀ s i, P s → P (m.step s i).1) :
    ∀ (is : List ι) {s : σ}, P s → P (m.run s is)
  | [], _, h => h
  | i :: is, s, h => run_invariant hstep is (hstep s i h)

/-- What every step keeps of a pair of states related by `R`, a run keeps. -/
theorem run_relates {R : σ → σ → Prop} (hrefl : ∀ s, R s s)
    (htrans : ∀ a b c, R a b → R b c → R a c)
    (hstep : ∀ s i, R s (m.step s i).1) : ∀ (s : σ) (is : List ι), R s (m.run s is)
  | s, [] => hrefl s
  | s, i :: is => htrans _ _ _ (hstep s i) (run_relates hrefl htrans hstep _ is)

/-- Every input of the run meets `C` in the state it is given in. -/
def Along (C : σ → ι → Prop) : σ → List ι → Prop
  | _, [] => True
  | s, i :: is => C s i ∧ Along C (m.step s i).1 is

variable {C : σ → ι → Prop}

theorem along_of_forall (h : ∀ s i, C s i) :
    ∀ (is : List ι) (s : σ), m.Along C s is
  | [], _ => trivial
  | i :: is, s => ⟨h s i, along_of_forall h is _⟩

/-- **The invariant rule under a condition.** -/
theorem run_invariant_along (hstep : ∀ s i, C s i → P s → P (m.step s i).1) :
    ∀ (is : List ι) {s : σ}, m.Along C s is → P s → P (m.run s is)
  | [], _, _, h => h
  | i :: is, s, hC, h => run_invariant_along hstep is hC.2 (hstep s i hC.1 h)

/-- What the invariant and the condition give at each step, along the run. -/
theorem along_of_invariant {D : σ → ι → Prop}
    (hstep : ∀ s i, C s i → P s → P (m.step s i).1) (hD : ∀ s i, C s i → P s → D s i) :
    ∀ (is : List ι) {s : σ}, m.Along C s is → P s → m.Along D s is
  | [], _, _, _ => trivial
  | i :: is, s, hC, h =>
    ⟨hD s i hC.1 h, along_of_invariant hstep hD is hC.2 (hstep s i hC.1 h)⟩

/-- **Two conditions that agree at each step agree along the run**, where both keep the invariant
under which they agree. -/
theorem along_iff {A D : σ → ι → Prop} (hiff : ∀ s i, A s i → P s → (C s i ↔ D s i))
    (hstep : ∀ s i, A s i → C s i → D s i → P s → P (m.step s i).1) :
    ∀ (is : List ι) {s : σ}, m.Along A s is → P s → (m.Along C s is ↔ m.Along D s is)
  | [], _, _, _ => Iff.rfl
  | i :: is, s, hA, h => by
    have hagree := hiff s i hA.1 h
    constructor
    · rintro ⟨hC, hrest⟩
      have hD := hagree.mp hC
      exact ⟨hD, (along_iff hiff hstep is hA.2 (hstep s i hA.1 hC hD h)).mp hrest⟩
    · rintro ⟨hD, hrest⟩
      have hC := hagree.mpr hD
      exact ⟨hC, (along_iff hiff hstep is hA.2 (hstep s i hA.1 hC hD h)).mpr hrest⟩

instance decidableAlong {C : σ → ι → Prop} [∀ s i, Decidable (C s i)] :
    ∀ (s : σ) (is : List ι), Decidable (m.Along C s is)
  | _, [] => isTrue trivial
  | s, i :: is =>
    have := decidableAlong (C := C) (m.step s i).1 is
    inferInstanceAs (Decidable (C s i ∧ m.Along C (m.step s i).1 is))

theorem along_append : ∀ (is : List ι) {js : List ι} {s : σ},
    m.Along C s (is ++ js) ↔ m.Along C s is ∧ m.Along C (m.run s is) js
  | [], _, _ => by simp [Along]
  | i :: is, js, s => by
    rw [cons_append, Along, Along, along_append is, run_cons, and_assoc]

/-! ### Clocks -/

/-- The readings of a clock along a run that starts at `c` never decrease and end at `c'` at the
latest. An input without a reading (`none`) says nothing. -/
def Clocked (time : ι → Option ℕ) : ℕ → List ι → ℕ → Prop
  | c, [], c' => c ≤ c'
  | c, i :: is, c' => c ≤ (time i).getD c ∧ Clocked time ((time i).getD c) is c'

/-- **The invariant rule with a clock**: an invariant that only gets weaker as time passes. -/
theorem run_invariant_clocked {time : ι → Option ℕ} {P : ℕ → σ → Prop}
    (hmono : ∀ {c c' s}, c ≤ c' → P c s → P c' s)
    (hstep : ∀ {c s i}, c ≤ (time i).getD c → C s i → P ((time i).getD c) s →
      P ((time i).getD c) (m.step s i).1) :
    ∀ (is : List ι) {c c' : ℕ} {s : σ}, Clocked time c is c' → m.Along C s is → P c s →
      P c' (m.run s is)
  | [], _, _, _, hc, _, h => hmono hc h
  | i :: is, c, c', s, hc, hC, h => by
    rw [run_cons]
    have hnow := hstep hc.1 hC.1 (hmono hc.1 h)
    exact run_invariant_clocked (P := P) hmono hstep is hc.2 hC.2 hnow

theorem clocked_of_pairwise {time : ι → ℕ} : ∀ {is : List ι} {c c' : ℕ},
    is.Pairwise (fun i j => time i ≤ time j) → (∀ i ∈ is, c ≤ time i ∧ time i ≤ c') → c ≤ c' →
      Clocked (fun i => some (time i)) c is c'
  | [], _, _, _, _, hc => hc
  | i :: is, c, c', hord, hbounds, _ => by
    obtain ⟨hi, hord⟩ := pairwise_cons.mp hord
    have hfirst := hbounds i mem_cons_self
    refine ⟨hfirst.1, clocked_of_pairwise hord (fun j hj => ⟨hi j hj, ?_⟩) hfirst.2⟩
    exact (hbounds j (mem_cons_of_mem _ hj)).2

/-! ### Histories -/

/-- Input `i` stands at position `k` of the run and is answered `o`. -/
def Answers (s : σ) (is : List ι) (k : ℕ) (i : ι) (o : ο) : Prop :=
  is[k]? = some i ∧ m.answer (m.run s (is.take k)) i = o

variable {m}

variable {s : σ} {is : List ι} {k : ℕ} {i : ι} {o : ο}

theorem Answers.lt (h : m.Answers s is k i o) :
    k < is.length := (List.getElem?_eq_some_iff.mp h.1).1

theorem Answers.append (h : m.Answers s is k i o) (js : List ι) : m.Answers s (is ++ js) k i o := by
  have hk := h.lt
  refine ⟨by rw [List.getElem?_append_left hk]; exact h.1, ?_⟩
  rw [take_append_of_le_length (Nat.le_of_lt hk)]
  exact h.2

theorem answers_last (h : m.answer (m.run s is) i = o) :
    m.Answers s (is ++ [i]) is.length i o := by
  refine ⟨by simp, ?_⟩
  rw [take_left]
  exact h

/-- An answer in a run is one from before its last input, or the answer to that. -/
theorem Answers.of_snoc {j : ι} (h : m.Answers s (is ++ [j]) k i o) :
    m.Answers s is k i o ∨ (k = is.length ∧ i = j ∧ m.answer (m.run s is) j = o) := by
  obtain ⟨hget, hans⟩ := h
  rcases Nat.lt_or_ge k is.length with hk | hk
  · rw [List.getElem?_append_left hk] at hget
    rw [take_append_of_le_length (Nat.le_of_lt hk)] at hans
    exact Or.inl ⟨hget, hans⟩
  · have hlen : k < (is ++ [j]).length := (List.getElem?_eq_some_iff.mp hget).1
    rw [length_append, length_singleton] at hlen
    obtain rfl : k = is.length := by omega
    rw [List.getElem?_concat_length, Option.some.injEq] at hget
    subst hget
    rw [take_left] at hans
    exact Or.inr ⟨rfl, rfl, hans⟩

theorem Answers.unique {i' : ι} {o' : ο}
    (h : m.Answers s is k i o) (h' : m.Answers s is k i' o') : i = i' ∧ o = o' := by
  obtain ⟨hget, hans⟩ := h
  obtain ⟨hget', hans'⟩ := h'
  rw [hget, Option.some.injEq] at hget'
  subst hget'
  exact ⟨rfl, by rw [← hans, hans']⟩

/-- The run up to a position answers the earlier positions alike. -/
theorem Answers.take {n : ℕ} (h : m.Answers s is k i o)
    (hkn : k < n) : m.Answers s (is.take n) k i o := by
  refine ⟨by rw [List.getElem?_take_of_lt hkn]; exact h.1, ?_⟩
  rw [take_take, Nat.min_eq_left (Nat.le_of_lt hkn)]
  exact h.2

theorem Answers.of_take {n : ℕ} (h : m.Answers s (is.take n) k i o) : m.Answers s is k i o := by
  have happ := h.append (is.drop n)
  rwa [take_append_drop] at happ

/-- A run that goes on after position `k` goes on from the state the input there leads to. -/
theorem Answers.run_take {l : ℕ} (h : m.Answers s is k i o)
    (hkl : k < l) : ∃ js, m.run s (is.take l) = m.run (m.step (m.run s (is.take k)) i).1 js := by
  have hsucc : is.take (k + 1) = is.take k ++ [i] := by
    rw [take_add_one, h.1]; rfl
  have hprefix : (is.take l).take (k + 1) = is.take (k + 1) := by
    rw [take_take, Nat.min_eq_left hkl]
  refine ⟨(is.take l).drop (k + 1), ?_⟩
  rw [← run_snoc, ← hsucc, ← hprefix, ← run_append, take_append_drop]

theorem Answers.split {l : ℕ} {j : ι} {o' : ο}
    (h : m.Answers s is k i o) (h' : m.Answers s is l j o') (hkl : k < l) :
    ∃ before between after, is = before ++ i :: (between ++ j :: after) ∧
      m.answer (m.run s before) i = o ∧
      m.answer (m.run (m.step (m.run s before) i).1 between) j = o' := by
  have hl := h'.lt
  have hi : is.drop k = i :: is.drop (k + 1) := by
    obtain ⟨hk, hget⟩ := List.getElem?_eq_some_iff.mp h.1
    rw [drop_eq_getElem_cons hk, hget]
  have hj : is.drop l = j :: is.drop (l + 1) := by
    obtain ⟨_, hget⟩ := List.getElem?_eq_some_iff.mp h'.1
    rw [drop_eq_getElem_cons hl, hget]
  have hmid : is.drop (k + 1) = (is.drop (k + 1)).take (l - (k + 1)) ++ is.drop l := by
    have hdrop : (is.drop (k + 1)).drop (l - (k + 1)) = is.drop l := by
      rw [drop_drop]
      congr 1
      omega
    rw [← hdrop, take_append_drop]
  have hall : is = is.take k ++ i :: ((is.drop (k + 1)).take (l - (k + 1)) ++ j ::
      is.drop (l + 1)) := by
    rw [← hj, ← hmid, ← hi, take_append_drop]
  refine ⟨is.take k, (is.drop (k + 1)).take (l - (k + 1)), is.drop (l + 1), hall, h.2, ?_⟩
  have hfront : is.take l = is.take k ++ i :: (is.drop (k + 1)).take (l - (k + 1)) := by
    have hlen : (is.take k ++ i :: (is.drop (k + 1)).take (l - (k + 1))).length = l := by
      simp only [length_append, length_take, length_cons, length_drop]
      omega
    conv_lhs => rw [hall, ← cons_append, ← append_assoc]
    exact take_left' hlen
  have hans := h'.2
  rw [hfront, run_append, run_cons] at hans
  exact hans

variable (m)

/-- **The invariant rule for histories**: what every step keeps between the inputs so far and the
state holds after every run. -/
theorem run_history {P : List ι → σ → Prop} (hnil : P [] s)
    (hstep : ∀ is i, P is (m.run s is) → P (is ++ [i]) (m.step (m.run s is) i).1) (is : List ι) :
    P is (m.run s is) := by
  induction is using List.reverseRecOn with
  | nil => exact hnil
  | append_singleton is i ih =>
    rw [run_snoc]
    exact hstep is i ih

end Machine

end Pandora.Lib.Runs
