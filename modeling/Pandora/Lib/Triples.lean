import Mathlib

/-! # Triples for computations that may fail

`EStateM ε σ` has the computations that change a state and may end with an error; the state is then
the one in which the error was raised. `Triple P m Q E`: from a state with `P`, the computation ends
with a value and a state of `Q`, or with an error and a state of `E`. The rules follow the way the
computation is written. -/

namespace Pandora.Lib.Triples

variable {ε σ α β : Type} {P P' : σ → Prop} {Q Q' : α → σ → Prop} {R : β → σ → Prop}
  {E E' : ε → σ → Prop} {m : EStateM ε σ α}

structure Triple (P : σ → Prop) (m : EStateM ε σ α) (Q : α → σ → Prop) (E : ε → σ → Prop) :
    Prop where
  run : ∀ s, P s → match m s with
    | .ok a s' => Q a s'
    | .error e s' => E e s'

variable {s' : σ}

theorem Triple.ok {s : σ} {a : α} (h : Triple P m Q E) (hP : P s) (hrun : m s = .ok a s') :
    Q a s' := by
  have hs := h.run s hP
  rw [hrun] at hs
  exact hs

theorem Triple.error {s : σ} {e : ε} (h : Triple P m Q E) (hP : P s)
    (hrun : m s = .error e s') : E e s' := by
  have hs := h.run s hP
  rw [hrun] at hs
  exact hs

theorem Triple.intro (hok : ∀ s a s', P s → m s = .ok a s' → Q a s')
    (herror : ∀ s e s', P s → m s = .error e s' → E e s') : Triple P m Q E := by
  refine ⟨fun s hP => ?_⟩
  split
  · rename_i a s' hrun
    exact hok s a s' hP hrun
  · rename_i e s' hrun
    exact herror s e s' hP hrun

theorem Triple.conseq (h : Triple P m Q E) (hP : ∀ s, P' s → P s) (hQ : ∀ a s, Q a s → Q' a s)
    (hE : ∀ e s, E e s → E' e s) : Triple P' m Q' E' :=
  .intro (fun s a s' hs hrun => hQ a s' (h.ok (hP s hs) hrun))
    fun s e s' hs hrun => hE e s' (h.error (hP s hs) hrun)

theorem Triple.pre (h : Triple P m Q E) (hP : ∀ s, P' s → P s) : Triple P' m Q E :=
  h.conseq hP (fun _ _ => id) fun _ _ => id

theorem Triple.each (h : ∀ s, P s → Triple (· = s) m Q E) : Triple P m Q E :=
  ⟨fun s hP => (h s hP).run s rfl⟩

theorem Triple.pure {a : α} (h : ∀ s, P s → Q a s) : Triple P (pure a : EStateM ε σ α) Q E := ⟨h⟩

theorem Triple.throw {e : ε} (h : ∀ s, P s → E e s) :
    Triple P (throw e : EStateM ε σ α) Q E := ⟨h⟩

variable {f : α → EStateM ε σ β}

theorem bind_of_ok {s : σ} {a : α} (h : m s = .ok a s') :
    (m >>= f) s = f a s' := by
  show EStateM.bind m f s = f a s'
  unfold EStateM.bind
  rw [h]

theorem bind_of_error {s : σ} {e : ε} (h : m s = .error e s') :
    (m >>= f) s = .error e s' := by
  show EStateM.bind m f s = .error e s'
  unfold EStateM.bind
  rw [h]

theorem Triple.bind (hm : Triple P m Q E)
    (hf : ∀ a, Triple (Q a) (f a) R E) : Triple P (m >>= f) R E := by
  refine ⟨fun s hP => ?_⟩
  rcases hrun : m s with ⟨a, s'⟩ | ⟨e, s'⟩
  · rw [bind_of_ok hrun]
    exact (hf a).run s' (hm.ok hP hrun)
  · rw [bind_of_error hrun]
    exact hm.error hP hrun

theorem Triple.get {f : σ → EStateM ε σ β} (hf : ∀ s, P s → Triple (· = s) (f s) R E) :
    Triple P (get >>= f) R E := ⟨fun s hP => (hf s hP).run s rfl⟩

theorem Triple.modify {f : σ → σ} {Q : Unit → σ → Prop} (h : ∀ s, P s → Q () (f s)) :
    Triple P (modify f : EStateM ε σ Unit) Q E := ⟨h⟩

theorem Triple.set {Q : Unit → σ → Prop} (h : ∀ s, P s → Q () s') :
    Triple P (set s' : EStateM ε σ Unit) Q E := ⟨h⟩

theorem Triple.ofExcept {x : Except ε α} (hok : ∀ a, x = .ok a → ∀ s, P s → Q a s)
    (herror : ∀ e, x = .error e → ∀ s, P s → E e s) :
    Triple P (MonadExcept.ofExcept x : EStateM ε σ α) Q E := by
  rcases x with e | a
  · exact ⟨herror e rfl⟩
  · exact ⟨hok a rfl⟩

theorem Triple.forM {xs : List α} {f : α → EStateM ε σ PUnit} (I : List α → σ → Prop)
    (hstep : ∀ x rest, Triple (I (x :: rest)) (f x) (fun _ => I rest) E) :
    Triple (I xs) (xs.forM f) (fun _ => I []) E := by
  induction xs with
  | nil => exact .pure fun _ h => h
  | cons x rest ih => exact (hstep x rest).bind fun _ => ih

theorem Triple.mapM {xs : List α} (I : List (α × β) → List α → σ → Prop) (hstep : ∀ done x rest,
      Triple (I done (x :: rest)) (f x) (fun b => I (done ++ [(x, b)]) rest) E)
    (done : List (α × β)) :
    Triple (I done xs) (xs.mapM f)
      (fun bs s => bs.length = xs.length ∧ I (done ++ xs.zip bs) [] s) E := by
  induction xs generalizing done with
  | nil => exact .pure fun s h => ⟨rfl, by simpa using h⟩
  | cons x rest ih =>
    rw [List.mapM_cons]
    refine (hstep done x rest).bind fun b => (ih (done ++ [(x, b)])).bind fun bs => .pure ?_
    rintro s ⟨hlength, hI⟩
    refine ⟨by rw [List.length_cons, List.length_cons, hlength], ?_⟩
    rwa [List.append_assoc, List.singleton_append] at hI

end Pandora.Lib.Triples
