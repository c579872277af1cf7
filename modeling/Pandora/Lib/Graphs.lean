import Mathlib

/-! # Directed graphs

A graph is a relation. `Acyclic` says that no node can be reached from itself, and `Clear r goal a`
that neither the goal nor a cycle can be reached from `a`: what a depth-first search from `a` looks
for. The edges out of one node may be replaced without closing a cycle when the new ones do not
lead back to it (`Acyclic.replace`). A graph whose edges go up in rank is acyclic
(`acyclic_of_rank`), and in an acyclic one a finite set of nodes has a least one
(`Acyclic.exists_minimal`). -/

namespace Pandora.Lib.Graphs

open Relation Option

variable {α : Type} {r r' : α → α → Prop} {goal a b : α}

/-- No node can be reached from itself. -/
def Acyclic (r : α → α → Prop) : Prop := ∀ a, ¬ TransGen r a a

/-- Neither the goal nor a cycle can be reached. -/
def Clear (r : α → α → Prop) (goal a : α) : Prop :=
  ∀ b, ReflTransGen r a b → b ≠ goal ∧ ¬ TransGen r b b

theorem Clear.of_edge (h : Clear r goal a) (hedge : r a b) : Clear r goal b :=
  fun c hpath => h c (hpath.head hedge)

theorem clear_of_edges (hne : a ≠ goal) (hedges : ∀ b, r a b → Clear r goal b) :
    Clear r goal a := by
  intro c hpath
  rcases hpath.cases_head with rfl | ⟨b, hedge, hrest⟩
  · refine ⟨hne, fun hcycle => ?_⟩
    -- the cycle goes through a successor, from which it can be reached
    obtain ⟨b, hedge, hback⟩ := TransGen.head'_iff.mp hcycle
    exact (hedges b hedge a hback).2 hcycle
  · exact hedges b hedge c hrest

/-- A path to a node whose edges are replaced is a path before that. -/
theorem reach_of_replaced (hsame : ∀ c d, c ≠ a → (r' c d ↔ r c d)) {b : α}
    (h : ReflTransGen r' b a) : ReflTransGen r b a := by
  induction h using ReflTransGen.head_induction_on with
  | refl => exact .refl
  | @head c d hedge _ ih =>
    by_cases hc : c = a
    · rw [hc]
    · exact ih.head ((hsame c d hc).mp hedge)

/-- A path after the edges out of one node are replaced is a path before that, or goes through the
node. -/
theorem path_of_replaced (hsame : ∀ c d, c ≠ a → (r' c d ↔ r c d)) {b c : α}
    (h : TransGen r' b c) : TransGen r b c ∨ TransGen r' a c ∧ ReflTransGen r' b a := by
  induction h with
  | @single d hedge =>
    by_cases hb : b = a
    · subst hb
      exact Or.inr ⟨.single hedge, .refl⟩
    · exact Or.inl (.single ((hsame b d hb).mp hedge))
  | @tail d e hpath hedge ih =>
    rcases ih with ih | ⟨hfrom, hto⟩
    · by_cases hd : d = a
      · subst hd
        exact Or.inr ⟨.single hedge, hpath.to_reflTransGen⟩
      · exact Or.inl (ih.tail ((hsame d e hd).mp hedge))
    · exact Or.inr ⟨hfrom.tail hedge, hto⟩

/-- **Replacing the edges out of one node.** -/
theorem Acyclic.replace (h : Acyclic r) (hsame : ∀ c d, c ≠ a → (r' c d ↔ r c d))
    (hnew : ∀ b, r' a b → ¬ ReflTransGen r b a) : Acyclic r' := by
  intro c hcycle
  rcases path_of_replaced hsame hcycle with hold | ⟨hfrom, hto⟩
  · exact h c hold
  · have hloop : TransGen r' a a := hfrom.trans_left hto
    obtain ⟨b, hedge, hback⟩ := TransGen.head'_iff.mp hloop
    exact hnew b hedge (reach_of_replaced hsame hback)

/-! ### Ranks and least nodes -/

theorem rank_lt_of_path {rank : α → ℕ} (h : ∀ a b, r a b → rank a < rank b)
    (hpath : TransGen r a b) : rank a < rank b := by
  induction hpath with
  | single hedge => exact h _ _ hedge
  | tail _ hedge ih => exact ih.trans (h _ _ hedge)

theorem acyclic_of_rank {rank : α → ℕ} (h : ∀ a b, r a b → rank a < rank b) : Acyclic r :=
  fun _ hcycle => lt_irrefl _ (rank_lt_of_path h hcycle)

/-- A nonempty list of nodes has one that no other of them has an edge to. -/
theorem Acyclic.exists_minimal (h : Acyclic r) {nodes : List α} (hne : nodes ≠ []) :
    ∃ a ∈ nodes, ∀ b ∈ nodes, ¬ r b a := by
  let below : {a // a ∈ nodes} → {a // a ∈ nodes} → Prop := fun a b => TransGen r a.1 b.1
  classical
  have htrans : IsTrans _ below := ⟨fun a b c hab hbc => hab.trans hbc⟩
  have hirrefl : Std.Irrefl below := ⟨fun a => h a.1⟩
  have hwf : WellFounded below := Finite.wellFounded_of_trans_of_irrefl below
  obtain ⟨first, hfirst⟩ := List.exists_mem_of_ne_nil nodes hne
  obtain ⟨⟨a, ha⟩, -, hleast⟩ := hwf.has_min Set.univ ⟨⟨first, hfirst⟩, Set.mem_univ _⟩
  exact ⟨a, ha, fun b hb hedge => hleast ⟨b, hb⟩ (Set.mem_univ _) (.single hedge)⟩

theorem Acyclic.add_edge (h : Acyclic r) (hnew : ∀ c d, r' c d → r c d ∨ c = a ∧ d = b)
    (hback : ¬ ReflTransGen r b a) : Acyclic r' := by
  -- a path uses the new edge, or does not
  have hpath : ∀ c d, TransGen r' c d →
      TransGen r c d ∨ ReflTransGen r c a ∧ ReflTransGen r b d := by
    intro c d hcd
    induction hcd with
    | single hedge =>
      rcases hnew _ _ hedge with hold | ⟨rfl, rfl⟩
      · exact Or.inl (.single hold)
      · exact Or.inr ⟨.refl, .refl⟩
    | tail _ hedge ih =>
      rcases hnew _ _ hedge with hold | ⟨rfl, rfl⟩
      · rcases ih with ih | ⟨hto, hfrom⟩
        · exact Or.inl (ih.tail hold)
        · exact Or.inr ⟨hto, hfrom.tail hold⟩
      · rcases ih with ih | ⟨-, hfrom⟩
        · exact Or.inr ⟨ih.to_reflTransGen, .refl⟩
        · exact absurd hfrom hback
  intro c hcycle
  rcases hpath c c hcycle with hold | ⟨hto, hfrom⟩
  · exact h c hold
  · exact hback (hfrom.trans hto)

/-! ### Chains of a partial function -/

/-- From a node the function leads in `k` steps to the last node `z`. -/
inductive Chain (next : α → Option α) : ℕ → α → α → Prop
  | tip {a : α} (h : next a = none) : Chain next 0 a a
  | link {k : ℕ} {a b z : α} (h : next a = some b) (rest : Chain next k b z) :
    Chain next (k + 1) a z

namespace Chain

variable {next next' : α → Option α} {k : ℕ} {z : α}

/-- A node from which the function comes to an end is on no cycle. -/
theorem no_cycle (h : Chain next k a z) : ¬ TransGen (fun c d => next c = some d) a a := by
  intro hcycle
  induction h with
  | tip hnone =>
    obtain ⟨b, hedge, -⟩ := TransGen.head'_iff.mp hcycle
    exact some_ne_none b (hedge.symm.trans hnone)
  | link hsome _ ih =>
    obtain ⟨b, hedge, hback⟩ := TransGen.head'_iff.mp hcycle
    cases hsome.symm.trans hedge
    exact ih (.tail' hback hsome)

theorem last_iff (h : Chain next k a z) (hb : next b = none) :
    z = b ↔ ReflTransGen (fun c d => next c = some d) a b := by
  induction h with
  | tip hnone =>
    refine ⟨fun heq => heq ▸ .refl, fun hpath => ?_⟩
    rcases hpath.cases_head with heq | ⟨c, hedge, -⟩
    · exact heq
    · exact absurd (hedge.symm.trans hnone) (some_ne_none c)
  | link hsome _ ih =>
    rw [ih]
    refine ⟨fun hpath => hpath.head hsome, fun hpath => ?_⟩
    rcases hpath.cases_head with rfl | ⟨c, hedge, hpath⟩
    · exact absurd (hsome.symm.trans hb) (some_ne_none _)
    · cases hsome.symm.trans hedge
      exact hpath

/-- A last node other than `z` can be given a successor. -/
theorem congr (h : Chain next k a z) (hb : next b = none) (hz : z ≠ b)
    (hsame : ∀ c, c ≠ b → next' c = next c) : Chain next' k a z := by
  induction h with
  | tip hnone => exact .tip ((hsame _ hz).trans hnone)
  | link hsome _ ih =>
    refine .link ((hsame _ ?_).trans hsome) (ih hz)
    rintro rfl
    exact some_ne_none _ (hsome.symm.trans hb)

/-- Chains still end when a node is changed from which there then is one. -/
theorem update (h : Chain next k a z) (hb : ∃ l y, Chain next' l b y)
    (hsame : ∀ c, c ≠ b → next' c = next c) : ∃ l y, Chain next' l a y := by
  induction h with
  | @tip a hnone =>
    by_cases hab : a = b
    · exact hab ▸ hb
    · exact ⟨0, a, .tip ((hsame a hab).trans hnone)⟩
  | @link _ a _ _ hsome _ ih =>
    by_cases hab : a = b
    · exact hab ▸ hb
    · obtain ⟨l, y, hrest⟩ := ih
      exact ⟨l + 1, y, .link ((hsame a hab).trans hsome) hrest⟩

end Chain

end Pandora.Lib.Graphs
