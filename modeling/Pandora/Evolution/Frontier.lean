import Mathlib

/-! # The Pareto frontier

`ParetoFrontier` of `evolution.rs`; pass rates are any linear order. Dominance is the strict order
of the product of the three objectives (`dominates_iff`), so whatever a list holds is dominated by,
or as good as, something maximal in it: an insertion need not know what earlier ones dropped. A
measurement that replaces another of the same id is a different matter, unless it is as good. -/

namespace Pandora.Evolution.Frontier

open List

structure ParetoCandidate (Rate : Type) where
  id : String
  passRate : Rate
  tokenCost : UInt32
  latencyMs : UInt64
deriving DecidableEq

variable {Rate : Type} [LinearOrder Rate] {c d e : ParetoCandidate Rate}
  {l : List (ParetoCandidate Rate)}

def ParetoCandidate.dominates (c other : ParetoCandidate Rate) : Bool :=
  let noWorse := other.passRate ≤ c.passRate ∧ c.tokenCost ≤ other.tokenCost ∧
    c.latencyMs ≤ other.latencyMs
  let strictlyBetter := other.passRate < c.passRate ∨ c.tokenCost < other.tokenCost ∨
    c.latencyMs < other.latencyMs
  noWorse ∧ strictlyBetter

/-- The candidates of a frontier. -/
abbrev ParetoFrontier (Rate : Type) := List (ParetoCandidate Rate)

namespace ParetoFrontier

variable {frontier : ParetoFrontier Rate}

def isDominated (frontier : ParetoFrontier Rate) (candidate : ParetoCandidate Rate) : Bool :=
  frontier.any (·.dominates candidate)

/-- Whether the candidate is accepted, and the frontier after it. -/
def tryInsert (frontier : ParetoFrontier Rate) (candidate : ParetoCandidate Rate) :
    Bool × ParetoFrontier Rate :=
  if frontier.isDominated candidate then (false, frontier)
  else
    let kept := frontier.filter fun existing => !candidate.dominates existing
    if ¬ kept.any (·.id = candidate.id) then (true, kept ++ [candidate])
    else (true, kept.replaceF fun existing =>
      if existing.id = candidate.id then some candidate else none)

/-- The frontier after a list of submissions. -/
def inserts (l : List (ParetoCandidate Rate)) : ParetoFrontier Rate :=
  l.foldl (fun frontier candidate => (frontier.tryInsert candidate).2) []

end ParetoFrontier

/-! ### The order of the objectives -/

def ParetoCandidate.objectives (c : ParetoCandidate Rate) : Rate × ℕᵒᵈ × ℕᵒᵈ :=
  (c.passRate, .toDual c.tokenCost.toNat, .toDual c.latencyMs.toNat)

/-- **Dominance is the strict product order.** -/
theorem dominates_iff : c.dominates d ↔ d.objectives < c.objectives := by
  simp only [ParetoCandidate.dominates, ParetoCandidate.objectives, decide_eq_true_eq,
    lt_iff_le_not_ge, Prod.mk_le_mk, OrderDual.toDual_le_toDual, UInt32.le_iff_toNat_le,
    UInt64.le_iff_toNat_le, UInt32.lt_iff_toNat_lt, UInt64.lt_iff_toNat_lt]
  grind

omit [LinearOrder Rate] in
theorem eq_of_objectives (hid : c.id = d.id) (h : c.objectives = d.objectives) : c = d := by
  obtain ⟨hrate, hcost⟩ := Prod.mk.inj h
  obtain ⟨htokens, hlatency⟩ := Prod.mk.inj hcost
  cases c
  cases d
  exact congr (congr (congr (congrArg _ hid) hrate)
    (UInt32.toNat_inj.mp (OrderDual.toDual_inj.mp htokens)))
    (UInt64.toNat_inj.mp (OrderDual.toDual_inj.mp hlatency))

/-- No candidate of the list dominates this one. -/
def Undominated (l : List (ParetoCandidate Rate)) (c : ParetoCandidate Rate) : Prop :=
  ∀ d ∈ l, ¬ d.dominates c

/-- **Nothing below a list escapes its frontier.** -/
theorem exists_undominated (hc : c ∈ l) :
    ∃ d ∈ l, Undominated l d ∧ c.objectives ≤ d.objectives := by
  obtain ⟨top, hle, hmax⟩ :=
    ((finite_toSet l).image ParetoCandidate.objectives).exists_le_maximal
      (Set.mem_image_of_mem _ hc)
  obtain ⟨d, hd, rfl⟩ := hmax.prop
  refine ⟨d, hd, fun e he hdom => ?_, hle⟩
  exact hmax.not_gt (Set.mem_image_of_mem _ he) (dominates_iff.mp hdom)

/-! ### Insertions -/

/-- A new measurement of an id is at least as good as the earlier ones in every objective. -/
def Improving (l : List (ParetoCandidate Rate)) : Prop :=
  l.Pairwise fun old new => old.id = new.id → old.objectives ≤ new.objectives

theorem improving_of_nodup (h : (l.map (·.id)).Nodup) : Improving l :=
  (pairwise_map.mp h).imp fun hne hid => absurd hid hne

omit [LinearOrder Rate] in
theorem replaceF_self : ∀ {l : List (ParetoCandidate Rate)}, (∀ d ∈ l, d.id = c.id → d = c) →
    l.replaceF (fun d => if d.id = c.id then some c else none) = l
  | [], _ => rfl
  | d :: l, h => by
    rw [replaceF_cons]
    by_cases hid : d.id = c.id
    · rw [if_pos hid, h d mem_cons_self hid]
    · rw [if_neg hid, replaceF_self fun e he => h e (mem_cons_of_mem d he)]

/-- One insertion, if the entries of the same id are no better. -/
theorem mem_tryInsert {frontier : ParetoFrontier Rate}
    (h : ∀ d ∈ frontier, d.id = c.id → d.objectives ≤ c.objectives) :
    e ∈ (frontier.tryInsert c).2 ↔ if frontier.isDominated c then e ∈ frontier
      else e = c ∨ e ∈ frontier ∧ ¬ c.dominates e := by
  unfold ParetoFrontier.tryInsert
  by_cases hdom : frontier.isDominated c
  · rw [if_pos hdom, if_pos hdom]
  rw [if_neg hdom, if_neg hdom]
  have hkept : e ∈ frontier.filter (fun existing => !c.dominates existing) ↔
      e ∈ frontier ∧ ¬ c.dominates e := by
    rw [mem_filter, Bool.not_eq_true', Bool.not_eq_true]
  dsimp only
  split_ifs with hnew
  · -- the entry of the same id is the candidate itself
    have hsame : ∀ d ∈ frontier.filter (fun existing => !c.dominates existing), d.id = c.id →
        d = c := by
      intro d hd hid
      obtain ⟨hmem, hnot⟩ := mem_filter.mp hd
      refine eq_of_objectives hid ((h d hmem hid).antisymm ?_)
      by_contra hlt
      rw [dominates_iff.mpr (lt_of_le_not_ge (h d hmem hid) hlt)] at hnot
      exact absurd hnot (by decide)
    obtain ⟨d, hd, hid⟩ := any_eq_true.mp hnew
    obtain rfl := hsame d hd (of_decide_eq_true hid)
    rw [replaceF_self hsame, hkept]
    refine ⟨Or.inr, ?_⟩
    rintro (rfl | he)
    · exact hkept.mp hd
    · exact he
  · rw [mem_append, mem_singleton, hkept, or_comm]

theorem undominated_append {new : ParetoCandidate Rate} :
    Undominated (l ++ [new]) c ↔ Undominated l c ∧ ¬ new.dominates c := by
  unfold Undominated
  rw [forall_mem_append, forall_mem_singleton]

/-- **The frontier is exact** for improving measurements. -/
theorem mem_inserts (h : Improving l) :
    c ∈ ParetoFrontier.inserts l ↔ c ∈ l ∧ Undominated l c := by
  induction l using List.reverseRecOn generalizing c with
  | nil => simp [ParetoFrontier.inserts]
  | append_singleton l new ih =>
    obtain ⟨hl, -, hnew⟩ := pairwise_append.mp h
    have hbest : ∀ d ∈ ParetoFrontier.inserts l, d.id = new.id → d.objectives ≤ new.objectives :=
      fun d hd => hnew d ((ih hl).mp hd).1 new mem_cons_self
    have hdom : (ParetoFrontier.inserts l).isDominated new ↔ ¬ Undominated l new := by
      unfold ParetoFrontier.isDominated Undominated
      rw [any_eq_true]
      push Not
      constructor
      · rintro ⟨d, hd, hbelow⟩
        exact ⟨d, ((ih hl).mp hd).1, hbelow⟩
      · rintro ⟨d, hd, hbelow⟩
        obtain ⟨top, htop, hun, hle⟩ := exists_undominated hd
        exact ⟨top, (ih hl).mpr ⟨htop, hun⟩,
          dominates_iff.mpr ((dominates_iff.mp hbelow).trans_le hle)⟩
    have hstep : ParetoFrontier.inserts (l ++ [new]) =
        ((ParetoFrontier.inserts l).tryInsert new).2 := by
      rw [ParetoFrontier.inserts, foldl_append, foldl_cons, foldl_nil]
      rfl
    rw [hstep, mem_tryInsert hbest, undominated_append, mem_append, mem_singleton]
    split_ifs with hbelow
    · rw [ih hl]
      obtain ⟨d, hd, hlt⟩ := any_eq_true.mp hbelow
      have hlt := dominates_iff.mp hlt
      constructor
      · rintro ⟨hmem, hun⟩
        refine ⟨Or.inl hmem, hun, fun hnew => hun d ((ih hl).mp hd).1 ?_⟩
        exact dominates_iff.mpr ((dominates_iff.mp hnew).trans hlt)
      · rintro ⟨hmem | rfl, hun, -⟩
        · exact ⟨hmem, hun⟩
        · exact absurd hun (hdom.mp hbelow)
    · rw [ih hl]
      have hun := not_not.mp (mt hdom.mpr hbelow)
      constructor
      · rintro (rfl | ⟨⟨hmem, hc⟩, hnot⟩)
        · exact ⟨Or.inr rfl, hun, fun hself => lt_irrefl _ (dominates_iff.mp hself)⟩
        · exact ⟨Or.inl hmem, hc, hnot⟩
      · rintro ⟨hmem | rfl, hc, hnot⟩
        · exact Or.inr ⟨⟨hmem, hc⟩, hnot⟩
        · exact Or.inl rfl

omit [LinearOrder Rate] in
theorem map_replaceF : ∀ l : List (ParetoCandidate Rate),
    (l.replaceF (fun d => if d.id = c.id then some c else none)).map (·.id) = l.map (·.id)
  | [] => rfl
  | d :: l => by
    rw [replaceF_cons]
    by_cases hid : d.id = c.id
    · rw [if_pos hid, map_cons, map_cons, hid]
    · rw [if_neg hid, map_cons, map_cons, map_replaceF l]

/-- A frontier has one entry of each id. -/
theorem nodup_tryInsert {frontier : ParetoFrontier Rate} (h : (frontier.map (·.id)).Nodup) :
    ((frontier.tryInsert c).2.map (·.id)).Nodup := by
  unfold ParetoFrontier.tryInsert
  have hkept : ((frontier.filter fun existing => !c.dominates existing).map (·.id)).Nodup :=
    h.sublist (filter_sublist.map _)
  dsimp only
  split_ifs with hdom hnew
  · exact h
  · rw [map_replaceF]
    exact hkept
  · rw [map_append, map_singleton]
    refine hkept.append (nodup_singleton _) (disjoint_singleton.mpr fun hmem => hnew ?_)
    obtain ⟨d, hd, hid⟩ := mem_map.mp hmem
    exact any_eq_true.mpr ⟨d, hd, decide_eq_true hid⟩

theorem nodup_inserts : ((ParetoFrontier.inserts l).map (·.id)).Nodup := by
  induction l using List.reverseRecOn with
  | nil => exact nodup_nil
  | append_singleton l new ih =>
    rw [ParetoFrontier.inserts, foldl_append, foldl_cons, foldl_nil]
    exact nodup_tryInsert ih

/-! ### The latest measurements -/

/-- The last submission of each id. -/
def latest : List (ParetoCandidate Rate) → List (ParetoCandidate Rate)
  | [] => []
  | c :: l => if l.any (·.id = c.id) then latest l else c :: latest l

omit [LinearOrder Rate] in
theorem latest_subset : ∀ l : List (ParetoCandidate Rate), latest l ⊆ l
  | [] => List.Subset.refl []
  | c :: l => by
    unfold latest
    split_ifs
    · exact List.Subset.trans (latest_subset l) (subset_cons_self c l)
    · exact cons_subset_cons c (latest_subset l)

theorem exists_latest : ∀ {l : List (ParetoCandidate Rate)}, Improving l → ∀ {c}, c ∈ l →
    ∃ d ∈ latest l, d.id = c.id ∧ c.objectives ≤ d.objectives
  | [], _, _, hc => absurd hc not_mem_nil
  | a :: l, h, c, hc => by
    obtain ⟨hbetter, hl⟩ := pairwise_cons.mp h
    unfold latest
    split_ifs with hagain
    · rcases mem_cons.mp hc with rfl | hc
      · obtain ⟨b, hb, hid⟩ := any_eq_true.mp hagain
        have hid := of_decide_eq_true hid
        obtain ⟨d, hd, hdid, hle⟩ := exists_latest hl hb
        exact ⟨d, hd, hdid.trans hid, (hbetter b hb hid.symm).trans hle⟩
      · exact exists_latest hl hc
    · rcases mem_cons.mp hc with rfl | hc
      · exact ⟨c, mem_cons_self, rfl, le_rfl⟩
      · obtain ⟨d, hd, hle⟩ := exists_latest hl hc
        exact ⟨d, mem_cons_of_mem a hd, hle⟩

/-- Older measurements that are no better change nothing. -/
theorem undominated_latest (h : Improving l) :
    c ∈ l ∧ Undominated l c ↔ c ∈ latest l ∧ Undominated (latest l) c := by
  constructor
  · rintro ⟨hc, hun⟩
    obtain ⟨d, hd, hid, hle⟩ := exists_latest h hc
    have hd' := latest_subset l hd
    obtain rfl := eq_of_objectives hid (hle.antisymm'
      (not_lt_iff_le_imp_ge.mp (fun hlt => hun d hd' (dominates_iff.mpr hlt)) hle))
    exact ⟨hd, fun e he => hun e (latest_subset l he)⟩
  · rintro ⟨hc, hun⟩
    refine ⟨latest_subset l hc, fun e he hdom => ?_⟩
    obtain ⟨d, hd, -, hle⟩ := exists_latest h he
    exact hun d hd (dominates_iff.mpr ((dominates_iff.mp hdom).trans_le hle))

/-- **The frontier is exact and independent of the order**: for candidates with different ids, and,
as long as a new measurement is at least as good as the earlier ones of its id, for the latest
measurements. It always has one entry of each id. -/
theorem frontier_exact (l : List (ParetoCandidate Rate)) :
    ((ParetoFrontier.inserts l).map (·.id)).Nodup ∧ ((l.map (·.id)).Nodup → ∀ l', l'.Perm l → ∀ c,
        (c ∈ ParetoFrontier.inserts l' ↔ c ∈ l ∧ Undominated l c)) ∧
      (Improving l → ∀ c,
        (c ∈ ParetoFrontier.inserts l ↔ c ∈ latest l ∧ Undominated (latest l) c)) := by
  refine ⟨nodup_inserts, fun hids l' hperm c => ?_, fun h c => ?_⟩
  · have hids' := (hperm.map (·.id)).nodup_iff.mpr hids
    rw [mem_inserts (improving_of_nodup hids'), hperm.mem_iff]
    unfold Undominated
    simp only [hperm.mem_iff]
  · rw [mem_inserts h, undominated_latest h]

theorem frontier_exact_draft :
    let l : List (ParetoCandidate ℕ) := [⟨"b", 5, 20, 10⟩, ⟨"a", 5, 10, 10⟩, ⟨"a", 6, 10, 10⟩]
    (∀ c, c ∈ ParetoFrontier.inserts (l.take 2).reverse ↔ c ∈ l.take 2 ∧ Undominated (l.take 2) c) ∧
      ∀ c, c ∈ ParetoFrontier.inserts l ↔ c ∈ latest l ∧ Undominated (latest l) c := by
  refine ⟨(frontier_exact _).2.1 (by decide) _ (reverse_perm _), (frontier_exact _).2.2 ?_⟩
  unfold Improving
  decide

/-- A measurement that is worse than the one before is not taken up. -/
theorem worse_measurement_ignored :
    let old : ParetoCandidate ℕ := ⟨"a", 5, 10, 10⟩
    let new : ParetoCandidate ℕ := ⟨"a", 4, 10, 10⟩
    latest [old, new] = [new] ∧ ParetoFrontier.inserts [old, new] = [old] := by
  decide

end Pandora.Evolution.Frontier
