import Pandora.Lib.Graphs
import Pandora.Orchestration.Plan

/-! # The cycle check is exact

The roles that the cycle check marks can be put in an order in which each comes after its
dependencies (`Listed`). If it does not mark all of them, every role that is left depends on one
that is left, and since there are finitely many, some of them form a cycle. -/

namespace Pandora.Orchestration

open Relation Ids Lib.Checked Lib.OrderedSets Lib.Graphs List OrderedSet

variable {roles : List RoleAssignment}

/-- The role with the first identifier depends on the second. -/
def DependsOn (roles : List RoleAssignment) (a b : RoleId) : Prop :=
  ∃ role ∈ roles, role.id = a ∧ b ∈ role.dependsOn

/-- Each role comes after its dependencies. -/
def DependencyOrder (order : List RoleAssignment) : Prop :=
  ∀ before role after, order = before ++ role :: after →
    ∀ dependency ∈ role.dependsOn, dependency ∈ before.map RoleAssignment.id

theorem dependencyOrder_nil : DependencyOrder [] := by
  intro before role after h
  have hlength := congrArg List.length h
  rw [length_append, length_cons, length_nil] at hlength
  omega

theorem DependencyOrder.snoc {order : List RoleAssignment} {role : RoleAssignment}
    (h : DependencyOrder order)
    (hrole : ∀ dependency ∈ role.dependsOn, dependency ∈ order.map RoleAssignment.id) :
    DependencyOrder (order ++ [role]) := by
  intro before last after hsplit
  rcases eq_nil_or_concat after with rfl | ⟨after, last', rfl⟩
  · obtain ⟨rfl, hlast⟩ := append_inj' hsplit rfl
    obtain rfl : role = last := singleton_inj.mp hlast
    exact hrole
  · have hinit : order = before ++ last :: after := by
      have hconcat : order ++ [role] = (before ++ last :: after) ++ [last'] := by
        rw [hsplit, concat_eq_append, append_assoc]
        rfl
      exact (append_inj' hconcat rfl).1
    exact h before last after hinit

/-! ### What the check marks -/

/-- What a pass keeps that keeps marking a role whose dependencies are marked. -/
theorem settlePass_invariant {P : OrderedSet RoleId → Prop}
    (hP : ∀ S, ∀ role ∈ roles, P S → role.id ∉ S → (∀ dependency ∈ role.dependsOn, dependency ∈ S) →
      P (S.insert role.id)) :
    ∀ (rs : List RoleAssignment) (state : OrderedSet RoleId × Bool), rs ⊆ roles → P state.1 →
      P (rs.foldl settleRole state).1
  | [], _, _, h => h
  | role :: rs, state, hrs, h => by
    rw [foldl_cons]
    refine settlePass_invariant hP rs _ (fun r hr => hrs (mem_cons_of_mem _ hr)) ?_
    unfold settleRole
    split_ifs with hmark
    · have hdeps := RoleAssignment.dependenciesIn_iff.mp hmark.2
      exact hP _ role (hrs mem_cons_self) h hmark.1 hdeps
    · exact h

theorem settle_invariant {P : OrderedSet RoleId → Prop}
    (hP : ∀ S, ∀ role ∈ roles, P S → role.id ∉ S → (∀ dependency ∈ role.dependsOn, dependency ∈ S) →
      P (S.insert role.id)) :
    ∀ (fuel : ℕ) (completed : OrderedSet RoleId), P completed → P (settle roles fuel completed)
  | 0, _, h => h
  | fuel + 1, completed, h => by
    have hpass := settlePass_invariant hP roles (completed, false) (fun _ hr => hr) h
    rw [settle]
    split_ifs
    · exact settle_invariant hP fuel _ hpass
    · exact hpass

/-- The marked roles, in an order in which each comes after its dependencies. -/
def Listed (roles : List RoleAssignment) (completed : OrderedSet RoleId) : Prop :=
  ∃ order, order ⊆ roles ∧ DependencyOrder order ∧ (order.map RoleAssignment.id).Nodup ∧
    ∀ id, id ∈ completed ↔ id ∈ order.map RoleAssignment.id

theorem listed_settle (roles : List RoleAssignment) (fuel : ℕ) :
    Listed roles (settle roles fuel .empty) := by
  refine settle_invariant ?_ fuel .empty ?_
  · rintro S role hrole ⟨order, hsub, horder, hnodup, hmem⟩ hfresh hdeps
    have hdeps' : ∀ dependency ∈ role.dependsOn, dependency ∈ order.map RoleAssignment.id :=
      fun dependency hd => (hmem dependency).mp (hdeps dependency hd)
    refine ⟨order ++ [role], ?_, horder.snoc hdeps', ?_, fun id => ?_⟩
    · intro r hr
      rcases mem_append.mp hr with hr | hr
      · exact hsub hr
      · rw [mem_singleton.mp hr]
        exact hrole
    · rw [map_append, map_singleton, nodup_append]
      refine ⟨hnodup, nodup_singleton _, ?_⟩
      rintro id hid id' hid' rfl
      rw [mem_singleton.mp hid'] at hid
      exact hfresh ((hmem role.id).mpr hid)
    · rw [OrderedSet.mem_insert, map_append, map_singleton, mem_append,
        mem_singleton, hmem]
      exact or_comm
  · refine ⟨[], nil_subset _, dependencyOrder_nil, nodup_nil, fun id => ?_⟩
    exact iff_of_false OrderedSet.not_mem_empty not_mem_nil

/-- When a pass marks nothing, every role with marked dependencies is marked. -/
theorem settlePass_closed : ∀ {rs : List RoleAssignment} {state : OrderedSet RoleId × Bool},
    rs.foldl settleRole state = state → ∀ role ∈ rs,
      (∀ dependency ∈ role.dependsOn, dependency ∈ state.1) → role.id ∈ state.1
  | [], _, _, _, hrole, _ => absurd hrole not_mem_nil
  | first :: rs, state, h, role, hrole, hdeps => by
    rw [foldl_cons] at h
    by_cases hmark : first.id ∉ state.1 ∧ first.dependenciesIn state.1
    · have hstep : settleRole state first = (state.1.insert first.id, true) := if_pos hmark
      have hcard : (settleRole state first).1.card = state.1.card + 1 := by
        rw [hstep]
        exact card_insert hmark.1
      rcases settlePass_cases rs (settleRole state first) with hsame | ⟨-, hlt⟩
      · rw [← hsame, h] at hcard
        omega
      · rw [h] at hlt
        omega
    · have hstep : settleRole state first = state := if_neg hmark
      rw [hstep] at h
      rcases mem_cons.mp hrole with rfl | hrole
      · by_contra hfresh
        exact hmark ⟨hfresh, RoleAssignment.dependenciesIn_iff.mpr hdeps⟩
      · exact settlePass_closed h role hrole hdeps

theorem settle_closed (roles : List RoleAssignment) : ∀ role ∈ roles,
    (∀ dependency ∈ role.dependsOn, dependency ∈ settle roles (roles.length + 1) .empty) →
    role.id ∈ settle roles (roles.length + 1) .empty :=
  settlePass_closed (settle_stable roles)

/-! ### Orders and cycles -/

/-- In an order of all the roles, no identifier leads back to itself. -/
theorem acyclic_of_order (hids : (roles.map RoleAssignment.id).Nodup) {order : List RoleAssignment}
    (hperm : order.Perm roles) (horder : DependencyOrder order) : Acyclic (DependsOn roles) := by
  have hnodup : (order.map RoleAssignment.id).Nodup := (hperm.map _).nodup_iff.mpr hids
  -- every edge goes to a smaller position
  have hedge : ∀ a b, DependsOn roles a b →
      (order.map RoleAssignment.id).idxOf b < (order.map RoleAssignment.id).idxOf a := by
    rintro a b ⟨role, hrole, rfl, hb⟩
    obtain ⟨before, after, hsplit⟩ := append_of_mem (hperm.mem_iff.mpr hrole)
    have hbefore := horder before role after hsplit b hb
    have hmap : order.map RoleAssignment.id = before.map RoleAssignment.id ++
        (role.id :: after.map RoleAssignment.id) := by
      rw [hsplit, map_append, map_cons]
    rw [hmap] at hnodup ⊢
    have hfresh : role.id ∉ before.map RoleAssignment.id := by
      intro hmem
      exact (nodup_append.mp hnodup).2.2 _ hmem _ mem_cons_self rfl
    rw [idxOf_append_of_mem hbefore, idxOf_append_of_notMem hfresh]
    exact Nat.lt_add_right _ (idxOf_lt_length_of_mem hbefore)
  have hpath : ∀ a b, TransGen (DependsOn roles) a b →
      (order.map RoleAssignment.id).idxOf b < (order.map RoleAssignment.id).idxOf a := by
    intro a b h
    induction h with
    | single h => exact hedge _ _ h
    | tail _ h ih => exact (hedge _ _ h).trans ih
  intro a hcycle
  exact absurd (hpath a a hcycle) (lt_irrefl _)

/-- In a graph without a cycle, a nonempty list of roles has one that depends on none of them. -/
theorem exists_minimal (hacyclic : Acyclic (DependsOn roles)) {stuck : List RoleAssignment}
    (hstuck : stuck ≠ []) (hsub : stuck ⊆ roles) :
    ∃ role ∈ stuck, ∀ other ∈ stuck, other.id ∉ role.dependsOn := by
  let below : {id // id ∈ stuck.map RoleAssignment.id} → {id // id ∈ stuck.map RoleAssignment.id} →
      Prop := fun a b => TransGen (DependsOn roles) b.1 a.1
  have htrans : IsTrans _ below := ⟨fun a b c hab hbc => hbc.trans hab⟩
  have hirrefl : Std.Irrefl below := ⟨fun a => hacyclic a.1⟩
  have hwf : WellFounded below := Finite.wellFounded_of_trans_of_irrefl below
  obtain ⟨first, hfirst⟩ := exists_mem_of_ne_nil stuck hstuck
  obtain ⟨⟨id, hid⟩, -, hleast⟩ := hwf.has_min Set.univ
    ⟨⟨first.id, mem_map_of_mem hfirst⟩, Set.mem_univ _⟩
  obtain ⟨role, hrole, rfl⟩ := mem_map.mp hid
  refine ⟨role, hrole, fun other hother hdepends => ?_⟩
  refine hleast ⟨other.id, mem_map_of_mem hother⟩ (Set.mem_univ _) (.single ?_)
  exact ⟨role, hsub hrole, rfl, hdepends⟩

theorem settled_of_acyclic
    (hknown : ∀ role ∈ roles, ∀ dependency ∈ role.dependsOn, ∃ r ∈ roles, r.id = dependency)
    (hacyclic : Acyclic (DependsOn roles)) :
    ∀ role ∈ roles, role.id ∈ settle roles (roles.length + 1) .empty := by
  set settled := settle roles (roles.length + 1) .empty with hsettled
  have hnone : roles.filter (fun role => role.id ∉ settled) = [] := by
    by_contra hstuck
    obtain ⟨role, hrole, hleast⟩ := exists_minimal hacyclic hstuck (filter_subset_self _)
    obtain ⟨hmem, hleft⟩ := mem_filter.mp hrole
    refine of_decide_eq_true hleft ?_
    refine settle_closed roles role hmem fun dependency hd => ?_
    obtain ⟨other, hother, rfl⟩ := hknown role hmem dependency hd
    by_contra hopen
    exact hleast other (mem_filter.mpr ⟨hother, decide_eq_true hopen⟩) hd
  intro role hrole
  by_contra hleft
  have hmem : role ∈ roles.filter fun role => role.id ∉ settled :=
    mem_filter.mpr ⟨hrole, decide_eq_true hleft⟩
  rw [hnone] at hmem
  exact absurd hmem not_mem_nil

theorem card_of_settled (hids : (roles.map RoleAssignment.id).Nodup)
    (hall : ∀ role ∈ roles, role.id ∈ settle roles (roles.length + 1) .empty) :
    (settle roles (roles.length + 1) .empty).card = roles.length := by
  obtain ⟨order, hsub, -, hnodup, hmem⟩ := listed_settle roles (roles.length + 1)
  refine le_antisymm ?_ ?_
  · have hupper : (settle roles (roles.length + 1) .empty).card ≤
        (roles.map RoleAssignment.id).length :=
      card_le_length fun id hid =>
        map_subset _ hsub ((hmem id).mp hid)
    rwa [length_map] at hupper
  · have hsubperm : (roles.map RoleAssignment.id).Subperm
        (settle roles (roles.length + 1) .empty).elems := by
      refine hids.subperm fun id hid => ?_
      obtain ⟨role, hrole, rfl⟩ := mem_map.mp hid
      exact hall role hrole
    have hlength := hsubperm.length_le
    rwa [length_map] at hlength

theorem order_of_card (h : (settle roles (roles.length + 1) .empty).card = roles.length) :
    ∃ order : List RoleAssignment, order.Perm roles ∧ DependencyOrder order := by
  obtain ⟨order, hsub, horder, hnodup, hmem⟩ := listed_settle roles (roles.length + 1)
  have hlength : roles.length ≤ order.length := by
    rw [← h, ← @length_map _ _ order RoleAssignment.id]
    exact card_le_length fun id hid => (hmem id).mp hid
  refine ⟨order, ?_, horder⟩
  exact (hnodup.of_map.subperm hsub).perm_of_length_le hlength

/-- **The cycle check finds the cycles.** -/
theorem hasDependencyCycle_iff (hids : (roles.map RoleAssignment.id).Nodup)
    (hknown : ∀ role ∈ roles, ∀ dependency ∈ role.dependsOn, ∃ r ∈ roles, r.id = dependency) :
    hasDependencyCycle roles = true ↔ ¬ Acyclic (DependsOn roles) := by
  rw [hasDependencyCycle, decide_eq_true_eq, not_iff_not]
  constructor
  · intro hcard
    obtain ⟨order, hperm, horder⟩ := order_of_card hcard
    exact acyclic_of_order hids hperm horder
  · intro hacyclic
    exact card_of_settled hids (settled_of_acyclic hknown hacyclic)

/-! ### Accepting a plan -/

/-- The checks of `OrchestrationPlan::new` without the one for cycles. -/
def checksButCycle (roles : List RoleAssignment) (maxParallelism maxHandoffs : ℕ)
    (handoffs : List Handoff) : Except OrchestrationContractError Unit := do
  ensure (roles ≠ []) (.emptyField "roles")
  ensure (roles.length ≤ maxOrchestrationRoles) (.limitExceeded "roles")
  ensure (maxParallelism ≠ 0) (.invalidLimit "max parallelism")
  ensure (maxParallelism ≤ roles.length ∧ maxParallelism ≤ maxOrchestrationRoles)
    (.limitExceeded "max parallelism")
  ensure (maxHandoffs ≤ maxOrchestrationHandoffs) (.limitExceeded "max handoffs")
  ensure (handoffs.length % 2 ^ 32 ≤ maxHandoffs) .tooManyHandoffs
  roles.forM RoleAssignment.validate
  distinctIds [] roles
  roles.forM (checkDependencies roles)
  handoffs.forM (checkHandoff roles)

theorem checkPlan_iff {maxParallelism maxHandoffs : ℕ} {handoffs : List Handoff} :
    checkPlan roles maxParallelism maxHandoffs handoffs = .ok () ↔
      checksButCycle roles maxParallelism maxHandoffs handoffs = .ok () ∧
        hasDependencyCycle roles = false := by
  simp only [checkPlan, checksButCycle, bind_eq_ok, ensure_eq_ok, exists_const, Bool.not_eq_true]
  constructor
  · rintro ⟨h1, h2, h3, h4, h5, h6, u, hroles, v, hids, w, hdeps, hcycle, hhandoffs⟩
    exact ⟨⟨h1, h2, h3, h4, h5, h6, u, hroles, v, hids, w, hdeps, hhandoffs⟩, hcycle⟩
  · rintro ⟨⟨h1, h2, h3, h4, h5, h6, u, hroles, v, hids, w, hdeps, hhandoffs⟩, hcycle⟩
    exact ⟨h1, h2, h3, h4, h5, h6, u, hroles, v, hids, w, hdeps, hcycle, hhandoffs⟩

theorem new_iff {id : PlanId} {maxParallelism maxHandoffs : ℕ} {handoffs : List Handoff} :
    (∃ plan, OrchestrationPlan.new id roles maxParallelism maxHandoffs handoffs = .ok plan) ↔
      checkPlan roles maxParallelism maxHandoffs handoffs = .ok () := by
  unfold OrchestrationPlan.new
  split
  · rename_i h
    exact iff_of_true ⟨_, rfl⟩ h
  · rename_i e h
    rw [h]
    exact iff_of_false (fun ⟨_, hplan⟩ => nomatch hplan) nofun

/-- **Dependency validation is exact**: a plan that passes the other checks is accepted exactly if
its roles can be put in an order in which each comes after its dependencies. -/
theorem dependency_validation_exact (roles : List RoleAssignment)
    (hids : (roles.map RoleAssignment.id).Nodup)
    (hknown : ∀ role ∈ roles, ∀ dependency ∈ role.dependsOn, ∃ r ∈ roles, r.id = dependency) :
    (hasDependencyCycle roles = true ↔ ¬ Acyclic (DependsOn roles)) ∧
    ∀ (id : PlanId) (maxParallelism maxHandoffs : ℕ) (handoffs : List Handoff),
      checksButCycle roles maxParallelism maxHandoffs handoffs = .ok () →
      ((∃ plan, OrchestrationPlan.new id roles maxParallelism maxHandoffs handoffs = .ok plan) ↔
        ∃ order : List RoleAssignment, order.Perm roles ∧ DependencyOrder order) := by
  have hcycle := hasDependencyCycle_iff hids hknown
  refine ⟨hcycle, fun id maxParallelism maxHandoffs handoffs hchecks => ?_⟩
  rw [new_iff, checkPlan_iff, and_iff_right hchecks]
  constructor
  · intro hnone
    refine order_of_card ?_
    simpa [hasDependencyCycle] using hnone
  · rintro ⟨order, hperm, horder⟩
    have hacyclic := acyclic_of_order hids hperm horder
    rw [← Bool.not_eq_true, hcycle, not_not]
    exact hacyclic

/-- A maker that waits for a planner. -/
def sampleRoles : List RoleAssignment :=
  [⟨.ofLiteral "maker", .maker, .ofLiteral "coding-domain", [.ofLiteral "planner"]⟩,
    ⟨.ofLiteral "planner", .planner, .ofLiteral "coding-domain", []⟩]

theorem sampleRoles_validation :
    (hasDependencyCycle sampleRoles = true ↔ ¬ Acyclic (DependsOn sampleRoles)) ∧
      ((∃ plan, OrchestrationPlan.new (.ofLiteral "coding") sampleRoles 2 4 [] = .ok plan) ↔
        ∃ order : List RoleAssignment, order.Perm sampleRoles ∧ DependencyOrder order) := by
  have h := dependency_validation_exact sampleRoles (by decide +kernel) (by decide +kernel)
  exact ⟨h.1, h.2 _ 2 4 [] (by decide +kernel)⟩

end Pandora.Orchestration
