import Pandora.Ids
import Pandora.Lib.OrderedSets

/-! # Orchestration plans

A plan is a list of roles, each with the roles it depends on, a bound on the roles that may run at a
time and the declared handoffs. `OrchestrationPlan.new` refuses repeated or unknown roles, a
dependency cycle and a handoff between harnesses that no meta harness coordinates; a plan carries
the proof that it was accepted.

The source keeps the roles in a map `by_id`; a lookup is a search in the list here. An identifier
carries its own validity, so `validate` does not check it a second time.

The cycle check marks roles until a pass over them marks nothing more. Every changed pass marks a
role, so one pass more than there are roles is enough (`settle_stable`). -/

namespace Pandora.Orchestration

open Ids Text Lib.Checked Lib.OrderedSets List OrderedSet

def maxOrchestrationRoles : ℕ := 64
def maxOrchestrationHandoffs : ℕ := 64

inductive OrchestrationRole
  | planner | maker | critic | verifier
  | custom (value : String)
deriving DecidableEq

inductive OrchestrationContractError
  | emptyField (field : String)
  | invalidLimit (field : String)
  | limitExceeded (field : String)
  | duplicateRole (id : RoleId)
  | unknownDependency (id : RoleId)
  | selfDependency (id : RoleId)
  | dependencyCycle
  | unknownHandoffRole (id : RoleId)
  | invalidHandoff
  | uncoordinatedCrossDomain (source target : HarnessId)
  | tooManyHandoffs
deriving DecidableEq

structure RoleAssignment where
  id : RoleId
  role : OrchestrationRole
  harnessId : HarnessId
  dependsOn : List RoleId
deriving DecidableEq

def RoleAssignment.validate (role : RoleAssignment) : Except OrchestrationContractError Unit := do
  match role.role with
  | .custom value =>
    ensure (¬ (trim value).isEmpty ∧ value.utf8ByteSize ≤ 64 ∧ ¬ value.toList.any isControl)
      (.emptyField "custom role")
  | _ => pure ()
  ensure role.dependsOn.Nodup (.duplicateRole role.id)

structure Handoff where
  (source target : RoleId)
  metaHarness : Option HarnessId
deriving DecidableEq

/-- `by_id.get`. -/
def roleById (roles : List RoleAssignment) (id : RoleId) : Option RoleAssignment :=
  roles.find? fun role => role.id = id

/-- The construction of `by_id`: the first role with an identifier that stands before it is
refused. -/
def distinctIds (seen : List RoleId) : List RoleAssignment → Except OrchestrationContractError Unit
  | [] => .ok ()
  | role :: roles => do
    ensure (role.id ∉ seen) (.duplicateRole role.id)
    distinctIds (role.id :: seen) roles

/-- All dependencies of the role are in the set. -/
def RoleAssignment.dependenciesIn (role : RoleAssignment) (completed : OrderedSet RoleId) : Bool :=
  role.dependsOn.all fun dependency => dependency ∈ completed

/-- One role of a pass of the cycle check. -/
def settleRole (state : OrderedSet RoleId × Bool) (role : RoleAssignment) :
    OrderedSet RoleId × Bool :=
  if role.id ∉ state.1 ∧ role.dependenciesIn state.1 then (state.1.insert role.id, true) else state

/-- The loop of the cycle check, for at most `fuel` passes. -/
def settle (roles : List RoleAssignment) : ℕ → OrderedSet RoleId → OrderedSet RoleId
  | 0, completed => completed
  | fuel + 1, completed =>
    let pass := roles.foldl settleRole (completed, false)
    if pass.2 then settle roles fuel pass.1 else pass.1

def hasDependencyCycle (roles : List RoleAssignment) : Bool :=
  (settle roles (roles.length + 1) .empty).card ≠ roles.length

def checkDependencies (roles : List RoleAssignment) (role : RoleAssignment) :
    Except OrchestrationContractError Unit :=
  role.dependsOn.forM fun dependency => do
    ensure (roleById roles dependency).isSome (.unknownDependency dependency)
    ensure (dependency ≠ role.id) (.selfDependency role.id)

def checkHandoff (roles : List RoleAssignment) (handoff : Handoff) :
    Except OrchestrationContractError Unit := do
  ensure (handoff.source ≠ handoff.target) .invalidHandoff
  let source ← orError (roleById roles handoff.source) (.unknownHandoffRole handoff.source)
  let target ← orError (roleById roles handoff.target) (.unknownHandoffRole handoff.target)
  ensure (source.harnessId = target.harnessId ∨ handoff.metaHarness.isSome)
    (.uncoordinatedCrossDomain source.harnessId target.harnessId)

/-- The checks of `OrchestrationPlan::new`. The number of handoffs is compared as `u32`. -/
def checkPlan (roles : List RoleAssignment) (maxParallelism maxHandoffs : ℕ)
    (handoffs : List Handoff) : Except OrchestrationContractError Unit := do
  ensure (roles ≠ []) (.emptyField "roles")
  ensure (roles.length ≤ maxOrchestrationRoles) (.limitExceeded "roles")
  ensure (maxParallelism ≠ 0) (.invalidLimit "max parallelism")
  ensure (maxParallelism ≤ roles.length ∧ maxParallelism ≤ maxOrchestrationRoles)
    (.limitExceeded "max parallelism")
  ensure (maxHandoffs ≤ maxOrchestrationHandoffs) (.limitExceeded "max handoffs")
  ensure (handoffs.length % 2 ^ 32 ≤ maxHandoffs) .tooManyHandoffs
  roles.forM RoleAssignment.validate
  distinctIds [] roles
  roles.forM (checkDependencies roles)
  ensure (¬ hasDependencyCycle roles) .dependencyCycle
  handoffs.forM (checkHandoff roles)

/-- A plan that passed the checks. -/
structure OrchestrationPlan where
  id : PlanId
  roles : List RoleAssignment
  (maxParallelism maxHandoffs : ℕ)
  handoffs : List Handoff
  accepted : checkPlan roles maxParallelism maxHandoffs handoffs = .ok ()
deriving DecidableEq

namespace OrchestrationPlan

def new (id : PlanId) (roles : List RoleAssignment) (maxParallelism maxHandoffs : ℕ)
    (handoffs : List Handoff) : Except OrchestrationContractError OrchestrationPlan :=
  match h : checkPlan roles maxParallelism maxHandoffs handoffs with
  | .ok () => .ok ⟨id, roles, maxParallelism, maxHandoffs, handoffs, h⟩
  | .error e => .error e

def role (plan : OrchestrationPlan) (id : RoleId) : Option RoleAssignment := roleById plan.roles id

/-- A role that is not completed and has all its dependencies completed. -/
def eligible (completed : OrderedSet RoleId) (role : RoleAssignment) : Bool :=
  role.id ∉ completed ∧ role.dependenciesIn completed

def readyRoles (plan : OrchestrationPlan) (completed : List RoleId) : List RoleAssignment :=
  (plan.roles.filter (eligible (.ofList completed))).take plan.maxParallelism

def handoff (plan : OrchestrationPlan) (source target : RoleId) : Option Handoff :=
  plan.handoffs.find? fun handoff => handoff.source = source ∧ handoff.target = target

end OrchestrationPlan

theorem RoleAssignment.dependenciesIn_iff {role : RoleAssignment} {completed : OrderedSet RoleId} :
    role.dependenciesIn completed ↔ ∀ dependency ∈ role.dependsOn, dependency ∈ completed := by
  simp [RoleAssignment.dependenciesIn]

theorem OrchestrationPlan.eligible_iff {role : RoleAssignment} {completed : OrderedSet RoleId} :
    OrchestrationPlan.eligible completed role ↔
      role.id ∉ completed ∧ ∀ dependency ∈ role.dependsOn, dependency ∈ completed := by
  simp [OrchestrationPlan.eligible, RoleAssignment.dependenciesIn_iff]

theorem isSome_roleById {roles : List RoleAssignment} {id : RoleId} :
    (roleById roles id).isSome ↔ ∃ role ∈ roles, role.id = id := by
  simp [roleById]

/-! ### The cycle check -/

section Settle

variable {roles : List RoleAssignment}

/-- A pass marks only identifiers that belong to every set closed under the dependencies. -/
theorem settlePass_subset {C : RoleId → Prop}
    (hC : ∀ role ∈ roles, (∀ dependency ∈ role.dependsOn, C dependency) → C role.id) :
    ∀ (rs : List RoleAssignment) (state : OrderedSet RoleId × Bool), rs ⊆ roles →
      (∀ id ∈ state.1, C id) → ∀ id ∈ (rs.foldl settleRole state).1, C id
  | [], _, _, h => h
  | role :: rs, state, hrs, h => by
    rw [foldl_cons]
    refine settlePass_subset hC rs _ (fun r hr => hrs (mem_cons_of_mem _ hr)) ?_
    unfold settleRole
    split_ifs with hmark
    · intro id hid
      rcases OrderedSet.mem_insert.mp hid with rfl | hid
      · have hdeps := RoleAssignment.dependenciesIn_iff.mp hmark.2
        exact hC role (hrs mem_cons_self) fun dependency hd => h _ (hdeps dependency hd)
      · exact h id hid
    · exact h

theorem settle_subset {C : RoleId → Prop}
    (hC : ∀ role ∈ roles, (∀ dependency ∈ role.dependsOn, C dependency) → C role.id) :
    ∀ (fuel : ℕ) (completed : OrderedSet RoleId), (∀ id ∈ completed, C id) →
      ∀ id ∈ settle roles fuel completed, C id
  | 0, _, h => h
  | fuel + 1, completed, h => by
    have hpass := settlePass_subset hC roles (completed, false) (fun _ hr => hr) h
    rw [settle]
    split_ifs
    · exact settle_subset hC fuel _ hpass
    · exact hpass

theorem settlePass_cases : ∀ (rs : List RoleAssignment) (state : OrderedSet RoleId × Bool),
    rs.foldl settleRole state = state ∨ ((rs.foldl settleRole state).2 = true ∧
        state.1.card < (rs.foldl settleRole state).1.card)
  | [], _ => Or.inl rfl
  | role :: rs, state => by
    have hrest := settlePass_cases rs (settleRole state role)
    rw [foldl_cons]
    by_cases hmark : role.id ∉ state.1 ∧ role.dependenciesIn state.1
    · have hstep : settleRole state role = (state.1.insert role.id, true) := if_pos hmark
      have hcard : (settleRole state role).1.card = state.1.card + 1 := by
        rw [hstep]
        exact card_insert hmark.1
      rcases hrest with hsame | ⟨hchanged, hlt⟩
      · rw [hsame]
        exact Or.inr ⟨by rw [hstep], by omega⟩
      · exact Or.inr ⟨hchanged, by omega⟩
    · have hstep : settleRole state role = state := if_neg hmark
      rw [hstep] at hrest ⊢
      exact hrest

/-- After the loop a further pass marks nothing, if there was fuel for every role that is not
marked and one pass more. -/
theorem settle_pass : ∀ (fuel : ℕ) (completed : OrderedSet RoleId),
    (∀ id ∈ completed, ∃ role ∈ roles, role.id = id) → roles.length < completed.card + fuel →
      roles.foldl settleRole (settle roles fuel completed, false) =
        (settle roles fuel completed, false)
  | 0, completed, hknown, hfuel => by
    have hcard : completed.card ≤ (roles.map RoleAssignment.id).length :=
      card_le_length fun id hid => by simpa using hknown id hid
    rw [length_map] at hcard
    omega
  | fuel + 1, completed, hknown, hfuel => by
    have hpass := settlePass_subset (C := fun id => ∃ role ∈ roles, role.id = id)
      (fun role hrole _ => ⟨role, hrole, rfl⟩) roles (completed, false) (fun _ hr => hr) hknown
    rcases settlePass_cases roles (completed, false) with hsame | ⟨hchanged, hlt⟩
    · rw [settle]
      simp only [hsame, Bool.false_eq_true, if_false]
    · rw [settle]
      simp only [hchanged, if_true]
      exact settle_pass fuel _ hpass (by dsimp only at hlt; omega)

theorem settle_stable (roles : List RoleAssignment) :
    roles.foldl settleRole (settle roles (roles.length + 1) .empty, false) =
      (settle roles (roles.length + 1) .empty, false) :=
  settle_pass _ _ (fun _ hid => absurd hid OrderedSet.not_mem_empty) (by omega)

/-- Without a cycle, a set of roles that is closed under the dependencies has every role. -/
theorem card_of_closed (hcycle : hasDependencyCycle roles = false) {C : OrderedSet RoleId}
    (hC : ∀ role ∈ roles, (∀ dependency ∈ role.dependsOn, dependency ∈ C) → role.id ∈ C)
    (hroles : ∀ id ∈ C, id ∈ roles.map RoleAssignment.id) : C.card = roles.length := by
  have hsettled : (settle roles (roles.length + 1) .empty).card = roles.length := by
    simpa [hasDependencyCycle] using hcycle
  have hsub : ∀ id ∈ settle roles (roles.length + 1) .empty, id ∈ C.elems :=
    settle_subset hC _ _ fun id hid => absurd hid OrderedSet.not_mem_empty
  have hlower := card_le_length hsub
  have hupper := card_le_length hroles
  rw [length_map] at hupper
  rw [hsettled] at hlower
  exact le_antisymm hupper hlower

end Settle

/-! ### What an accepted plan satisfies -/

theorem distinctIds_eq_ok : ∀ {seen : List RoleId} {roles : List RoleAssignment},
    distinctIds seen roles = .ok () → (roles.map RoleAssignment.id).Nodup ∧
      ∀ role ∈ roles, role.id ∉ seen
  | _, [], _ => ⟨nodup_nil, by simp⟩
  | seen, role :: roles, h => by
    simp only [distinctIds, bind_eq_ok, ensure_eq_ok, exists_const] at h
    obtain ⟨hnew, hrest⟩ := h
    obtain ⟨hnodup, hfresh⟩ := distinctIds_eq_ok hrest
    refine ⟨?_, ?_⟩
    · rw [map_cons, nodup_cons]
      refine ⟨?_, hnodup⟩
      intro hmem
      obtain ⟨r, hr, hid⟩ := List.mem_map.mp hmem
      exact hfresh r hr (by rw [hid]; exact mem_cons_self)
    · intro r hr
      rcases List.mem_cons.mp hr with rfl | hr
      · exact hnew
      · exact fun hseen => hfresh r hr (mem_cons_of_mem _ hseen)

namespace OrchestrationPlan

/-- What the checks establish, as far as the scheduler relies on it. -/
structure Accepted (roles : List RoleAssignment) (maxParallelism : ℕ) : Prop where
  positive : 0 < maxParallelism
  parallelism_le : maxParallelism ≤ roles.length
  nodup : (roles.map RoleAssignment.id).Nodup
  known : ∀ role ∈ roles, ∀ dependency ∈ role.dependsOn, ∃ r ∈ roles, r.id = dependency
  acyclic : hasDependencyCycle roles = false

theorem valid (plan : OrchestrationPlan) : Accepted plan.roles plan.maxParallelism := by
  have h := plan.accepted
  simp only [checkPlan, bind_eq_ok, ensure_eq_ok, exists_const] at h
  obtain ⟨-, -, hpos, ⟨hle, -⟩, -, -, -, -, u, hids, v, hdeps, hcycle, -⟩ := h
  refine ⟨Nat.pos_of_ne_zero hpos, hle, (distinctIds_eq_ok hids).1, ?_, by simpa using hcycle⟩
  intro role hrole dependency hd
  have hcheck := forM_eq_ok.mp hdeps role hrole
  have hone := forM_eq_ok.mp hcheck dependency hd
  simp only [bind_eq_ok, ensure_eq_ok, exists_const] at hone
  exact isSome_roleById.mp hone.1

end OrchestrationPlan

end Pandora.Orchestration
