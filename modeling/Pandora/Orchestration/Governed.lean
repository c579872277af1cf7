import Pandora.Orchestration.Plan

/-! # Governed plans, budgets and receipts

The contracts of `workspace_orchestration.rs`: a plan with the repositories its roles work in and
the budget of each role, and the receipt a role leaves. These records are read from JSON as well, so
none of them is trusted: `validate` builds a record again from its fields and refuses it if the
result differs.

An amount has four resources; `OrchestrationBudgetAmount.of` reads one of them, and what the checks
establish is said for each resource. -/

namespace Pandora.Orchestration

open Ids Text Lib.Checked List

def maxMetaDomains : ℕ := 32
def maxMetaHandoffs : ℕ := 64

/-- The errors of `MetaComposition::validate`. -/
inductive ManifestError
  | emptyMetaDomainHarnesses
  | tooManyMetaDomainHarnesses
  | duplicateMetaDomainHarness
  | invalidMetaHandoffLimit
deriving DecidableEq

inductive WorkspaceOrchestrationError
  | emptyRepositories
  | duplicateRepository (id : RepositoryId)
  | duplicateRoleBinding (id : RoleId)
  | unknownRole (id : RoleId)
  | unknownRepository (id : RepositoryId)
  | missingRoleBinding (id : RoleId)
  | domainNotAllowed (id : HarnessId)
  | handoffLimitExceeded
  | invalidPlan (error : OrchestrationContractError)
  | invalidMetaComposition (error : ManifestError)
  | emptyExactCommit
  | emptyReceiptEvidence
  | duplicateGovernedEffectReceipt (id : ReceiptId)
  | receiptRunMismatch
  | receiptRoleMismatch (id : RoleId)
  | receiptRepositoryMismatch (id : RepositoryId)
  | receiptWorkspaceMismatch (id : WorkspaceId)
  | receiptCommitMismatch
  | duplicateRoleBudget (id : RoleId)
  | nonCanonicalRoleBudgets
  | missingRoleBudget (id : RoleId)
  | unknownBudgetRole (id : RoleId)
  | roleBudgetExceedsCeiling (id : RoleId)
  | aggregateBudgetOverflow
  | duplicateUsageReceipt (id : ReceiptId)
  | nonCanonicalUsageReceipts
  | usageReceiptNotGoverned (id : ReceiptId)
  | emptyUsageEvidence
deriving DecidableEq

/-- The first element that stands in the list a second time. -/
def firstRepeated {κ : Type} [DecidableEq κ] (seen : List κ) : List κ → Option κ
  | [] => none
  | a :: as => if a ∈ seen then some a else firstRepeated (a :: seen) as

/-- The first of two neighbours with one key, `windows(2).find(..)`. -/
def firstAdjacent {α κ : Type} [DecidableEq κ] (key : α → κ) : List α → Option α
  | a :: b :: as => if key a = key b then some a else firstAdjacent key (b :: as)
  | _ => none

/-- Fail with the error of the element that was found. -/
def refuse {α ε : Type} (found : Option α) (error : α → ε) : Except ε Unit :=
  match found with
  | some a => .error (error a)
  | none => .ok ()

/-! ### Amounts -/

inductive Resource
  | token | tool | elapsedTime | cost

def Resource.asStr : Resource → String
  | token => "token"
  | tool => "tool"
  | elapsedTime => "elapsed-time"
  | cost => "cost"

structure OrchestrationBudgetAmount where
  (tokens tools elapsedMs costMicros : ℕ)
deriving DecidableEq

namespace OrchestrationBudgetAmount

/-- `default`. -/
def zero : OrchestrationBudgetAmount := ⟨0, 0, 0, 0⟩

/-- The amount of one resource. -/
def of (amount : OrchestrationBudgetAmount) : Resource → ℕ
  | .token => amount.tokens
  | .tool => amount.tools
  | .elapsedTime => amount.elapsedMs
  | .cost => amount.costMicros

def checkedAdd (a b : OrchestrationBudgetAmount) : Option OrchestrationBudgetAmount := do
  let tokens ← Lib.Checked.checkedAdd a.tokens b.tokens
  let tools ← Lib.Checked.checkedAdd a.tools b.tools
  let elapsedMs ← Lib.Checked.checkedAdd a.elapsedMs b.elapsedMs
  let costMicros ← Lib.Checked.checkedAdd a.costMicros b.costMicros
  pure ⟨tokens, tools, elapsedMs, costMicros⟩

def fitsWithin (amount ceiling : OrchestrationBudgetAmount) : Bool :=
  amount.tokens ≤ ceiling.tokens ∧ amount.tools ≤ ceiling.tools ∧
    amount.elapsedMs ≤ ceiling.elapsedMs ∧ amount.costMicros ≤ ceiling.costMicros

@[simp] theorem of_zero (resource : Resource) : zero.of resource = 0 := by
  cases resource <;> rfl

theorem checkedAdd_eq_some {a b c : OrchestrationBudgetAmount} :
    a.checkedAdd b = some c ↔ ∀ resource, a.of resource + b.of resource < 2 ^ 64 ∧
        a.of resource + b.of resource = c.of resource := by
  constructor
  · intro h resource
    simp only [checkedAdd, Option.bind_eq_bind, Option.bind_eq_some_iff, Option.pure_def,
      Lib.Checked.checkedAdd_eq_some, Option.some.injEq] at h
    obtain ⟨_, ⟨ht, rfl⟩, _, ⟨hl, rfl⟩, _, ⟨he, rfl⟩, _, ⟨hc, rfl⟩, rfl⟩ := h
    cases resource
    · exact ⟨ht, rfl⟩
    · exact ⟨hl, rfl⟩
    · exact ⟨he, rfl⟩
    · exact ⟨hc, rfl⟩
  · intro h
    simp only [checkedAdd, Option.bind_eq_bind, Option.bind_eq_some_iff, Option.pure_def,
      Lib.Checked.checkedAdd_eq_some, Option.some.injEq]
    exact ⟨_, h .token, _, h .tool, _, h .elapsedTime, _, h .cost, rfl⟩

theorem exists_checkedAdd {a b : OrchestrationBudgetAmount}
    (h : ∀ resource, a.of resource + b.of resource < 2 ^ 64) : ∃ c, a.checkedAdd b = some c := by
  refine ⟨⟨a.tokens + b.tokens, a.tools + b.tools, a.elapsedMs + b.elapsedMs,
    a.costMicros + b.costMicros⟩, checkedAdd_eq_some.mpr fun resource => ⟨h resource, ?_⟩⟩
  cases resource <;> rfl

theorem fitsWithin_iff {amount ceiling : OrchestrationBudgetAmount} :
    amount.fitsWithin ceiling ↔ ∀ resource, amount.of resource ≤ ceiling.of resource := by
  simp only [fitsWithin, decide_eq_true_eq]
  constructor
  · rintro ⟨ht, hl, he, hc⟩ resource
    cases resource
    · exact ht
    · exact hl
    · exact he
    · exact hc
  · intro h
    exact ⟨h .token, h .tool, h .elapsedTime, h .cost⟩

end OrchestrationBudgetAmount

/-! ### Budgets -/

structure OrchestrationRoleBudget where
  roleId : RoleId
  reservation : OrchestrationBudgetAmount
deriving DecidableEq

structure OrchestrationAggregateBudget where
  ceiling : OrchestrationBudgetAmount
  roles : List OrchestrationRoleBudget
deriving DecidableEq

namespace OrchestrationAggregateBudget

def new (ceiling : OrchestrationBudgetAmount) (roles : List OrchestrationRoleBudget) :
    Except WorkspaceOrchestrationError OrchestrationAggregateBudget := do
  let roles := roles.insertionSort fun left right => left.roleId ≤ right.roleId
  refuse (firstAdjacent OrchestrationRoleBudget.roleId roles) (.duplicateRoleBudget ·.roleId)
  pure ⟨ceiling, roles⟩

def reservationForRole (budget : OrchestrationAggregateBudget) (roleId : RoleId) :
    Option OrchestrationBudgetAmount :=
  (budget.roles.find? fun role => role.roleId = roleId).map OrchestrationRoleBudget.reservation

/-- The loop over the budgets of the roles, with the total so far. -/
def addRoles (plan : OrchestrationPlan) (ceiling : OrchestrationBudgetAmount) :
    OrchestrationBudgetAmount → List OrchestrationRoleBudget →
      Except WorkspaceOrchestrationError OrchestrationBudgetAmount
  | total, [] => .ok total
  | total, budget :: budgets => do
    ensure (plan.role budget.roleId).isSome (.unknownBudgetRole budget.roleId)
    ensure (budget.reservation.fitsWithin ceiling) (.roleBudgetExceedsCeiling budget.roleId)
    let total ← orError (total.checkedAdd budget.reservation) .aggregateBudgetOverflow
    addRoles plan ceiling total budgets

def validateForPlan (budget : OrchestrationAggregateBudget) (plan : OrchestrationPlan) :
    Except WorkspaceOrchestrationError Unit := do
  let rebuilt ← new budget.ceiling budget.roles
  ensure (rebuilt = budget) .nonCanonicalRoleBudgets
  let total ← addRoles plan budget.ceiling .zero budget.roles
  refuse (plan.roles.find? fun role => (budget.reservationForRole role.id).isNone)
    (.missingRoleBudget ·.id)
  ensure (total.fitsWithin budget.ceiling) .aggregateBudgetOverflow

end OrchestrationAggregateBudget

/-! ### Usage -/

structure OrchestrationUsage where
  (tokens tools elapsedMs : ℕ)
  costMicros : Option ℕ
  sourceReceipts : List ReceiptId
deriving DecidableEq

namespace OrchestrationUsage

def new (tokens tools elapsedMs : ℕ) (costMicros : Option ℕ) (sourceReceipts : List ReceiptId) :
    Except WorkspaceOrchestrationError OrchestrationUsage := do
  let sourceReceipts := sourceReceipts.insertionSort (· ≤ ·)
  refuse (firstAdjacent id sourceReceipts) .duplicateUsageReceipt
  ensure (¬ (sourceReceipts = [] ∧
    (tokens ≠ 0 ∨ tools ≠ 0 ∨ elapsedMs ≠ 0 ∨ costMicros = none))) .emptyUsageEvidence
  pure ⟨tokens, tools, elapsedMs, costMicros, sourceReceipts⟩

def validate (usage : OrchestrationUsage) : Except WorkspaceOrchestrationError Unit := do
  let rebuilt ← new usage.tokens usage.tools usage.elapsedMs usage.costMicros usage.sourceReceipts
  ensure (rebuilt = usage) .nonCanonicalUsageReceipts

/-- What a usage is charged with: the cost of the reservation where its own is unknown. -/
def enforced (usage : OrchestrationUsage) (reservation : OrchestrationBudgetAmount) :
    OrchestrationBudgetAmount :=
  ⟨usage.tokens, usage.tools, usage.elapsedMs, usage.costMicros.getD reservation.costMicros⟩

end OrchestrationUsage

/-! ### Governed plans -/

structure MetaComposition where
  allowedDomains : List HarnessId
  maxHandoffs : ℕ

def MetaComposition.validate (composition : MetaComposition) : Except ManifestError Unit := do
  ensure (composition.allowedDomains ≠ []) .emptyMetaDomainHarnesses
  ensure (composition.allowedDomains.length ≤ maxMetaDomains) .tooManyMetaDomainHarnesses
  ensure (composition.maxHandoffs ≠ 0 ∧ composition.maxHandoffs ≤ maxMetaHandoffs)
    .invalidMetaHandoffLimit
  ensure composition.allowedDomains.Nodup .duplicateMetaDomainHarness

def MetaComposition.allowsDomain (composition : MetaComposition) (harnessId : HarnessId) : Bool :=
  composition.allowedDomains.any fun id => id = harnessId

structure RepositoryBinding where
  repositoryId : RepositoryId
  workspaceId : WorkspaceId
  exactCommit : String

structure RoleRepositoryBinding where
  roleId : RoleId
  repositoryId : RepositoryId

structure GovernedOrchestrationPlan where
  plan : OrchestrationPlan
  metaComposition : MetaComposition
  repositories : List RepositoryBinding
  roleRepositories : List RoleRepositoryBinding
  aggregateBudget : Option OrchestrationAggregateBudget

structure OrchestrationRoleReceipt where
  receiptId : ReceiptId
  runId : OrchestrationRunId
  roleId : RoleId
  repositoryId : RepositoryId
  workspaceId : WorkspaceId
  exactCommit : String
  governedEffectReceipts : List ReceiptId
  evidenceDigest : Option RequestDigest
  usage : Option OrchestrationUsage

def OrchestrationRoleReceipt.validate (receipt : OrchestrationRoleReceipt) :
    Except WorkspaceOrchestrationError Unit := do
  ensure (¬ (trim receipt.exactCommit).isEmpty) .emptyExactCommit
  ensure (¬ (receipt.governedEffectReceipts = [] ∧ receipt.evidenceDigest = none))
    .emptyReceiptEvidence
  refuse (firstRepeated [] receipt.governedEffectReceipts) .duplicateGovernedEffectReceipt
  match receipt.usage with
  | some usage => do
    usage.validate
    refuse (usage.sourceReceipts.find? fun id => id ∉ receipt.governedEffectReceipts)
      .usageReceiptNotGoverned
  | none => pure ()

namespace GovernedOrchestrationPlan

/-- The loop over the bindings of the roles, with the roles bound so far. -/
def checkBindings (plan : OrchestrationPlan) (repositories : List RepositoryBinding) :
    List RoleId → List RoleRepositoryBinding → Except WorkspaceOrchestrationError (List RoleId)
  | roles, [] => .ok roles
  | roles, binding :: bindings => do
    ensure (plan.role binding.roleId).isSome (.unknownRole binding.roleId)
    ensure (repositories.any fun repository => repository.repositoryId = binding.repositoryId)
      (.unknownRepository binding.repositoryId)
    ensure (binding.roleId ∉ roles) (.duplicateRoleBinding binding.roleId)
    checkBindings plan repositories (binding.roleId :: roles) bindings

/-- The plan is built again from its fields. -/
def rebuildPlan (plan : OrchestrationPlan) :
    Except WorkspaceOrchestrationError OrchestrationPlan :=
  (OrchestrationPlan.new plan.id plan.roles plan.maxParallelism plan.maxHandoffs
    plan.handoffs).mapError .invalidPlan

def new (plan : OrchestrationPlan) (metaComposition : MetaComposition)
    (repositories : List RepositoryBinding) (roleRepositories : List RoleRepositoryBinding) :
    Except WorkspaceOrchestrationError GovernedOrchestrationPlan := do
  let rebuilt ← rebuildPlan plan
  ensure (rebuilt = plan) (.invalidPlan .dependencyCycle)
  metaComposition.validate.mapError .invalidMetaComposition
  ensure (repositories ≠ []) .emptyRepositories
  ensure (plan.handoffs.length % 2 ^ 32 ≤ metaComposition.maxHandoffs) .handoffLimitExceeded
  refuse (plan.roles.find? fun role => ¬ metaComposition.allowsDomain role.harnessId)
    (.domainNotAllowed ·.harnessId)
  refuse (firstRepeated [] (repositories.map RepositoryBinding.repositoryId)) .duplicateRepository
  let roles ← checkBindings plan repositories [] roleRepositories
  refuse (plan.roles.find? fun role => role.id ∉ roles) (.missingRoleBinding ·.id)
  pure ⟨plan, metaComposition, repositories, roleRepositories, none⟩

def validate (governed : GovernedOrchestrationPlan) : Except WorkspaceOrchestrationError Unit := do
  let rebuilt ← new governed.plan governed.metaComposition governed.repositories
    governed.roleRepositories
  match governed.aggregateBudget with
  | some budget => budget.validateForPlan rebuilt.plan
  | none => pure ()

def repositoryForRole (governed : GovernedOrchestrationPlan) (roleId : RoleId) :
    Option RepositoryBinding := do
  let binding ← governed.roleRepositories.find? fun binding => binding.roleId = roleId
  governed.repositories.find? fun repository => repository.repositoryId = binding.repositoryId

def validateReceipt (governed : GovernedOrchestrationPlan) (runId : OrchestrationRunId)
    (roleId : RoleId) (receipt : OrchestrationRoleReceipt) :
    Except WorkspaceOrchestrationError Unit := do
  receipt.validate
  ensure (receipt.runId = runId) .receiptRunMismatch
  ensure (receipt.roleId = roleId) (.receiptRoleMismatch roleId)
  let repository ← orError (governed.repositoryForRole roleId) (.missingRoleBinding roleId)
  ensure (receipt.repositoryId = repository.repositoryId)
    (.receiptRepositoryMismatch repository.repositoryId)
  ensure (receipt.workspaceId = repository.workspaceId)
    (.receiptWorkspaceMismatch repository.workspaceId)
  ensure (receipt.exactCommit = repository.exactCommit) .receiptCommitMismatch

end GovernedOrchestrationPlan

/-! ### What the checks establish -/

theorem refuse_eq_ok {α ε : Type} {found : Option α} {error : α → ε} {u : Unit} :
    refuse found error = .ok u ↔ found = none := by
  cases found <;> simp [refuse]

/-- Nothing repeats: the list has no duplicates, and nothing that was seen before. -/
theorem firstRepeated_eq_none {κ : Type} [DecidableEq κ] : ∀ {l seen : List κ},
    firstRepeated seen l = none ↔ l.Nodup ∧ ∀ a ∈ l, a ∉ seen
  | [], seen => by simp [firstRepeated]
  | a :: l, seen => by
    unfold firstRepeated
    by_cases ha : a ∈ seen
    · rw [if_pos ha]
      simp [ha]
    · rw [if_neg ha, firstRepeated_eq_none, nodup_cons]
      simp only [mem_cons, not_or, forall_eq_or_imp]
      constructor
      · rintro ⟨hnodup, hfresh⟩
        exact ⟨⟨fun hmem => (hfresh a hmem).1 rfl, hnodup⟩, ha, fun b hb => (hfresh b hb).2⟩
      · rintro ⟨⟨hnew, hnodup⟩, -, hseen⟩
        refine ⟨hnodup, fun b hb => ⟨?_, hseen b hb⟩⟩
        rintro rfl
        exact hnew hb

theorem pairwise_lt_of_firstAdjacent {α κ : Type} [LinearOrder κ] {key : α → κ} :
    ∀ {as : List α}, as.Pairwise (fun a b => key a ≤ key b) → firstAdjacent key as = none →
      as.Pairwise fun a b => key a < key b
  | [], _, _ => List.Pairwise.nil
  | [_], _, _ => pairwise_singleton _ _
  | a :: b :: as, hsorted, hnone => by
    obtain ⟨ha, hrest⟩ := List.pairwise_cons.mp hsorted
    unfold firstAdjacent at hnone
    split_ifs at hnone with hkey
    have hstrict := pairwise_lt_of_firstAdjacent hrest hnone
    have hab : key a < key b := lt_of_le_of_ne (ha b mem_cons_self) hkey
    refine List.pairwise_cons.mpr ⟨fun c hc => ?_, hstrict⟩
    rcases List.mem_cons.mp hc with rfl | hc
    · exact hab
    · exact lt_trans hab ((List.pairwise_cons.mp hstrict).1 c hc)

namespace OrchestrationAggregateBudget

variable {budget : OrchestrationAggregateBudget} {plan : OrchestrationPlan}

/-- The sum of all reservations. -/
def total (budget : OrchestrationAggregateBudget) (resource : Resource) : ℕ :=
  (budget.roles.map fun role => role.reservation.of resource).sum

/-- A budget that fits a plan: one reservation for each role, and together they fit the ceiling. -/
structure Funded (budget : OrchestrationAggregateBudget) (plan : OrchestrationPlan) : Prop where
  nodup : (budget.roles.map OrchestrationRoleBudget.roleId).Nodup
  planned : ∀ role ∈ plan.roles, ∃ reservation, budget.reservationForRole role.id = some reservation
  total_le : ∀ resource, budget.total resource ≤ budget.ceiling.of resource
  total_lt : ∀ resource, budget.total resource < 2 ^ 64

theorem new_eq_ok {ceiling : OrchestrationBudgetAmount} {roles : List OrchestrationRoleBudget}
    (h : new ceiling roles = .ok budget) :
    (budget.roles.map OrchestrationRoleBudget.roleId).Nodup := by
  simp only [new, bind_eq_ok, refuse_eq_ok, exists_const, pure_eq_ok] at h
  obtain ⟨hnone, rfl⟩ := h
  have hsorted : (roles.insertionSort fun left right => left.roleId ≤ right.roleId).Pairwise
      fun a b => a.roleId ≤ b.roleId := pairwise_insertionSort _ _
  rw [List.Nodup, pairwise_map]
  exact (pairwise_lt_of_firstAdjacent hsorted hnone).imp fun hlt => ne_of_lt hlt

/-- The loop returns the total so far and the sum of the reservations, and neither overflows. -/
theorem addRoles_eq_ok {ceiling : OrchestrationBudgetAmount} (resource : Resource) :
    ∀ {roles : List OrchestrationRoleBudget} {start total : OrchestrationBudgetAmount},
      addRoles plan ceiling start roles = .ok total →
      total.of resource =
        start.of resource + (roles.map fun role => role.reservation.of resource).sum ∧
      (start.of resource < 2 ^ 64 → total.of resource < 2 ^ 64)
  | [], start, total, h => by
    obtain rfl := Except.ok.inj h
    exact ⟨by simp, id⟩
  | role :: roles, start, total, h => by
    simp only [addRoles, bind_eq_ok, ensure_eq_ok, exists_const, orError_eq_ok] at h
    obtain ⟨-, -, next, hnext, hrest⟩ := h
    obtain ⟨hlt, hsum⟩ := OrchestrationBudgetAmount.checkedAdd_eq_some.mp hnext resource
    obtain ⟨htotal, hbound⟩ := addRoles_eq_ok resource hrest
    rw [map_cons, sum_cons]
    exact ⟨by omega, fun _ => hbound (by omega)⟩

theorem funded_of_validate (h : budget.validateForPlan plan = .ok ()) : Funded budget plan := by
  simp only [validateForPlan, bind_eq_ok, ensure_eq_ok, exists_const, refuse_eq_ok] at h
  obtain ⟨_, hnew, hsame, total, htotal, hmissing, hfits⟩ := h
  rw [hsame] at hnew
  have hsum : ∀ resource, total.of resource = budget.total resource ∧
      total.of resource < 2 ^ 64 := by
    intro resource
    obtain ⟨heq, hlt⟩ := addRoles_eq_ok resource htotal
    rw [OrchestrationBudgetAmount.of_zero, Nat.zero_add] at heq
    exact ⟨heq, hlt (by simp)⟩
  refine ⟨new_eq_ok hnew, ?_, ?_, ?_⟩
  · intro role hrole
    have hsome := List.find?_eq_none.mp hmissing role hrole
    simp only [Option.isNone_iff_eq_none] at hsome
    exact Option.ne_none_iff_exists'.mp hsome
  · intro resource
    rw [← (hsum resource).1]
    exact OrchestrationBudgetAmount.fitsWithin_iff.mp hfits resource
  · intro resource
    rw [← (hsum resource).1]
    exact (hsum resource).2

theorem reservationForRole_eq_some {roleId : RoleId} {reservation : OrchestrationBudgetAmount}
    (h : budget.reservationForRole roleId = some reservation) :
    ∃ role ∈ budget.roles, role.roleId = roleId ∧ role.reservation = reservation := by
  obtain ⟨role, hfind, rfl⟩ := Option.map_eq_some_iff.mp h
  exact ⟨role, mem_of_find?_eq_some hfind, by simpa using List.find?_some hfind, rfl⟩

end OrchestrationAggregateBudget

variable {governed : GovernedOrchestrationPlan}

theorem GovernedOrchestrationPlan.funded_of_validate
    {budget : OrchestrationAggregateBudget} (h : governed.validate = .ok ())
    (hbudget : governed.aggregateBudget = some budget) : budget.Funded governed.plan := by
  simp only [GovernedOrchestrationPlan.validate, bind_eq_ok] at h
  obtain ⟨rebuilt, hnew, h⟩ := h
  rw [hbudget] at h
  simp only [GovernedOrchestrationPlan.new, bind_eq_ok, pure_eq_ok] at hnew
  obtain ⟨-, -, -, -, -, -, -, -, -, -, -, -, -, -, -, -, -, -, rfl⟩ := hnew
  exact OrchestrationAggregateBudget.funded_of_validate h

/-- A receipt that is valid for a role names the role, and the run. -/
theorem GovernedOrchestrationPlan.validateReceipt_names
    {runId : OrchestrationRunId} {roleId : RoleId} {receipt : OrchestrationRoleReceipt}
    (h : governed.validateReceipt runId roleId receipt = .ok ()) :
    receipt.runId = runId ∧ receipt.roleId = roleId := by
  simp only [GovernedOrchestrationPlan.validateReceipt, bind_eq_ok, ensure_eq_ok, exists_const] at h
  obtain ⟨-, -, hrun, hrole, -⟩ := h
  exact ⟨hrun, hrole⟩

/-- A receipt that is valid for a role is bound to the repository of the role. -/
theorem GovernedOrchestrationPlan.validateReceipt_repository
    {runId : OrchestrationRunId} {roleId : RoleId} {receipt : OrchestrationRoleReceipt}
    (h : governed.validateReceipt runId roleId receipt = .ok ()) :
    ∃ repository, governed.repositoryForRole roleId = some repository ∧
      receipt.repositoryId = repository.repositoryId ∧
      receipt.workspaceId = repository.workspaceId ∧
      receipt.exactCommit = repository.exactCommit := by
  simp only [GovernedOrchestrationPlan.validateReceipt, bind_eq_ok, ensure_eq_ok, orError_eq_ok,
    exists_const] at h
  obtain ⟨-, -, -, -, repository, hrepository, hid, hworkspace, hcommit⟩ := h
  exact ⟨repository, hrepository, hid, hworkspace, hcommit⟩

end Pandora.Orchestration
