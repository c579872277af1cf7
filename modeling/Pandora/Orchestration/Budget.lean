import Pandora.Orchestration.Coherence

/-! # The budget ledger

In every reachable database the ledger of a run and its active reservations fit the ceiling, the
active reservations are those of the active roles, and the ledger has consumed what the settled
reservations and the reconciliations were charged. So `inspect_budget` finds nothing to complain
about, and the amount it subtracts is not above the ceiling. -/

namespace Pandora.Orchestration.Budget

open Ids Lib.Checked Orchestration.Store Orchestration.Accounts Orchestration.Steps
  Orchestration.Coherence

variable {db : OrchestrationDb} {runId : OrchestrationRunId} {scope : RunScope}
  {budget : OrchestrationAggregateBudget} {active completed : RoleId → Prop}

theorem subtractBudget_of {ceiling amount : OrchestrationBudgetAmount} (resource : Resource)
    (h : amount.of resource ≤ ceiling.of resource) :
    (subtractBudget ceiling amount).of resource + amount.of resource = ceiling.of resource := by
  have hsub : (subtractBudget ceiling amount).of resource =
      ceiling.of resource - amount.of resource := by
    cases resource <;> rfl
  omega

/-- What `inspect_budget` returns for a run that has an account. -/
structure Inspected (db : OrchestrationDb) (runId : OrchestrationRunId) (row : BudgetRow)
    (snapshot : OrchestrationBudgetSnapshot) : Prop where
  ceiling : snapshot.ceiling = row.ceiling
  consumed : snapshot.enforcedConsumed = row.ledger.enforcedConsumed
  reserved : ∀ resource, snapshot.reserved.of resource = reserved db runId resource
  remaining : ∀ resource, snapshot.enforcedRemaining.of resource +
    (snapshot.enforcedConsumed.of resource + snapshot.reserved.of resource) =
      snapshot.ceiling.of resource

theorem exists_inspectBudget (h : Account db runId scope budget active completed)
    {row : BudgetRow} (hrow : db.budgets.get? runId = some row) :
    ∃ snapshot, inspectBudget db runId scope = .ok snapshot ∧ Inspected db runId row snapshot := by
  obtain ⟨row', hrow', hbalanced⟩ := h.budgeted
  obtain rfl := Option.some.inj (hrow.symm.trans hrow')
  obtain ⟨total, htotal⟩ := h.exists_sumActive
  have hreserved := h.sumActive htotal
  obtain ⟨committed, hcommitted⟩ := OrchestrationBudgetAmount.exists_checkedAdd fun resource =>
      (congrArg (_ + ·) (hreserved resource)).trans_lt (hbalanced.committed_lt resource)
  have hof := OrchestrationBudgetAmount.checkedAdd_eq_some.mp hcommitted
  have hle : ∀ resource, committed.of resource ≤ row.ceiling.of resource := by
    intro resource
    rw [← (hof resource).2, hreserved, hbalanced.ceiling]
    exact hbalanced.committed_le resource
  have hstate : loadBudgetState db runId scope = .ok row :=
    loadBudgetState_eq_ok.mpr ⟨hrow, hbalanced.scope⟩
  have hwithin : ensureAggregateWithin committed row.ceiling = .ok () :=
    ensureAggregateWithin_eq_ok.mpr hle
  simp only [inspectBudget, loadBudgetSnapshot, hstate, ok_bind, htotal, hcommitted,
    orError, hwithin]
  refine ⟨_, rfl, rfl, rfl, hreserved, fun resource => ?_⟩
  change (subtractBudget row.ceiling committed).of resource +
    (row.ledger.enforcedConsumed.of resource + total.of resource) = row.ceiling.of resource
  rw [(hof resource).2]
  exact subtractBudget_of resource (hle resource)

/-- **The budget ledger.** In every reachable database the ledger and the active reservations fit
the ceiling, the active reservations are those of the active roles as the plan reserves them, the
ledger has consumed what was charged, `inspect_budget` says so, and a call that fails changes
nothing. -/
theorem ledger_balanced (calls : List Call) (runId : OrchestrationRunId) (row : RunRow)
    (hrow : (dbAfter calls).runs.get? runId = some row) :
    let db := dbAfter calls
    ∃ budget budgetRow snapshot, row.record.plan.aggregateBudget = some budget ∧
      db.budgets.get? runId = some budgetRow ∧ budgetRow.ceiling = budget.ceiling ∧
      (∀ resource, budgetRow.ledger.enforcedConsumed.of resource + reserved db runId resource ≤
        budgetRow.ceiling.of resource) ∧
      (∀ roleId, (∃ reservation, db.reservations.get? (runId, roleId) = some reservation ∧
        reservation.record.state = .active) ↔ roleId ∈ row.record.snapshot.active) ∧
      (∀ resource, budgetRow.ledger.enforcedConsumed.of resource =
        settled db runId resource + reconciled db runId budget resource) ∧
      (∀ roleId reservation, db.reservations.get? (runId, roleId) = some reservation →
        budget.reservationForRole roleId = some reservation.record.reservation ∧
        (reservation.record.state = .settled → reservation.record.usage ≠ none)) ∧
      (∀ reconciliation ∈ db.reconciliations, reconciliation.runId = runId →
        budget.reservationForRole reconciliation.roleId ≠ none) ∧
      inspectBudget db runId row.record.scope = .ok snapshot ∧
      Inspected db runId budgetRow snapshot ∧
      ∀ call e, (exec db call).2 = .error e → (exec db call).1 = db := by
  intro db
  obtain ⟨run, budget, hcoherent, haccount⟩ := (dbAfter_sound calls).runs runId row hrow
  obtain ⟨budgetRow, hbudgetRow, hbalanced⟩ := haccount.budgeted
  obtain ⟨snapshot, hsnapshot, hinspected⟩ := exists_inspectBudget haccount hbudgetRow
  refine ⟨budget, budgetRow, snapshot, hcoherent.budget, hbudgetRow, hbalanced.ceiling, ?_, ?_,
    hbalanced.consumed, ?_, ?_, hsnapshot, hinspected, fun call e => exec_error⟩
  · rw [hbalanced.ceiling]
    exact hbalanced.committed_le
  · intro roleId
    rw [← haccount.active_iff, hcoherent.snapshot]
    exact Iff.rfl
  · intro roleId reservation hreservation
    obtain ⟨-, hplanned, hcharged⟩ := haccount.planned roleId reservation hreservation
    rw [(runId_of_get? hreservation).2] at hplanned
    refine ⟨hplanned, fun hsettled => ?_⟩
    obtain ⟨usage, husage, -⟩ := hcharged hsettled
    rw [husage]
    exact Option.some_ne_none _
  · intro reconciliation hmem hrun
    obtain ⟨reservation, hreservation⟩ := haccount.reconciledRoles reconciliation hmem hrun
    rw [hreservation]
    exact Option.some_ne_none _

/-- A plan of two roles, each of which may use half of the budget. -/
def samplePlan : GovernedOrchestrationPlan where
  plan := ⟨.ofLiteral "p", twoRoles, 2, 0, [], twoRoles_accepted⟩
  metaComposition := ⟨[.ofLiteral "h"], 1⟩
  repositories := [⟨.ofLiteral "r", .ofLiteral "w", "c"⟩]
  roleRepositories := [⟨.ofLiteral "plan", .ofLiteral "r"⟩, ⟨.ofLiteral "make", .ofLiteral "r"⟩]
  aggregateBudget := some ⟨⟨10, 10, 10, 10⟩,
    [⟨.ofLiteral "make", ⟨5, 5, 5, 5⟩⟩, ⟨.ofLiteral "plan", ⟨5, 5, 5, 5⟩⟩]⟩

def sampleRun : OrchestrationRunId := .ofLiteral "run"

def sampleScope : RunScope := ⟨.ofLiteral "u", .ofLiteral "t", .ofLiteral "w"⟩

def sampleWorker : JobWorkerId := .ofLiteral "worker"

/-- The receipt of the first role, whose cost is not known. -/
def sampleReceipt : OrchestrationRoleReceipt where
  receiptId := .ofLiteral "receipt"
  runId := sampleRun
  roleId := .ofLiteral "plan"
  repositoryId := .ofLiteral "r"
  workspaceId := .ofLiteral "w"
  exactCommit := "c"
  governedEffectReceipts := [.ofLiteral "effect"]
  evidenceDigest := none
  usage := some ⟨3, 1, 2, none, [.ofLiteral "effect"]⟩

/-- The run is submitted and claimed, and its first role is started and completed. -/
def sampleCalls : List Call :=
  [.submit sampleRun sampleScope samplePlan 1, .claimNext sampleScope sampleWorker 2,
    .startReady sampleRun sampleScope sampleWorker 3,
    .completeRole sampleRun sampleScope sampleWorker (.ofLiteral "plan") sampleReceipt 4]

theorem sampleLedger_balanced :
    let db := dbAfter sampleCalls
    ∃ row budgetRow, db.runs.get? sampleRun = some row ∧
      db.budgets.get? sampleRun = some budgetRow ∧
      ∀ resource, budgetRow.ledger.enforcedConsumed.of resource + reserved db sampleRun resource ≤
        budgetRow.ceiling.of resource := by
  intro db
  have hstored : (db.runs.get? sampleRun).isSome = true := by decide +kernel
  obtain ⟨row, hrow⟩ := Option.isSome_iff_exists.mp hstored
  obtain ⟨budget, budgetRow, snapshot, -, hbudgetRow, -, hle, -⟩ :=
    ledger_balanced sampleCalls sampleRun row hrow
  exact ⟨row, budgetRow, hrow, hbudgetRow, hle⟩

end Pandora.Orchestration.Budget
