import Pandora.Jobs.Store
import Pandora.Orchestration.Governed
import Pandora.Orchestration.Run

/-! # The orchestration store

Four tables: the runs, the budget of each run, the reservation of each role of a run, and what was
recorded when an interrupted role was reconciled. Every call is one immediate transaction, so a call
that fails changes nothing.

The columns are typed: an identifier, a status or a JSON column is read back as the value that was
written, and a time is stored as a signed 64-bit number, so it is below `2 ^ 63`. What is checked
when a run is read (`validate_record`) is checked here too. The calls that settle a role and that
reconcile one make the same charge against the budget (`chargeRole`). -/

namespace Pandora.Orchestration.Store

open Ids Text Lib.Checked Lib.Tables
open Jobs.Store (checkedSucc)

inductive OrchestrationRunStatus
  | queued | running | completed | interrupted | cancelled
deriving DecidableEq

structure RunScope where
  principalId : PrincipalId
  tenantId : TenantId
  coordinatorWorkspaceId : WorkspaceId
deriving DecidableEq

structure OrchestrationRunRecord where
  runId : OrchestrationRunId
  scope : RunScope
  plan : GovernedOrchestrationPlan
  snapshot : OrchestrationRunSnapshot
  status : OrchestrationRunStatus
  workerId : Option JobWorkerId
  roleReceipts : List OrchestrationRoleReceipt
  interruptionReason : Option String
  (createdAt updatedAt : ℕ)

inductive OrchestrationBudgetReservationState
  | active | settled | released
deriving DecidableEq

structure OrchestrationBudgetReservationRecord where
  roleId : RoleId
  reservation : OrchestrationBudgetAmount
  state : OrchestrationBudgetReservationState
  completionReceiptId : Option ReceiptId
  reconciliationEvidenceDigest : Option RequestDigest
  usage : Option OrchestrationUsage
  (reservedAt updatedAt : ℕ)

structure OrchestrationBudgetLedger where
  enforcedConsumed : OrchestrationBudgetAmount
  (knownCostMicros unknownCostReceipts : ℕ)

structure OrchestrationBudgetSnapshot where
  runId : OrchestrationRunId
  scope : RunScope
  (ceiling reserved enforcedConsumed enforcedRemaining : OrchestrationBudgetAmount)
  actualCostMicros : Option ℕ
  (knownCostMicros unknownCostReceipts : ℕ)
  reservations : List OrchestrationBudgetReservationRecord
  (createdAt updatedAt : ℕ)

inductive OrchestrationStoreError
  | database
  | contract (error : WorkspaceOrchestrationError)
  | orchestration (error : OrchestrationError)
  | corruptRecord
  | runAlreadyExists
  | runNotFound
  | runOwnedByAnotherWorker
  | duplicateReceipt
  | aggregateBudgetRequired
  | aggregateBudgetNotFound
  | budgetReservationNotFound
  | budgetReservationNotActive
  | usageRequired
  | usageExceedsReservation (resource : String)
  | aggregateBudgetExceeded (resource : String)
  | aggregateBudgetOverflow
  | activeRolesRequireReconciliation
  | invalidTransition (status : OrchestrationRunStatus) (action : String)
deriving DecidableEq

/-! ## Rows -/

/-- A row of `orchestration_runs`. -/
structure RunRow where
  record : OrchestrationRunRecord
  submissionSequence : ℤ

def RunRow.runId (row : RunRow) : OrchestrationRunId := row.record.runId

/-- A row of `orchestration_budgets`. -/
structure BudgetRow where
  runId : OrchestrationRunId
  scope : RunScope
  ceiling : OrchestrationBudgetAmount
  ledger : OrchestrationBudgetLedger
  (createdAt updatedAt : ℕ)

/-- A row of `orchestration_budget_reservations`. -/
structure ReservationRow where
  runId : OrchestrationRunId
  scope : RunScope
  record : OrchestrationBudgetReservationRecord

def ReservationRow.key (row : ReservationRow) : OrchestrationRunId × RoleId :=
  (row.runId, row.record.roleId)

/-- A row of `orchestration_budget_reconciliations`. -/
structure ReconciliationRow where
  runId : OrchestrationRunId
  scope : RunScope
  roleId : RoleId
  evidenceDigest : RequestDigest
  usage : OrchestrationUsage
  recordedAt : ℕ

def ReconciliationRow.key (row : ReconciliationRow) : OrchestrationRunId × RoleId × RequestDigest :=
  (row.runId, row.roleId, row.evidenceDigest)

structure OrchestrationDb where
  runs : Table RunRow.runId
  budgets : Table BudgetRow.runId
  reservations : Table ReservationRow.key
  reconciliations : Table ReconciliationRow.key

/-- The database when it is created. -/
def OrchestrationDb.empty : OrchestrationDb := ⟨.empty, .empty, .empty, .empty⟩

def toI64 (value : ℕ) : Except OrchestrationStoreError ℕ := orError (fitsI64 value) .corruptRecord

/-! ## Reading runs -/

/-- Which of the two columns are set, for each status. -/
def statusValid (status : OrchestrationRunStatus) (workerId : Option JobWorkerId)
    (interruptionReason : Option String) : Bool :=
  match status with
  | .queued | .cancelled => workerId.isNone && interruptionReason.isNone
  | .running | .completed => workerId.isSome && interruptionReason.isNone
  | .interrupted => workerId.isSome &&
      (interruptionReason.map fun reason => !(trim reason).isEmpty).getD false

def validateRecord (record : OrchestrationRunRecord) : Except OrchestrationStoreError Unit := do
  record.plan.validate.mapError .contract
  let run ← (OrchestrationRun.fromSnapshot record.snapshot).mapError .orchestration
  ensure (record.snapshot.plan = record.plan.plan) .corruptRecord
  ensure (statusValid record.status record.workerId record.interruptionReason ∧
    ¬ (record.status = .completed ∧ ¬ run.isComplete)) .corruptRecord
  ensure (firstRepeated [] (record.roleReceipts.map OrchestrationRoleReceipt.receiptId) = none ∧
    ∀ receipt ∈ record.roleReceipts,
      record.plan.validateReceipt record.runId receipt.roleId receipt = .ok ()) .corruptRecord

/-- `decode_record`: an error of the decoder is one of the database. -/
def decodeRecord (row : RunRow) : Except OrchestrationStoreError OrchestrationRunRecord := do
  (validateRecord row.record).mapError fun _ => .database
  pure row.record

def loadScoped (db : OrchestrationDb) (runId : OrchestrationRunId) (scope : RunScope) :
    Except OrchestrationStoreError (Option OrchestrationRunRecord) :=
  ((db.runs.get? runId).filter fun row => row.record.scope = scope).mapM decodeRecord

def runningOwned (db : OrchestrationDb) (runId : OrchestrationRunId) (scope : RunScope)
    (workerId : JobWorkerId) : Except OrchestrationStoreError OrchestrationRunRecord := do
  let current ← orError (← loadScoped db runId scope) .runNotFound
  ensure (current.status = .running) (.invalidTransition current.status "update")
  ensure (current.workerId = some workerId) .runOwnedByAnotherWorker
  pure current

/-- `WHERE run_id = … AND (scope) AND p`. -/
def selectsRun (runId : OrchestrationRunId) (scope : RunScope) (p : OrchestrationRunRecord → Bool)
    (row : RunRow) : Bool :=
  row.runId = runId ∧ row.record.scope = scope ∧ p row.record

/-- `UPDATE orchestration_runs SET … WHERE run_id = … AND (scope) AND p`, which has to change one
row. -/
def updateRun (db : OrchestrationDb) (runId : OrchestrationRunId) (scope : RunScope)
    (p : OrchestrationRunRecord → Bool) (f : OrchestrationRunRecord → OrchestrationRunRecord)
    (hf : ∀ record, (f record).runId = record.runId) :
    Except OrchestrationStoreError OrchestrationDb := do
  ensure (db.runs.rows.countP (selectsRun runId scope p) = 1) .corruptRecord
  pure { db with
    runs := db.runs.update (selectsRun runId scope p)
      (fun row => { row with record := f row.record })
      fun row _ => hf row.record }

/-! ## Budgets -/

def exceededResource (amount ceiling : OrchestrationBudgetAmount) : Option Resource :=
  if ceiling.tokens < amount.tokens then some .token
  else if ceiling.tools < amount.tools then some .tool
  else if ceiling.elapsedMs < amount.elapsedMs then some .elapsedTime
  else if ceiling.costMicros < amount.costMicros then some .cost
  else none

def ensureUsageWithin (usage reservation : OrchestrationBudgetAmount) :
    Except OrchestrationStoreError Unit :=
  refuse (exceededResource usage reservation) (.usageExceedsReservation ·.asStr)

def ensureAggregateWithin (committed ceiling : OrchestrationBudgetAmount) :
    Except OrchestrationStoreError Unit :=
  refuse (exceededResource committed ceiling) (.aggregateBudgetExceeded ·.asStr)

/-- Unsigned subtraction, which the callers make only when it does not go below zero. -/
def subtractBudget (ceiling amount : OrchestrationBudgetAmount) : OrchestrationBudgetAmount :=
  ⟨ceiling.tokens - amount.tokens, ceiling.tools - amount.tools,
    ceiling.elapsedMs - amount.elapsedMs, ceiling.costMicros - amount.costMicros⟩

def sumActiveReservations (reservations : List OrchestrationBudgetReservationRecord)
    (excludedRole : Option RoleId) : Except OrchestrationStoreError OrchestrationBudgetAmount :=
  (reservations.filter fun item => item.state = .active ∧ excludedRole ≠ some item.roleId).foldlM
    (fun total item => orError (total.checkedAdd item.reservation) .aggregateBudgetOverflow) .zero

def loadBudgetState (db : OrchestrationDb) (runId : OrchestrationRunId) (scope : RunScope) :
    Except OrchestrationStoreError BudgetRow :=
  orError ((db.budgets.get? runId).filter fun row => row.scope = scope) .aggregateBudgetNotFound

/-- The reservations of a run, in the order of the roles. -/
def loadBudgetReservations (db : OrchestrationDb) (runId : OrchestrationRunId) (scope : RunScope) :
    List OrchestrationBudgetReservationRecord :=
  ((db.reservations.rows.filter fun row => row.runId = runId ∧ row.scope = scope).map
    ReservationRow.record).insertionSort fun left right => left.roleId ≤ right.roleId

def loadBudgetSnapshot (db : OrchestrationDb) (runId : OrchestrationRunId) (scope : RunScope) :
    Except OrchestrationStoreError OrchestrationBudgetSnapshot := do
  let budget ← loadBudgetState db runId scope
  let reservations := loadBudgetReservations db runId scope
  let reserved ← sumActiveReservations reservations none
  let committed ← orError (budget.ledger.enforcedConsumed.checkedAdd reserved)
    .aggregateBudgetOverflow
  ensureAggregateWithin committed budget.ceiling
  pure {
    runId, scope, ceiling := budget.ceiling, reserved
    enforcedConsumed := budget.ledger.enforcedConsumed
    enforcedRemaining := subtractBudget budget.ceiling committed
    actualCostMicros := if budget.ledger.unknownCostReceipts = 0 then
      some budget.ledger.knownCostMicros else none
    knownCostMicros := budget.ledger.knownCostMicros
    unknownCostReceipts := budget.ledger.unknownCostReceipts
    reservations, createdAt := budget.createdAt, updatedAt := budget.updatedAt }

/-- `UPDATE orchestration_budgets SET … WHERE run_id = … AND (scope)`. -/
def updateBudget (db : OrchestrationDb) (runId : OrchestrationRunId) (scope : RunScope)
    (f : BudgetRow → BudgetRow) (hf : ∀ row, (f row).runId = row.runId) : OrchestrationDb :=
  { db with
    budgets := db.budgets.update (fun row => row.runId = runId ∧ row.scope = scope) f
      fun row _ => hf row }

/-- `WHERE run_id = … AND (scope) AND role_id = … AND state = …`. -/
def selectsReservation (runId : OrchestrationRunId) (scope : RunScope) (roleId : RoleId)
    (state : OrchestrationBudgetReservationState) (row : ReservationRow) : Bool :=
  row.runId = runId ∧ row.scope = scope ∧ row.record.roleId = roleId ∧ row.record.state = state

/-- `UPDATE orchestration_budget_reservations SET … WHERE (role) AND state = …`, which has to change
one row. -/
def updateReservation (db : OrchestrationDb) (runId : OrchestrationRunId) (scope : RunScope)
    (roleId : RoleId) (state : OrchestrationBudgetReservationState)
    (f : OrchestrationBudgetReservationRecord → OrchestrationBudgetReservationRecord)
    (hf : ∀ record, (f record).roleId = record.roleId) :
    Except OrchestrationStoreError OrchestrationDb := do
  ensure (db.reservations.rows.countP (selectsReservation runId scope roleId state) = 1)
    .budgetReservationNotActive
  pure { db with
    reservations := db.reservations.update (selectsReservation runId scope roleId state)
      (fun row => { row with record := f row.record })
      fun row _ => by simp only [ReservationRow.key, hf] }

/-- A reservation as it is made: of a role that has none, or one more time. -/
def newReservation (roleId : RoleId) (reservation : OrchestrationBudgetAmount) (now : ℕ) :
    OrchestrationBudgetReservationRecord :=
  { roleId, reservation, state := .active, completionReceiptId := none
    reconciliationEvidenceDigest := none, usage := none, reservedAt := now, updatedAt := now }

/-- The row of a reservation is written again if it exists, and inserted otherwise. -/
def writeReservation (db : OrchestrationDb) (runId : OrchestrationRunId) (scope : RunScope)
    (roleId : RoleId) (reservation : OrchestrationBudgetAmount) (existing : Bool) (now : ℕ) :
    Except OrchestrationStoreError OrchestrationDb :=
  if existing then
    updateReservation db runId scope roleId .released
      (fun record => newReservation record.roleId reservation now) fun _ => rfl
  else do
    let reservations ← orError
      (db.reservations.insert? ⟨runId, scope, newReservation roleId reservation now⟩) .database
    pure { db with reservations }

def reserveRoleBudget (db : OrchestrationDb) (runId : OrchestrationRunId) (scope : RunScope)
    (roleId : RoleId) (reservation : OrchestrationBudgetAmount) (now : ℕ) :
    Except OrchestrationStoreError OrchestrationDb := do
  let budget ← loadBudgetState db runId scope
  let reservations := loadBudgetReservations db runId scope
  let existing := reservations.find? fun item => item.roleId = roleId
  ensure (∀ item ∈ existing, item.state = .released) .budgetReservationNotActive
  let active ← sumActiveReservations reservations none
  let committed ← orError ((budget.ledger.enforcedConsumed.checkedAdd active).bind
    (·.checkedAdd reservation)) .aggregateBudgetOverflow
  ensureAggregateWithin committed budget.ceiling
  let now ← toI64 now
  let db ← writeReservation db runId scope roleId reservation existing.isSome now
  pure (updateBudget db runId scope (fun row => { row with updatedAt := now }) fun _ => rfl)

/-- What settling and reconciling a role have in common: the reservation of the role has to be
active, the usage has to fit it, and the ledger is charged. -/
def chargeRole (db : OrchestrationDb) (runId : OrchestrationRunId) (scope : RunScope)
    (roleId : RoleId) (usage : OrchestrationUsage) :
    Except OrchestrationStoreError OrchestrationBudgetLedger := do
  let reservations := loadBudgetReservations db runId scope
  let current ← orError (reservations.find? fun item => item.roleId = roleId)
    .budgetReservationNotFound
  ensure (current.state = .active) .budgetReservationNotActive
  let enforcedUsage := usage.enforced current.reservation
  ensureUsageWithin enforcedUsage current.reservation
  let budget ← loadBudgetState db runId scope
  let otherActive ← sumActiveReservations reservations (some roleId)
  let enforcedConsumed ← orError (budget.ledger.enforcedConsumed.checkedAdd enforcedUsage)
    .aggregateBudgetOverflow
  let ledger ← match usage.costMicros with
    | some cost => do
      let known ← orError (checkedAdd budget.ledger.knownCostMicros cost) .aggregateBudgetOverflow
      pure { budget.ledger with enforcedConsumed, knownCostMicros := known }
    | none => do
      let unknown ← orError (checkedAdd budget.ledger.unknownCostReceipts 1)
        .aggregateBudgetOverflow
      pure { budget.ledger with enforcedConsumed, unknownCostReceipts := unknown }
  let committed ← orError (enforcedConsumed.checkedAdd otherActive) .aggregateBudgetOverflow
  ensureAggregateWithin committed budget.ceiling
  pure ledger

/-- `UPDATE orchestration_budgets SET ledger_json = …`, which has to change one row. -/
def writeLedger (db : OrchestrationDb) (runId : OrchestrationRunId) (scope : RunScope)
    (ledger : OrchestrationBudgetLedger) (now : ℕ) :
    Except OrchestrationStoreError OrchestrationDb := do
  ensure (db.budgets.rows.countP (fun row => row.runId = runId ∧ row.scope = scope) = 1)
    .aggregateBudgetNotFound
  pure (updateBudget db runId scope (fun row => { row with ledger, updatedAt := now }) fun _ => rfl)

def settleRoleBudget (db : OrchestrationDb) (runId : OrchestrationRunId) (scope : RunScope)
    (roleId : RoleId) (receipt : OrchestrationRoleReceipt) (now : ℕ) :
    Except OrchestrationStoreError OrchestrationDb := do
  let usage ← orError receipt.usage .usageRequired
  let ledger ← chargeRole db runId scope roleId usage
  let now ← toI64 now
  -- the unique index on the receipts of all reservations
  ensure (∀ row ∈ db.reservations.rows, row.key ≠ (runId, roleId) →
    row.record.completionReceiptId ≠ some receipt.receiptId) .database
  let db ← updateReservation db runId scope roleId .active (fun record =>
    { record with state := .settled, completionReceiptId := some receipt.receiptId
                  usage := some usage, updatedAt := now }) fun _ => rfl
  writeLedger db runId scope ledger now

def reconcileFailedRoleBudget (db : OrchestrationDb) (runId : OrchestrationRunId)
    (scope : RunScope) (roleId : RoleId) (usage : OrchestrationUsage)
    (evidenceDigest : RequestDigest) (now : ℕ) :
    Except OrchestrationStoreError OrchestrationDb := do
  let ledger ← chargeRole db runId scope roleId usage
  let now ← toI64 now
  let reconciliations ← orError
    (db.reconciliations.insert? ⟨runId, scope, roleId, evidenceDigest, usage, now⟩) .database
  let db ← updateReservation { db with reconciliations } runId scope roleId .active (fun record =>
    { record with state := .released, reconciliationEvidenceDigest := some evidenceDigest
                  usage := some usage, updatedAt := now }) fun _ => rfl
  writeLedger db runId scope ledger now

def releaseActiveBudgetReservations (db : OrchestrationDb) (runId : OrchestrationRunId)
    (scope : RunScope) (now : ℕ) : Except OrchestrationStoreError OrchestrationDb := do
  let now ← toI64 now
  let db := { db with
    reservations := db.reservations.update
      (fun row => row.runId = runId ∧ row.scope = scope ∧ row.record.state = .active)
      (fun row => { row with record := { row.record with state := .released, updatedAt := now } })
      fun _ _ => rfl }
  pure (updateBudget db runId scope (fun row => { row with updatedAt := now }) fun _ => rfl)

/-! ## Calls -/

def submit (db : OrchestrationDb) (runId : OrchestrationRunId) (scope : RunScope)
    (plan : GovernedOrchestrationPlan) (createdAt : ℕ) :
    Except OrchestrationStoreError (OrchestrationDb × OrchestrationRunRecord) := do
  plan.validate.mapError .contract
  let aggregateBudget ← orError plan.aggregateBudget .aggregateBudgetRequired
  let snapshot := (OrchestrationRun.new plan.plan).snapshot
  let sequence ← orError
    (checkedSucc ((db.runs.rows.map RunRow.submissionSequence).max?.getD 0)) .database
  let created ← toI64 createdAt
  let record : OrchestrationRunRecord :=
    { runId, scope, plan, snapshot, status := .queued, workerId := none, roleReceipts := []
      interruptionReason := none, createdAt := created, updatedAt := created }
  -- the other constraints on the sequence: positive, and no two alike
  ensure (0 < sequence ∧ ∀ row ∈ db.runs.rows, row.submissionSequence ≠ sequence) .runAlreadyExists
  let runs ← orError (db.runs.insert? ⟨record, sequence⟩) .runAlreadyExists
  let budgets ← orError (db.budgets.insert?
    { runId, scope, ceiling := aggregateBudget.ceiling, ledger := ⟨.zero, 0, 0⟩
      createdAt := created, updatedAt := created }) .database
  pure ({ db with runs, budgets }, record)

def inspectBudget (db : OrchestrationDb) (runId : OrchestrationRunId) (scope : RunScope) :
    Except OrchestrationStoreError OrchestrationBudgetSnapshot :=
  loadBudgetSnapshot db runId scope

/-- The queued run of the scope with the lowest sequence. -/
def nextQueued (db : OrchestrationDb) (scope : RunScope) : Option RunRow :=
  Table.firstBy RunRow.submissionSequence
    (db.runs.rows.filter fun row => row.record.scope = scope ∧ row.record.status = .queued)

def claimNext (db : OrchestrationDb) (scope : RunScope) (workerId : JobWorkerId) (now : ℕ) :
    Except OrchestrationStoreError (OrchestrationDb × Option OrchestrationRunRecord) :=
  match nextQueued db scope with
  | none => .ok (db, none)
  | some row => do
    let now ← toI64 now
    let db ← updateRun db row.runId scope (fun record => record.status = .queued) (fun record =>
      { record with status := .running, workerId := some workerId, updatedAt := now }) fun _ => rfl
    let record ← orError (← loadScoped db row.runId scope) .corruptRecord
    pure (db, some record)

/-- The loop of `start_ready` over the roles that are started. -/
def reserveRoles (runId : OrchestrationRunId) (scope : RunScope)
    (aggregateBudget : OrchestrationAggregateBudget) (now : ℕ) :
    OrchestrationDb → List RoleAssignment → Except OrchestrationStoreError OrchestrationDb
  | db, [] => .ok db
  | db, assignment :: ready => do
    let reservation ← orError (aggregateBudget.reservationForRole assignment.id) .corruptRecord
    let db ← reserveRoleBudget db runId scope assignment.id reservation now
    reserveRoles runId scope aggregateBudget now db ready

def startReady (db : OrchestrationDb) (runId : OrchestrationRunId) (scope : RunScope)
    (workerId : JobWorkerId) (now : ℕ) :
    Except OrchestrationStoreError (OrchestrationDb × List RoleAssignment) := do
  let current ← runningOwned db runId scope workerId
  let run ← (OrchestrationRun.fromSnapshot current.snapshot).mapError .orchestration
  let (run, ready) ← run.startReady.mapError .orchestration
  let aggregateBudget ← orError current.plan.aggregateBudget .aggregateBudgetRequired
  let db ← reserveRoles runId scope aggregateBudget now db ready
  let now ← toI64 now
  let db ← updateRun db runId scope
    (fun record => record.status = .running ∧ record.workerId = some workerId)
    (fun record => { record with snapshot := run.snapshot, updatedAt := now }) fun _ => rfl
  pure (db, ready)

def completeRole (db : OrchestrationDb) (runId : OrchestrationRunId) (scope : RunScope)
    (workerId : JobWorkerId) (roleId : RoleId) (receipt : OrchestrationRoleReceipt) (now : ℕ) :
    Except OrchestrationStoreError (OrchestrationDb × OrchestrationRunRecord) := do
  let current ← runningOwned db runId scope workerId
  (current.plan.validateReceipt runId roleId receipt).mapError .contract
  ensure (¬ current.roleReceipts.any fun stored => stored.receiptId = receipt.receiptId)
    .duplicateReceipt
  let db ← settleRoleBudget db runId scope roleId receipt now
  let run ← (OrchestrationRun.fromSnapshot current.snapshot).mapError .orchestration
  let run ← (run.complete roleId).mapError .orchestration
  let roleReceipts := current.roleReceipts ++ [receipt]
  let status := if run.isComplete then OrchestrationRunStatus.completed else .running
  let time ← toI64 now
  let db ← updateRun db runId scope
    (fun record => record.status = .running ∧ record.workerId = some workerId)
    (fun record =>
      { record with snapshot := run.snapshot, roleReceipts, status, updatedAt := time })
    fun _ => rfl
  pure (db, { current with snapshot := run.snapshot, roleReceipts, status, updatedAt := now })

def markInterrupted (db : OrchestrationDb) (runId : OrchestrationRunId) (scope : RunScope)
    (reason : String) (now : ℕ) :
    Except OrchestrationStoreError (OrchestrationDb × OrchestrationRunRecord) := do
  let current ← orError (← loadScoped db runId scope) .runNotFound
  ensure (current.status = .running) (.invalidTransition current.status "mark interrupted")
  let reason := trim reason
  ensure (¬ reason.isEmpty) .corruptRecord
  let time ← toI64 now
  let db ← updateRun db runId scope (fun record => record.status = .running) (fun record =>
    { record with status := .interrupted, interruptionReason := some reason, updatedAt := time })
    fun _ => rfl
  pure (db, { current with
    status := .interrupted, interruptionReason := some reason, updatedAt := now })

def reconcileInterruptedRole (db : OrchestrationDb) (runId : OrchestrationRunId)
    (scope : RunScope) (roleId : RoleId) (usage : OrchestrationUsage)
    (evidenceDigest : RequestDigest) (now : ℕ) :
    Except OrchestrationStoreError (OrchestrationDb × OrchestrationRunRecord) := do
  usage.validate.mapError .contract
  let current ← orError (← loadScoped db runId scope) .runNotFound
  ensure (current.status = .interrupted) (.invalidTransition current.status "reconcile a role in")
  let run ← (OrchestrationRun.fromSnapshot current.snapshot).mapError .orchestration
  let run ← (run.releaseActive roleId).mapError .orchestration
  let db ← reconcileFailedRoleBudget db runId scope roleId usage evidenceDigest now
  let time ← toI64 now
  let db ← updateRun db runId scope (fun record => record.status = .interrupted)
    (fun record => { record with snapshot := run.snapshot, updatedAt := time }) fun _ => rfl
  pure (db, { current with snapshot := run.snapshot, updatedAt := now })

def resume (db : OrchestrationDb) (runId : OrchestrationRunId) (scope : RunScope) (now : ℕ) :
    Except OrchestrationStoreError (OrchestrationDb × OrchestrationRunRecord) := do
  let current ← orError (← loadScoped db runId scope) .runNotFound
  ensure (current.status = .interrupted) (.invalidTransition current.status "resume")
  ensure (current.snapshot.active = []) .activeRolesRequireReconciliation
  let time ← toI64 now
  let db ← updateRun db runId scope (fun record => record.status = .interrupted) (fun record =>
    { record with status := .queued, workerId := none, interruptionReason := none
                  updatedAt := time }) fun _ => rfl
  pure (db, { current with
    status := .queued, workerId := none, interruptionReason := none, updatedAt := now })

def cancel (db : OrchestrationDb) (runId : OrchestrationRunId) (scope : RunScope) (now : ℕ) :
    Except OrchestrationStoreError (OrchestrationDb × OrchestrationRunRecord) := do
  let current ← orError (← loadScoped db runId scope) .runNotFound
  ensure (current.status = .queued) (.invalidTransition current.status "cancel")
  let time ← toI64 now
  let db ← updateRun db runId scope (fun record => record.status = .queued)
    (fun record => { record with status := .cancelled, updatedAt := time }) fun _ => rfl
  let db ← releaseActiveBudgetReservations db runId scope now
  pure (db, { current with status := .cancelled, updatedAt := now })

end Pandora.Orchestration.Store
