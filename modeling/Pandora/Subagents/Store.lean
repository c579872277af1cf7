import Pandora.Jobs.Store

/-! # The subagent store

The `subagents` table and the calls of `subagent_store.rs` that write it. The table stands in the
database of the job store: a subagent that is queued has a row in `jobs` of kind `subagent`, which
the calls move together with the subagent. Each call is one immediate transaction.

The identifiers, the states and the times of a row are typed columns; the JSON columns are texts,
and what `serde_json` writes and reads is a parameter of which nothing is assumed (`SubagentJson`).
A row is read through `decodeSubagent`, which refuses one whose columns do not fit its status. -/

namespace Pandora.Subagents.Store

open Ids Text Lib.Checked Lib.Tables
open Jobs.Store (JobRow JobDb JobRequest JobCommand JobContractError JobStatus JobJson Value
  latestSequence checkedSucc interruptedResult)

def maxEffectReceiptBytes : ℕ := 16 * 1024
def maxEffectOutcomeTextBytes : ℕ := 1024
def maxSubagentResultBytes : ℕ := 1024 * 1024

/-! ## Subagents -/

inductive SubagentStatus
  | preparing | queued | running | approvalRequired | completed | failed | interrupted | cancelled
deriving DecidableEq

inductive SubagentWorktreeState
  | pending | ready | preserved | removed
deriving DecidableEq

def statusText : SubagentStatus → String
  | .preparing => "preparing"
  | .queued => "queued"
  | .running => "running"
  | .approvalRequired => "approval_required"
  | .completed => "completed"
  | .failed => "failed"
  | .interrupted => "interrupted"
  | .cancelled => "cancelled"

def jobStatusText : SubagentStatus → String
  | .approvalRequired => JobStatus.approvalRequired.asStr
  | .completed => JobStatus.completed.asStr
  | .failed => JobStatus.failed.asStr
  | .cancelled => JobStatus.cancelled.asStr
  | status => statusText status

def isTerminalStatus : SubagentStatus → Bool
  | .approvalRequired | .completed | .failed | .interrupted | .cancelled => true
  | .preparing | .queued | .running => false

structure SubagentScope where
  principalId : PrincipalId
  tenantId : TenantId
  workspaceId : WorkspaceId
deriving DecidableEq

structure SubagentBudgets where
  (maxTurns maxToolCalls maxTokens maxDurationSeconds maxDelegationDepth maxResultBytes : ℕ)
deriving DecidableEq

structure SubagentHarnessBinding where
  harnessId : HarnessId
  version : String
deriving DecidableEq

structure SubagentRequest where
  parentSessionId : SessionId
  parentExecutionId : ExecutionId
  delegationDepth : ℕ
  (exactCommit task : String)
  budgets : SubagentBudgets
  providerProfile : Option String
  harness : Option SubagentHarnessBinding
deriving DecidableEq

/-- A path: bytes that need not be a text. -/
structure PathBuf where
  bytes : ByteArray

structure SubagentPreparation where
  id : SubagentId
  jobId : JobId
  scope : SubagentScope
  childSessionId : SessionId
  childExecutionId : ExecutionId
  request : SubagentRequest
  (repositoryPath worktreePath : PathBuf)
  (providerBindingDigest harnessBindingDigest : Option String)
  createdAt : ℕ

inductive EffectOutcome
  | succeeded
  | failed (code : String)
  | denied (reason : String)
deriving DecidableEq

structure EffectReceipt where
  receiptId : ReceiptId
  permitId : PermitId
  requestDigest : RequestDigest
  completedAt : ℕ
  outcome : EffectOutcome
deriving DecidableEq

/-- A receipt as it stands in a column. -/
structure EffectReceiptWire where
  (receiptId permitId requestDigest : String)
  completedAt : ℕ
  outcome : EffectOutcome
deriving DecidableEq

structure SubagentRecord where
  id : SubagentId
  jobId : JobId
  scope : SubagentScope
  childSessionId : SessionId
  childExecutionId : ExecutionId
  request : SubagentRequest
  (repositoryPath worktreePath : PathBuf)
  (providerBindingDigest harnessBindingDigest : Option String)
  status : SubagentStatus
  worktreeState : SubagentWorktreeState
  workerId : Option JobWorkerId
  cancelRequestedAt : Option ℕ
  createReceipt : Option EffectReceipt
  cleanupClaimedAt : Option ℕ
  removeReceipt : Option EffectReceipt
  createdAt : ℕ
  (startedAt finishedAt : Option ℕ)
  result : Option Value

inductive SubagentStoreError
  | database
  | jobStore (error : JobContractError)
  | serialization
  | invalidIdentifier (error : IdError)
  | corruptRecord
  | invalidPath
  | subagentAlreadyExists
  | subagentNotFound
  | jobOwnedByAnotherWorker
  | resultTooLarge
  | worktreeCreationNotSuccessful
  | worktreeCreationDidNotFail
  | invalidTransition (status : SubagentStatus) (action : String)
deriving DecidableEq

/-- The writer and the reader of `serde_json`; `none` is its error. -/
structure SubagentJson where
  jobs : JobJson
  writeRequest : SubagentRequest → Option String
  readRequest : String → Option SubagentRequest
  writeReceipt : EffectReceiptWire → Option String
  readReceipt : String → Option EffectReceiptWire

/-! ## Rows -/

/-- A row of `subagents`. -/
structure SubagentRow where
  id : SubagentId
  jobId : JobId
  scope : SubagentScope
  childSessionId : SessionId
  childExecutionId : ExecutionId
  parentSessionId : SessionId
  parentExecutionId : ExecutionId
  (repositoryPath worktreePath exactCommit requestJson : String)
  (providerBindingDigest harnessBindingDigest : Option String)
  status : SubagentStatus
  worktreeState : SubagentWorktreeState
  workerId : Option JobWorkerId
  cancelRequestedAt : Option ℕ
  createReceiptJson : Option String
  cleanupClaimedAt : Option ℕ
  removeReceiptJson : Option String
  createdAt : ℕ
  (startedAt finishedAt : Option ℕ)
  resultJson : Option String

/-- The database: the jobs and the subagents. -/
structure SubagentDb where
  jobs : JobDb
  subagents : Table SubagentRow.id

def SubagentDb.empty : SubagentDb := ⟨.empty, .empty⟩

def toI64 (value : ℕ) : Except SubagentStoreError ℕ := orError (fitsI64 value) .corruptRecord

def pathText (path : PathBuf) : Except SubagentStoreError String :=
  orError (String.fromUTF8? path.bytes) .invalidPath

variable (json : SubagentJson)

def encodeReceipt (receipt : EffectReceipt) : Except SubagentStoreError String :=
  orError (json.writeReceipt ⟨receipt.receiptId.text, receipt.permitId.text,
    receipt.requestDigest.text, receipt.completedAt, receipt.outcome⟩) .serialization

def validateEffectOutcomeText (value : String) : Except SubagentStoreError Unit :=
  ensure (¬ (trim value).isEmpty ∧ value.utf8ByteSize ≤ maxEffectOutcomeTextBytes ∧
    ¬ value.toList.any isControl) .corruptRecord

def decodeReceipt (value : String) : Except SubagentStoreError EffectReceipt := do
  ensure (value.utf8ByteSize ≤ maxEffectReceiptBytes) .corruptRecord
  let wire ← orError (json.readReceipt value) .serialization
  match wire.outcome with
  | .succeeded => pure ()
  | .failed code => validateEffectOutcomeText code
  | .denied reason => validateEffectOutcomeText reason
  ensure (wire.completedAt < 2 ^ 63) .corruptRecord
  let receiptId ← (Id.new wire.receiptId).mapError .invalidIdentifier
  let permitId ← (Id.new wire.permitId).mapError .invalidIdentifier
  let requestDigest ← (Id.new wire.requestDigest).mapError .invalidIdentifier
  pure ⟨receiptId, permitId, requestDigest, wire.completedAt, wire.outcome⟩

/-- A result as it is stored: written, measured and taken for a text. -/
def boundedResultJson (result : Value) : Except SubagentStoreError String := do
  let bytes ← orError (json.jobs.writeValue result) .serialization
  ensure (bytes.size ≤ maxSubagentResultBytes) .resultTooLarge
  orError (String.fromUTF8? bytes) .corruptRecord

/-- Which columns are set, for each status. -/
def lifecycleValid (status : SubagentStatus) (worktreeState : SubagentWorktreeState)
    (workerId : Option JobWorkerId) (createReceipt : Option EffectReceipt)
    (startedAt finishedAt : Option ℕ) (result : Option Value) : Bool :=
  let prepared : Bool := worktreeState = .pending ∨ worktreeState = .preserved
  let settled : Bool := workerId.isSome && createReceipt.isSome && startedAt.isSome &&
    finishedAt.isSome && result.isSome
  match status with
  | .preparing => worktreeState = .pending && workerId.isNone && createReceipt.isNone &&
      startedAt.isNone && finishedAt.isNone && result.isNone
  | .queued => worktreeState = .ready && workerId.isNone && createReceipt.isSome &&
      startedAt.isNone && finishedAt.isNone && result.isNone
  | .running => worktreeState = .ready && workerId.isSome && createReceipt.isSome &&
      startedAt.isSome && finishedAt.isNone && result.isNone
  | .failed => if startedAt.isNone then prepared && workerId.isNone &&
      createReceipt.any (fun receipt => receipt.outcome ≠ .succeeded) && finishedAt.isSome &&
      result.isSome else settled
  | .interrupted => if startedAt.isNone then prepared && workerId.isNone &&
      createReceipt.isNone && finishedAt.isSome && result.isSome else settled
  | .cancelled => if startedAt.isNone then workerId.isNone && createReceipt.isSome &&
      finishedAt.isSome && result.isNone else settled
  | .approvalRequired | .completed => settled

def validateSubagentRecord (status : SubagentStatus) (worktreeState : SubagentWorktreeState)
    (workerId : Option JobWorkerId) (createReceipt : Option EffectReceipt)
    (startedAt finishedAt : Option ℕ) (result : Option Value) : Except SubagentStoreError Unit :=
  ensure (lifecycleValid status worktreeState workerId createReceipt startedAt finishedAt result)
    .corruptRecord

def validateCleanupRecord (status : SubagentStatus) (worktreeState : SubagentWorktreeState)
    (cleanupClaimedAt : Option ℕ) (removeReceipt : Option EffectReceipt) :
    Except SubagentStoreError Unit :=
  let valid : Bool := match cleanupClaimedAt, removeReceipt with
    | none, none => worktreeState ≠ .removed
    | some _, none => isTerminalStatus status &&
        (worktreeState = .ready || worktreeState = .preserved)
    | some _, some receipt => isTerminalStatus status &&
        (if receipt.outcome = .succeeded then worktreeState = .removed
          else worktreeState = .preserved)
    | none, some _ => false
  ensure valid .corruptRecord

def decodeSubagent (row : SubagentRow) : Except SubagentStoreError SubagentRecord := do
  let request ← orError (json.readRequest row.requestJson) .serialization
  ensure (request.parentSessionId = row.parentSessionId ∧
    request.parentExecutionId = row.parentExecutionId ∧ request.exactCommit = row.exactCommit)
    .corruptRecord
  let createReceipt ← row.createReceiptJson.mapM (decodeReceipt json)
  let removeReceipt ← row.removeReceiptJson.mapM (decodeReceipt json)
  let result ← row.resultJson.mapM fun text => orError (json.jobs.readValue text) .serialization
  validateSubagentRecord row.status row.worktreeState row.workerId createReceipt row.startedAt
    row.finishedAt result
  validateCleanupRecord row.status row.worktreeState row.cleanupClaimedAt removeReceipt
  pure {
    id := row.id, jobId := row.jobId, scope := row.scope, childSessionId := row.childSessionId
    childExecutionId := row.childExecutionId, request, repositoryPath := ⟨row.repositoryPath.toUTF8⟩
    worktreePath := ⟨row.worktreePath.toUTF8⟩, providerBindingDigest := row.providerBindingDigest
    harnessBindingDigest := row.harnessBindingDigest, status := row.status
    worktreeState := row.worktreeState, workerId := row.workerId
    cancelRequestedAt := row.cancelRequestedAt, createReceipt
    cleanupClaimedAt := row.cleanupClaimedAt, removeReceipt, createdAt := row.createdAt
    startedAt := row.startedAt, finishedAt := row.finishedAt, result }

/-- A row that is selected; an error of the decoder is one of the database. -/
def loadSubagent (row : Option SubagentRow) : Except SubagentStoreError (Option SubagentRecord) :=
  row.mapM fun row => (decodeSubagent json row).mapError fun _ => .database

def loadSubagentById (db : SubagentDb) (id : SubagentId) :
    Except SubagentStoreError (Option SubagentRecord) :=
  loadSubagent json (db.subagents.get? id)

def loadScopedSubagent (db : SubagentDb) (id : SubagentId) (scope : SubagentScope) :
    Except SubagentStoreError (Option SubagentRecord) :=
  loadSubagent json ((db.subagents.get? id).filter fun row => row.scope = scope)

def nextSubmissionSequence (db : SubagentDb) : Except SubagentStoreError ℤ :=
  orError (checkedSucc ((latestSequence db.jobs).getD 0)) .corruptRecord

/-- `UPDATE subagents SET … WHERE subagent_id = … AND p`, which has to change one row. -/
def updateSubagent (subagents : Table SubagentRow.id) (id : SubagentId) (p : SubagentRow → Bool)
    (f : SubagentRow → SubagentRow) (hf : ∀ row, (f row).id = row.id) (e : SubagentStoreError) :
    Except SubagentStoreError (Table SubagentRow.id) := do
  ensure (subagents.rows.countP (fun row => row.id = id ∧ p row) = 1) e
  pure (subagents.update (fun row => row.id = id ∧ p row) f fun row _ => hf row)

/-- `UPDATE jobs SET … WHERE id = … AND p AND job_kind = 'subagent'`, which has to change one
row. -/
def updateSubagentJob (jobs : JobDb) (id : JobId) (p : JobRow → Bool) (f : JobRow → JobRow)
    (hf : ∀ row, (f row).id = row.id) : Except SubagentStoreError JobDb := do
  ensure (jobs.rows.countP (fun row => row.id = id.text ∧ p row ∧ row.jobKind = "subagent") = 1)
    .corruptRecord
  pure (jobs.update (fun row => row.id = id.text ∧ p row ∧ row.jobKind = "subagent") f
    fun row _ => hf row)

/-! ## Calls -/

/-- The row `prepare` inserts. -/
def preparedRow (input : SubagentPreparation) (repositoryPath worktreePath requestJson : String)
    (createdAt : ℕ) : SubagentRow where
  id := input.id
  jobId := input.jobId
  scope := input.scope
  childSessionId := input.childSessionId
  childExecutionId := input.childExecutionId
  parentSessionId := input.request.parentSessionId
  parentExecutionId := input.request.parentExecutionId
  repositoryPath := repositoryPath
  worktreePath := worktreePath
  exactCommit := input.request.exactCommit
  requestJson := requestJson
  providerBindingDigest := input.providerBindingDigest
  harnessBindingDigest := input.harnessBindingDigest
  status := .preparing
  worktreeState := .pending
  workerId := none
  cancelRequestedAt := none
  createReceiptJson := none
  cleanupClaimedAt := none
  removeReceiptJson := none
  createdAt := createdAt
  startedAt := none
  finishedAt := none
  resultJson := none

/-- The unique columns besides the key. -/
def uniqueAgainst (row other : SubagentRow) : Prop :=
  other.jobId ≠ row.jobId ∧ other.childSessionId ≠ row.childSessionId ∧
    other.childExecutionId ≠ row.childExecutionId ∧ other.worktreePath ≠ row.worktreePath

instance (row other : SubagentRow) : Decidable (uniqueAgainst row other) :=
  inferInstanceAs (Decidable (_ ∧ _ ∧ _ ∧ _))

def prepare (db : SubagentDb) (input : SubagentPreparation) :
    Except SubagentStoreError (SubagentDb × SubagentRecord) := do
  let repositoryPath ← pathText input.repositoryPath
  let worktreePath ← pathText input.worktreePath
  let requestJson ← orError (json.writeRequest input.request) .serialization
  let createdAt ← toI64 input.createdAt
  let row := preparedRow input repositoryPath worktreePath requestJson createdAt
  ensure (∀ other ∈ db.subagents.rows, uniqueAgainst row other) .subagentAlreadyExists
  let subagents ← orError (db.subagents.insert? row) .subagentAlreadyExists
  pure ({ db with subagents }, {
    id := input.id, jobId := input.jobId, scope := input.scope
    childSessionId := input.childSessionId, childExecutionId := input.childExecutionId
    request := input.request, repositoryPath := input.repositoryPath
    worktreePath := input.worktreePath, providerBindingDigest := input.providerBindingDigest
    harnessBindingDigest := input.harnessBindingDigest, status := .preparing
    worktreeState := .pending, workerId := none, cancelRequestedAt := none, createReceipt := none
    cleanupClaimedAt := none, removeReceipt := none, createdAt := input.createdAt
    startedAt := none, finishedAt := none, result := none })

/-- The job row of a subagent. -/
def subagentJobRow (id : JobId) (submissionSequence : ℤ) (scope : SubagentScope)
    (requestJson : String) (createdAt : ℕ) : JobRow where
  id := id.text
  submissionSequence := submissionSequence
  principalId := scope.principalId.text
  tenantId := scope.tenantId.text
  workspaceId := scope.workspaceId.text
  requestJson := requestJson
  status := "queued"
  createdAt := createdAt
  startedAt := none
  finishedAt := none
  workerId := none
  resultJson := none
  jobKind := "subagent"

/-- `(scope) AND status = 'preparing' AND worktree_state = 'pending'`. -/
def SubagentRow.isPreparing (scope : SubagentScope) (row : SubagentRow) : Bool :=
  row.scope = scope ∧ row.status = .preparing ∧ row.worktreeState = .pending

def queue (db : SubagentDb) (id : SubagentId) (scope : SubagentScope) (receipt : EffectReceipt)
    (now : ℕ) : Except SubagentStoreError (SubagentDb × SubagentRecord) := do
  ensure (receipt.outcome = .succeeded) .worktreeCreationNotSuccessful
  let receiptJson ← encodeReceipt json receipt
  let current ← orError (← loadScopedSubagent json db id scope) .subagentNotFound
  ensure (current.status = .preparing ∧ current.worktreeState = .pending)
    (.invalidTransition current.status "queue")
  let jobRequest ← (JobRequest.new .run [current.request.task]).mapError .jobStore
  let requestJson ← orError (json.jobs.writeRequest jobRequest) .serialization
  let sequence ← nextSubmissionSequence db
  let created ← toI64 now
  -- the other constraints on the sequence: positive, and no two alike
  ensure (0 < sequence ∧ ∀ row ∈ db.jobs.rows, row.submissionSequence ≠ sequence) .database
  let jobs ← orError
    (db.jobs.insert? (subagentJobRow current.jobId sequence current.scope requestJson created))
    .database
  let subagents ← updateSubagent db.subagents id (SubagentRow.isPreparing scope) (fun row =>
    { row with status := .queued, worktreeState := .ready, createReceiptJson := some receiptJson })
    (fun _ => rfl) .corruptRecord
  pure (⟨jobs, subagents⟩, { current with
    status := .queued, worktreeState := .ready, createReceipt := some receipt })

/-- The worktree that is left when its creation did not succeed. -/
def leftWorktree (preserveDestination : Bool) : SubagentWorktreeState :=
  if preserveDestination then .preserved else .pending

def failPreparing (db : SubagentDb) (id : SubagentId) (scope : SubagentScope)
    (receipt : EffectReceipt) (preserveDestination : Bool) (now : ℕ) :
    Except SubagentStoreError (SubagentDb × SubagentRecord) := do
  ensure (receipt.outcome ≠ .succeeded) .worktreeCreationDidNotFail
  let receiptJson ← encodeReceipt json receipt
  let worktreeState := leftWorktree preserveDestination
  let result : Value := .object [("code", .string "worktree_create_failed"),
    ("outcome_known", .bool true)]
  let resultJson ← boundedResultJson json result
  let current ← orError (← loadScopedSubagent json db id scope) .subagentNotFound
  ensure (current.status = .preparing ∧ current.worktreeState = .pending)
    (.invalidTransition current.status "record failed worktree creation for")
  let finished ← toI64 now
  let subagents ← updateSubagent db.subagents id (SubagentRow.isPreparing scope) (fun row =>
    { row with
      status := .failed, worktreeState, createReceiptJson := some receiptJson
      finishedAt := some finished, resultJson := some resultJson }) (fun _ => rfl) .corruptRecord
  pure ({ db with subagents }, { current with
    status := .failed, worktreeState, createReceipt := some receipt, finishedAt := some now
    result := some result })

def interruptPreparing (db : SubagentDb) (id : SubagentId) (scope : SubagentScope)
    (preserveDestination : Bool) (reason : String) (now : ℕ) :
    Except SubagentStoreError (SubagentDb × SubagentRecord) := do
  let worktreeState := leftWorktree preserveDestination
  let result : Value := .object [("code", .string "worktree_create_interrupted"),
    ("outcome_known", .bool false), ("reason", .string reason)]
  let resultJson ← boundedResultJson json result
  let current ← orError (← loadScopedSubagent json db id scope) .subagentNotFound
  ensure (current.status = .preparing ∧ current.worktreeState = .pending)
    (.invalidTransition current.status "reconcile worktree preparation for")
  let finished ← toI64 now
  let subagents ← updateSubagent db.subagents id (SubagentRow.isPreparing scope) (fun row =>
    { row with
      status := .interrupted, worktreeState, finishedAt := some finished
      resultJson := some resultJson }) (fun _ => rfl) .corruptRecord
  pure ({ db with subagents }, { current with
    status := .interrupted, worktreeState, finishedAt := some now, result := some result })

/-- `(scope) AND status IN (terminal) AND worktree_state IN ('ready', 'preserved') AND
remove_receipt_json IS NULL`, with the column of the claim set or not. -/
def SubagentRow.isCleanable (scope : SubagentScope) (claimed : Bool) (row : SubagentRow) : Bool :=
  row.scope = scope ∧ isTerminalStatus row.status ∧
    (row.worktreeState = .ready ∨ row.worktreeState = .preserved) ∧
    row.cleanupClaimedAt.isSome = claimed ∧ row.removeReceiptJson = none

/-- The same condition on the record that was read. -/
def SubagentRecord.isCleanable (claimed : Bool) (record : SubagentRecord) : Bool :=
  isTerminalStatus record.status ∧
    (record.worktreeState = .ready ∨ record.worktreeState = .preserved) ∧
    record.cleanupClaimedAt.isSome = claimed ∧ record.removeReceipt = none

def claimCleanup (db : SubagentDb) (id : SubagentId) (scope : SubagentScope) (now : ℕ) :
    Except SubagentStoreError (SubagentDb × SubagentRecord) := do
  let current ← orError (← loadScopedSubagent json db id scope) .subagentNotFound
  ensure (current.isCleanable false)
    (.invalidTransition current.status "claim worktree cleanup for")
  let claimed ← toI64 now
  let subagents ← updateSubagent db.subagents id (SubagentRow.isCleanable scope false)
    (fun row => { row with cleanupClaimedAt := some claimed }) (fun _ => rfl)
    (.invalidTransition current.status "claim worktree cleanup for")
  pure ({ db with subagents }, { current with cleanupClaimedAt := some now })

def recordCleanup (db : SubagentDb) (id : SubagentId) (scope : SubagentScope)
    (receipt : EffectReceipt) : Except SubagentStoreError (SubagentDb × SubagentRecord) := do
  let worktreeState := if receipt.outcome = .succeeded then SubagentWorktreeState.removed
    else .preserved
  let receiptJson ← encodeReceipt json receipt
  let current ← orError (← loadScopedSubagent json db id scope) .subagentNotFound
  ensure (current.isCleanable true)
    (.invalidTransition current.status "record worktree cleanup for")
  let subagents ← updateSubagent db.subagents id (SubagentRow.isCleanable scope true)
    (fun row => { row with worktreeState, removeReceiptJson := some receiptJson }) (fun _ => rfl)
    (.invalidTransition current.status "record worktree cleanup for")
  pure ({ db with subagents }, { current with worktreeState, removeReceipt := some receipt })

/-- The queued job of a queued subagent. -/
def queuedJob (db : SubagentDb) (row : SubagentRow) : Option JobRow :=
  (db.jobs.get? row.jobId.text).filter fun job =>
    row.status = .queued ∧ job.status = "queued" ∧ job.jobKind = "subagent"

/-- The queued subagent of the scope whose queued job has the lowest sequence. -/
def nextQueued (db : SubagentDb) (scope : SubagentScope) : Option SubagentRow :=
  (Table.firstBy (fun pair : SubagentRow × JobRow => pair.2.submissionSequence)
    ((db.subagents.rows.filter fun row => row.scope = scope).filterMap fun row =>
      (queuedJob db row).map fun job => (row, job))).map Prod.fst

def claimNext (db : SubagentDb) (scope : SubagentScope) (worker : JobWorkerId) (now : ℕ) :
    Except SubagentStoreError (SubagentDb × Option SubagentRecord) :=
  match nextQueued db scope with
  | none => .ok (db, none)
  | some row => do
    let current ← orError (← loadScopedSubagent json db row.id scope) .corruptRecord
    let started ← toI64 now
    let jobs ← updateSubagentJob db.jobs current.jobId (fun job => job.status = "queued")
      (.start worker started) (JobRow.id_start worker started)
    let subagents ← updateSubagent db.subagents row.id (fun row => row.status = .queued) (fun row =>
      { row with status := .running, startedAt := some started, workerId := some worker })
      (fun _ => rfl) .corruptRecord
    pure (⟨jobs, subagents⟩, some { current with
      status := .running, startedAt := some now, workerId := some worker })

/-- `request_cancel` of a queued subagent. -/
def cancelQueued (db : SubagentDb) (current : SubagentRecord) (now : ℕ) :
    Except SubagentStoreError (SubagentDb × SubagentRecord) := do
  let cancelled ← toI64 now
  let jobs ← updateSubagentJob db.jobs current.jobId (fun job => job.status = "queued")
    (.cancel cancelled) (JobRow.id_cancel cancelled)
  let subagents ← updateSubagent db.subagents current.id (fun row => row.status = .queued)
    (fun row => { row with
      status := .cancelled, cancelRequestedAt := some cancelled, finishedAt := some cancelled })
    (fun _ => rfl) .corruptRecord
  pure (⟨jobs, subagents⟩, { current with
    status := .cancelled, cancelRequestedAt := some now, finishedAt := some now })

/-- `request_cancel` of a running subagent. -/
def cancelRunning (db : SubagentDb) (current : SubagentRecord) (now : ℕ) :
    Except SubagentStoreError (SubagentDb × SubagentRecord) := do
  let requested ← toI64 now
  let subagents ← updateSubagent db.subagents current.id
    (fun row => row.status = .running ∧ row.cancelRequestedAt = none)
    (fun row => { row with cancelRequestedAt := some requested }) (fun _ => rfl)
    (.invalidTransition current.status "request cancellation for")
  pure ({ db with subagents }, { current with cancelRequestedAt := some now })

def requestCancel (db : SubagentDb) (id : SubagentId) (scope : SubagentScope) (now : ℕ) :
    Except SubagentStoreError (SubagentDb × SubagentRecord) := do
  let current ← orError (← loadScopedSubagent json db id scope) .subagentNotFound
  match current.status with
  | .queued => cancelQueued db current now
  | .running => cancelRunning db current now
  | status => throw (.invalidTransition status "request cancellation for")

/-- The outcomes `finish` accepts. -/
def isOutcome : SubagentStatus → Bool
  | .completed | .approvalRequired | .failed | .cancelled => true
  | .preparing | .queued | .running | .interrupted => false

/-- A cancellation that was requested wins over the outcome that is reported. -/
def terminalOutcome (current : SubagentRecord) (status : SubagentStatus) (result : Value) :
    SubagentStatus × Value :=
  if current.cancelRequestedAt.isSome then
    (.cancelled, .object [("code", .string "agent_controlled_stop"),
      ("status", .string "cancelled"), ("reason", .string "cancelled")])
  else (status, result)

def finish (db : SubagentDb) (id : SubagentId) (worker : JobWorkerId) (status : SubagentStatus)
    (result : Value) (now : ℕ) : Except SubagentStoreError (SubagentDb × SubagentRecord) := do
  ensure (isOutcome status) (.invalidTransition status "finish as a non-terminal outcome")
  let current ← orError (← loadSubagentById json db id) .subagentNotFound
  ensure (current.status = .running) (.invalidTransition current.status "finish")
  ensure (current.workerId = some worker) .jobOwnedByAnotherWorker
  let outcome := terminalOutcome current status result
  let resultJson ← boundedResultJson json outcome.2
  let finished ← toI64 now
  let jobs ← updateSubagentJob db.jobs current.jobId
    (fun job => job.status = "running" ∧ job.workerId = some worker.text) (fun job =>
    { job with
      status := jobStatusText outcome.1, finishedAt := some (finished : ℤ)
      resultJson := some resultJson })
    fun _ => rfl
  let subagents ← updateSubagent db.subagents id
    (fun row => row.status = .running ∧ row.workerId = some worker) (fun row =>
    { row with status := outcome.1, finishedAt := some finished, resultJson := some resultJson })
    (fun _ => rfl) .corruptRecord
  pure (⟨jobs, subagents⟩, { current with
    status := outcome.1, finishedAt := some now, result := some outcome.2 })

def markInterrupted (db : SubagentDb) (id : SubagentId) (scope : SubagentScope) (reason : String)
    (now : ℕ) : Except SubagentStoreError (SubagentDb × SubagentRecord) := do
  let current ← orError (← loadScopedSubagent json db id scope) .subagentNotFound
  ensure (current.status = .running) (.invalidTransition current.status "mark interrupted")
  let result := interruptedResult reason current.workerId
  let resultJson ← boundedResultJson json result
  let finished ← toI64 now
  let jobs ← updateSubagentJob db.jobs current.jobId (fun job => job.status = "running") (fun job =>
    { job with
      status := "interrupted", finishedAt := some (finished : ℤ), resultJson := some resultJson })
    fun _ => rfl
  let subagents ← updateSubagent db.subagents id (fun row => row.status = .running) (fun row =>
    { row with
      status := .interrupted, finishedAt := some finished, resultJson := some resultJson })
    (fun _ => rfl) .corruptRecord
  pure (⟨jobs, subagents⟩, { current with
    status := .interrupted, finishedAt := some now, result := some result })

end Pandora.Subagents.Store
