import Pandora.Ids
import Pandora.Lib.Tables

/-! # The job store

The rows of the `jobs` table, as SQLite keeps them, and the calls of `job_store.rs` that write them:
`submit`, `claimNext`, `finish`, `markInterrupted` and `cancel`. Each is one immediate transaction.
A row is read through `decodeJob`, which refuses one whose columns do not fit its status
(`validateRecord`).

What `serde_json` writes and reads is a parameter (`JobJson`), and nothing is assumed of it: a
request or a result that it cannot read back makes a call fail with `serialization`. -/

namespace Pandora.Jobs.Store

open Lib.Checked Lib.Tables Ids

/-! ## Jobs -/

def maxJobArgumentBytes : ℕ := 64 * 1024
def maxJobResultBytes : ℕ := 1024 * 1024

inductive JobCommand
  | run

inductive JobStatus
  | queued | running | completed | approvalRequired | failed | interrupted | cancelled
deriving DecidableEq

namespace JobStatus

def asStr : JobStatus → String
  | queued => "queued"
  | running => "running"
  | completed => "completed"
  | approvalRequired => "approval_required"
  | failed => "failed"
  | interrupted => "interrupted"
  | cancelled => "cancelled"

def isTerminal : JobStatus → Bool
  | completed | approvalRequired | failed | interrupted | cancelled => true
  | queued | running => false

/-- The outcomes `finish` accepts. -/
def isOutcome : JobStatus → Bool
  | completed | approvalRequired | failed | interrupted => true
  | queued | running | cancelled => false

end JobStatus

inductive JobContractError
  | emptyArguments
  | argumentsTooLarge
deriving DecidableEq

/-- The bytes of all arguments. -/
def argumentBytes (arguments : List String) : ℕ := (arguments.map String.utf8ByteSize).sum

structure JobRequest where
  command : JobCommand
  arguments : List String
  nonempty : arguments ≠ []
  bounded : argumentBytes arguments ≤ maxJobArgumentBytes

def JobRequest.new (command : JobCommand) (arguments : List String) :
    Except JobContractError JobRequest :=
  if hempty : arguments = [] then .error .emptyArguments
  else if hlarge : maxJobArgumentBytes < argumentBytes arguments then .error .argumentsTooLarge
  else .ok ⟨command, arguments, hempty, Nat.le_of_not_lt hlarge⟩

/-- `serde_json::Value`; a number is kept as its text. -/
inductive Value
  | null
  | bool (b : Bool)
  | number (text : String)
  | string (text : String)
  | array (values : List Value)
  | object (fields : List (String × Value))

mutual

/-- Equality of values, as a computation. -/
def Value.beq : Value → Value → Bool
  | .null, .null => true
  | .bool a, .bool b => a = b
  | .number a, .number b => a = b
  | .string a, .string b => a = b
  | .array as, .array bs => beqAll as bs
  | .object as, .object bs => beqFields as bs
  | _, _ => false

def Value.beqAll : List Value → List Value → Bool
  | [], [] => true
  | a :: as, b :: bs => a.beq b && beqAll as bs
  | _, _ => false

def Value.beqFields : List (String × Value) → List (String × Value) → Bool
  | [], [] => true
  | (name, a) :: as, (name', b) :: bs => name = name' && a.beq b && beqFields as bs
  | _, _ => false

end

mutual

theorem Value.beq_iff : ∀ {a b : Value}, a.beq b = true ↔ a = b
  | .null, b => by cases b <;> simp [Value.beq]
  | .bool _, b => by cases b <;> simp [Value.beq]
  | .number _, b => by cases b <;> simp [Value.beq]
  | .string _, b => by cases b <;> simp [Value.beq]
  | .array as, b => by cases b <;> simp [Value.beq, Value.beqAll_iff]
  | .object as, b => by cases b <;> simp [Value.beq, Value.beqFields_iff]

theorem Value.beqAll_iff : ∀ {as bs : List Value}, Value.beqAll as bs = true ↔ as = bs
  | [], bs => by cases bs <;> simp [Value.beqAll]
  | a :: as, bs => by cases bs <;> simp [Value.beqAll, Value.beq_iff, Value.beqAll_iff]

theorem Value.beqFields_iff : ∀ {as bs : List (String × Value)},
    Value.beqFields as bs = true ↔ as = bs
  | [], bs => by cases bs <;> simp [Value.beqFields]
  | (name, a) :: as, bs => by
    rcases bs with _ | ⟨⟨name', b⟩, bs⟩
    · simp [Value.beqFields]
    · simp [Value.beqFields, Value.beq_iff, Value.beqFields_iff]

end

instance : DecidableEq Value := fun _ _ => decidable_of_iff _ Value.beq_iff

/-- The writer and the reader of `serde_json`; `none` is its error. -/
structure JobJson where
  writeRequest : JobRequest → Option String
  readRequest : String → Option JobRequest
  writeValue : Value → Option ByteArray
  readValue : String → Option Value

@[ext] structure JobScope where
  principalId : PrincipalId
  tenantId : TenantId
  workspaceId : WorkspaceId
deriving DecidableEq

structure JobRecord where
  id : JobId
  scope : JobScope
  request : JobRequest
  status : JobStatus
  createdAt : ℕ
  (startedAt finishedAt : Option ℕ)
  workerId : Option JobWorkerId
  result : Option Value

inductive JobStoreError
  | serialization
  | corruptRecord
  | jobAlreadyExists
  | jobNotFound
  | jobOwnedByAnotherWorker
  | resultTooLarge
  | invalidTransition (status : JobStatus) (action : String)
deriving DecidableEq

/-! ## Rows -/

/-- A row of `jobs`. -/
structure JobRow where
  id : String
  submissionSequence : ℤ
  (principalId tenantId workspaceId requestJson status : String)
  createdAt : ℤ
  (startedAt finishedAt : Option ℤ)
  (workerId resultJson : Option String)
  jobKind : String
deriving DecidableEq

abbrev JobDb := Table JobRow.id

def decodeStatus (value : String) : Except JobStoreError JobStatus :=
  if value = "queued" then .ok .queued
  else if value = "running" then .ok .running
  else if value = "completed" then .ok .completed
  else if value = "approval_required" then .ok .approvalRequired
  else if value = "failed" then .ok .failed
  else if value = "interrupted" then .ok .interrupted
  else if value = "cancelled" then .ok .cancelled
  else .error .corruptRecord

def toI64 (value : ℕ) : Except JobStoreError ℕ := orError (fitsI64 value) .corruptRecord

def decodeTimestamp (value : ℤ) : Except JobStoreError ℕ := orError (fitsU64 value) .corruptRecord

/-- A column that holds an identifier. -/
def decodeId {kind : IdKind} (text : String) : Except JobStoreError (Id kind) :=
  orError (Id.new text).toOption .corruptRecord

/-- `validate_record`: which of the three columns are set, for each status. -/
def validateRecord {τ υ : Type} (status : JobStatus) (startedAt finishedAt : Option τ)
    (result : Option υ) :
    Except JobStoreError Unit :=
  let valid : Bool := match status with
    | .queued => startedAt.isNone && finishedAt.isNone && result.isNone
    | .running => startedAt.isSome && finishedAt.isNone && result.isNone
    | .cancelled => startedAt.isNone && finishedAt.isSome && result.isNone
    | .completed | .approvalRequired | .failed | .interrupted =>
      startedAt.isSome && finishedAt.isSome && result.isSome
  ensure valid .corruptRecord

variable (json : JobJson)

def decodeJob (row : JobRow) : Except JobStoreError JobRecord := do
  let id ← decodeId row.id
  let principalId ← decodeId row.principalId
  let tenantId ← decodeId row.tenantId
  let workspaceId ← decodeId row.workspaceId
  let request ← orError (json.readRequest row.requestJson) .serialization
  let status ← decodeStatus row.status
  let createdAt ← decodeTimestamp row.createdAt
  let startedAt ← row.startedAt.mapM decodeTimestamp
  let finishedAt ← row.finishedAt.mapM decodeTimestamp
  let workerId ← row.workerId.mapM decodeId
  let result ← row.resultJson.mapM fun text => orError (json.readValue text) .serialization
  validateRecord status startedAt finishedAt result
  pure {
    id, scope := ⟨principalId, tenantId, workspaceId⟩, request, status
    createdAt, startedAt, finishedAt, workerId, result }

/-- `principal_id = … AND tenant_id = … AND workspace_id = … AND job_kind = 'run'`. -/
def JobRow.inScope (row : JobRow) (scope : JobScope) : Bool :=
  row.principalId = scope.principalId.text ∧ row.tenantId = scope.tenantId.text ∧
    row.workspaceId = scope.workspaceId.text ∧ row.jobKind = "run"

def loadScopedJob (db : JobDb) (id : JobId) (scope : JobScope) :
    Except JobStoreError (Option JobRecord) :=
  ((db.get? id.text).filter (·.inScope scope)).mapM (decodeJob json)

/-! ## Calls -/

/-- `UPDATE jobs SET … WHERE id = … AND (scope) AND p`. -/
def updateJob (db : JobDb) (id : JobId) (scope : JobScope) (p : JobRow → Bool) (f : JobRow → JobRow)
    (hf : ∀ row, (f row).id = row.id) : JobDb :=
  db.update (fun row => row.id = id.text ∧ row.inScope scope ∧ p row) f fun row _ => hf row

/-- The row `submit` inserts. -/
def newRow (id : JobId) (submissionSequence : ℤ) (scope : JobScope) (requestJson : String)
    (createdAt : ℕ) : JobRow where
  id := id.text
  submissionSequence := submissionSequence
  principalId := scope.principalId.text
  tenantId := scope.tenantId.text
  workspaceId := scope.workspaceId.text
  requestJson := requestJson
  status := "queued"
  createdAt := createdAt
  startedAt := none
  finishedAt := none
  workerId := none
  resultJson := none
  jobKind := "run"

/-- `SELECT MAX(submission_sequence)`. -/
def latestSequence (db : JobDb) : Option ℤ := (db.rows.map JobRow.submissionSequence).max?

/-- `i64::checked_add` of one. -/
def checkedSucc (value : ℤ) : Option ℤ := if value + 1 < 2 ^ 63 then some (value + 1) else none

def submit (db : JobDb) (id : JobId) (scope : JobScope) (request : JobRequest) (createdAt : ℕ) :
    Except JobStoreError (JobDb × JobRecord) := do
  let requestJson ← orError (json.writeRequest request) .serialization
  let submissionSequence ← orError (checkedSucc ((latestSequence db).getD 0)) .corruptRecord
  let row := newRow id submissionSequence scope requestJson (← toI64 createdAt)
  -- The other constraints: a positive sequence, and no two alike.
  ensure (0 < submissionSequence ∧ ∀ other ∈ db.rows, other.submissionSequence ≠ submissionSequence)
    .jobAlreadyExists
  let db ← orError (db.insert? row) .jobAlreadyExists
  pure (db, {
    id, scope, request, status := .queued, createdAt, startedAt := none, finishedAt := none
    workerId := none, result := none })

/-- The queued row of the scope with the lowest sequence. -/
def nextQueued (db : JobDb) (scope : JobScope) : Option JobRow :=
  Table.firstBy JobRow.submissionSequence
    (db.rows.filter fun row => row.inScope scope ∧ row.status = "queued")

/-- `SET status = 'running', started_at = …, worker_id = …`. -/
def JobRow.start (workerId : JobWorkerId) (startedAt : ℕ) (row : JobRow) : JobRow :=
  { row with status := "running", startedAt := some startedAt, workerId := some workerId.text }

theorem JobRow.id_start (workerId : JobWorkerId) (startedAt : ℕ) (row : JobRow) :
    (row.start workerId startedAt).id = row.id :=
  rfl

/-- `claim_next` on the row selected. -/
def claimRow (db : JobDb) (row : JobRow) (scope : JobScope) (workerId : JobWorkerId)
    (startedAt : ℕ) :
    Except JobStoreError (JobDb × JobRecord) := do
  let id ← decodeId row.id
  let started ← toI64 startedAt
  let queued : JobRow → Bool := fun row => row.status = "queued"
  ensure (db.rows.countP (fun row => row.id = id.text ∧ row.inScope scope ∧ queued row) = 1)
    .corruptRecord
  let db := updateJob db id scope queued (.start workerId started) fun _ => rfl
  let job ← orError (← loadScopedJob json db id scope) .corruptRecord
  pure (db, { job with status := .running, startedAt := some startedAt, workerId := some workerId })

def claimNext (db : JobDb) (scope : JobScope) (workerId : JobWorkerId) (startedAt : ℕ) :
    Except JobStoreError (JobDb × Option JobRecord) :=
  match nextQueued db scope with
  | none => .ok (db, none)
  | some row => do
    let (db, job) ← claimRow json db row scope workerId startedAt
    pure (db, some job)

/-- A result as it is stored: written, measured and taken for a text. -/
def encodeResult (result : Value) : Except JobStoreError String := do
  let bytes ← orError (json.writeValue result) .serialization
  ensure (bytes.size ≤ maxJobResultBytes) .resultTooLarge
  orError (String.fromUTF8? bytes) .corruptRecord

/-- `SET status = …, finished_at = …, result_json = …`. -/
def JobRow.settle (status : JobStatus) (finishedAt : ℕ) (resultJson : String) (row : JobRow) :
    JobRow :=
  { row with status := status.asStr, finishedAt := some finishedAt, resultJson := some resultJson }

def finish (db : JobDb) (id : JobId) (scope : JobScope) (workerId : JobWorkerId)
    (status : JobStatus) (result : Value) (finishedAt : ℕ) :
    Except JobStoreError (JobDb × JobRecord) := do
  ensure (status.isOutcome) (.invalidTransition status "finish as a non-terminal outcome")
  let resultJson ← encodeResult json result
  let current ← orError (← loadScopedJob json db id scope) .jobNotFound
  ensure (current.status = .running) (.invalidTransition current.status "finish")
  ensure (current.workerId = some workerId) .jobOwnedByAnotherWorker
  let finished ← toI64 finishedAt
  let db := updateJob db id scope (fun row => row.workerId = some workerId.text ∧
    row.status = "running")
    (.settle status finished resultJson) fun _ => rfl
  pure (db, { current with status, finishedAt := some finishedAt, result := some result })

/-- The result of an interrupted job. -/
def interruptedResult (reason : String) (workerId : Option JobWorkerId) : Value :=
  .object [("code", .string "worker_interrupted"), ("outcome_known", .bool false),
    ("reason", .string reason), ("worker_id", workerId.elim .null fun id => .string id.text)]

def markInterrupted (db : JobDb) (id : JobId) (scope : JobScope) (reason : String)
    (finishedAt : ℕ) :
    Except JobStoreError (JobDb × JobRecord) := do
  let current ← orError (← loadScopedJob json db id scope) .jobNotFound
  ensure (current.status = .running) (.invalidTransition current.status "mark interrupted")
  let result := interruptedResult reason current.workerId
  let resultJson ← encodeResult json result
  let finished ← toI64 finishedAt
  let db := updateJob db id scope (fun row => row.status = "running")
    (.settle .interrupted finished resultJson) fun _ => rfl
  pure (db, { current with
    status := .interrupted, finishedAt := some finishedAt, result := some result })

/-- `SET status = 'cancelled', finished_at = …`. -/
def JobRow.cancel (finishedAt : ℕ) (row : JobRow) : JobRow :=
  { row with status := "cancelled", finishedAt := some finishedAt }

theorem JobRow.id_cancel (finishedAt : ℕ) (row : JobRow) : (row.cancel finishedAt).id = row.id :=
  rfl

def cancel (db : JobDb) (id : JobId) (scope : JobScope) (finishedAt : ℕ) :
    Except JobStoreError (JobDb × JobRecord) := do
  let current ← orError (← loadScopedJob json db id scope) .jobNotFound
  ensure (current.status = .queued) (.invalidTransition current.status "cancel")
  let finished ← toI64 finishedAt
  let db := updateJob db id scope (fun row => row.status = "queued") (.cancel finished) fun _ => rfl
  pure (db, { current with status := .cancelled, finishedAt := some finishedAt })

end Pandora.Jobs.Store
