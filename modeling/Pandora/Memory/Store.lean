import Pandora.Lib.Runs
import Pandora.Memory.Records
import Pandora.Sessions.Journal

/-! # The memory of a session

The memory tables of `sessions.rs` and the calls that write and read them: records, the revocations
that outlive them, and the audit log. A row keeps the texts that SQLite stores; reading it makes the
record again through the constructors of its tier (`decodeMemoryRecord`).

Every call holds the connection in one transaction, and a refused call has rolled back, so a call
returns the tables it leaves or an error. -/

namespace Pandora.Memory.Store

open Text Ids Lib.Checked Lib.Tables
open Context.Fragments (ContextClassification)
open Memory.Sop (MemoryIntent)
open Memory.Records
open Sessions.Journal (Session)

def maxL1EvidencePerScope : ℕ := 64
def maxMemoryRecordsPerScopeAndTier : ℕ := 256
def maxMemoryRecallRecords : ℕ := 256
def maxMemoryIdentitiesPerScope : ℕ := 4096

/-- The errors of the memory calls. -/
inductive SessionError
  | corruptRecord
  | sessionNotFound
  | scopeViolation
  | invalidL1Evidence
  | l1EvidenceAlreadyExists
  | l1EvidenceCapacityExceeded
  | invalidMemory
  | invalidMemoryLimit
  | invalidEvaluation
  | memoryAlreadyExists
  | memoryAlreadyPromoted
  | memoryCapacityExceeded
  | memoryNotFound
  | memoryRevoked
  | database
deriving DecidableEq

/-! ## Evaluations -/

inductive EvaluationKind
  | trajectory | outcome | policy | human | regression | adversarial

def EvaluationKind.asStr : EvaluationKind → String
  | .trajectory => "trajectory"
  | .outcome => "outcome"
  | .policy => "policy"
  | .human => "human"
  | .regression => "regression"
  | .adversarial => "adversarial"

inductive EvaluationStatus
  | passed | failed | humanReviewRequired
deriving DecidableEq

structure EvaluationResult where
  kind : EvaluationKind
  status : EvaluationStatus
  advisory : Bool

structure EvaluationReceipt where
  sessionId : SessionId
  executionId : ExecutionId
  evaluatedAt : ℕ
  results : List EvaluationResult
  nonempty : results ≠ []
  distinct : (results.map (·.kind)).Nodup

/-- The code outside the repository: the hash, and the JSON text of a list of identifiers, which is
read back as what was written. -/
structure Externals where
  sha : Sha256
  idsText : List MemoryId → String
  parseIds : String → Option (List MemoryId)
  parse_text : ∀ ids, parseIds (idsText ids) = some ids

/-! ## Rows -/

/-- A row of `memory_records`. -/
structure MemoryRow where
  (sessionId provider memoryId tier kind classification summary : String)
  createdAt : ℤ
  provenance : String
  (approvalId approver : Option String)
  (origin evidenceIds intent : String)

/-- The session, the provider and the identifier of a memory. -/
abbrev IdentityKey := String × String × String

def MemoryRow.identity (row : MemoryRow) : IdentityKey :=
  (row.sessionId, row.provider, row.memoryId)

/-- `PRIMARY KEY (session_id, provider, memory_id, tier)`. -/
def MemoryRow.key (row : MemoryRow) : IdentityKey × String := (row.identity, row.tier)

/-- The `CHECK` clauses of `memory_records`. -/
def MemoryRow.checks (row : MemoryRow) : Prop :=
  row.tier ∈ ["l0", "l1", "l2", "l3", "l4"] ∧
  row.kind ∈ ["trace", "execution_evidence", "decision", "failure", "benchmark", "lesson",
    "lineage", "policy_decision", "replacement", "sop", "session_archive"] ∧
  row.classification ∈ ["public", "internal", "sensitive"] ∧ 0 ≤ row.createdAt ∧
  ((row.tier ≠ "l2" ∧ row.approvalId = none ∧ row.approver = none) ∨
    (row.tier = "l2" ∧ row.approvalId ≠ none ∧ row.approver ≠ none))

instance (row : MemoryRow) : Decidable row.checks :=
  inferInstanceAs (Decidable (_ ∧ _ ∧ _ ∧ _ ∧ _))

/-- A row of `memory_revocations`. -/
structure RevocationRow where
  identity : IdentityKey
  revokedAt : ℤ

inductive MemoryAuditAction
  | added | promoted | revoked
deriving DecidableEq

/-- A row of `memory_audit`; the sequence number is its place. -/
structure AuditRow where
  identity : IdentityKey
  tier : String
  action : MemoryAuditAction
  recordedAt : ℤ
  approvalId : Option String

structure MemoryDb where
  sessions : Table Session.id
  records : Table MemoryRow.key
  revocations : Table RevocationRow.identity
  audit : List AuditRow

def MemoryDb.new (sessions : Table Session.id) : MemoryDb := ⟨sessions, .empty, .empty, []⟩

def scopeIdentity (scope : MemoryScope) (memoryId : MemoryId) : IdentityKey :=
  (scope.sessionId.text, scope.provider, memoryId.text)

/-! ## Reading a row -/

def parseMemoryTier (value : String) : Except SessionError MemoryTier :=
  match value with
  | "l0" => .ok .l0
  | "l1" => .ok .l1
  | "l2" => .ok .l2
  | "l3" => .ok .l3
  | "l4" => .ok .l4
  | _ => .error .corruptRecord

def parseMemoryOrigin (value : String) : Except SessionError MemoryOrigin :=
  match value with
  | "explicit" => .ok .explicit
  | "synthesized" => .ok .synthesized
  | _ => .error .corruptRecord

def parseMemoryKind (value : String) : Except SessionError MemoryKind :=
  match value with
  | "trace" => .ok .trace
  | "execution_evidence" => .ok .executionEvidence
  | "decision" => .ok .decision
  | "failure" => .ok .failure
  | "benchmark" => .ok .benchmark
  | "lesson" => .ok .lesson
  | "lineage" => .ok .lineage
  | "policy_decision" => .ok .policyDecision
  | "replacement" => .ok .replacement
  | "sop" => .ok .sop
  | "session_archive" => .ok .sessionArchive
  | _ => .error .corruptRecord

def parseMemoryIntent (value : String) : Except SessionError MemoryIntent :=
  match value with
  | "repo" => .ok .repo
  | "procedure" => .ok .procedure
  | "coding" => .ok .coding
  | "user" => .ok .user
  | _ => .error .corruptRecord

def parseContextClassification (value : String) : Except SessionError ContextClassification :=
  match value with
  | "public" => .ok .«public»
  | "internal" => .ok .internal
  | "sensitive" => .ok .sensitive
  | _ => .error .corruptRecord

@[simp]
theorem parseMemoryTier_asStr (tier : MemoryTier) : parseMemoryTier tier.asStr = .ok tier := by
  cases tier <;> rfl

@[simp] theorem parseMemoryOrigin_asStr (origin : MemoryOrigin) :
    parseMemoryOrigin origin.asStr = .ok origin := by
  cases origin <;> rfl

@[simp]
theorem parseMemoryKind_asStr (kind : MemoryKind) : parseMemoryKind kind.asStr = .ok kind := by
  cases kind <;> rfl

@[simp] theorem parseMemoryIntent_text (intent : MemoryIntent) :
    parseMemoryIntent (intentText intent) = .ok intent := by
  cases intent <;> rfl

theorem parseContextClassification_asStr {classification : ContextClassification}
    (h : classification ≠ .secret) :
    parseContextClassification classification.asStr = .ok classification := by
  cases classification with
  | secret => exact absurd rfl h
  | «public» => rfl
  | internal => rfl
  | sensitive => rfl

theorem tier_asStr_inj {a b : MemoryTier} (h : a.asStr = b.asStr) : a = b := by
  have hparse := parseMemoryTier_asStr a
  rw [h, parseMemoryTier_asStr] at hparse
  exact (Except.ok.inj hparse).symm

variable (ext : Externals)

/-- A part of a row that the constructors refuse. -/
def fromColumns {α : Type} (result : Except MemoryContractError α) : Except SessionError α :=
  result.mapError fun _ => .corruptRecord

/-- The columns of an approval are empty. -/
def plainRow (row : MemoryRow) : Except SessionError Unit :=
  ensure (row.approvalId = none ∧ row.approver = none) .corruptRecord

/-- The record is made by the constructor of its tier. -/
def decodeTier (scope : MemoryScope) (row : MemoryRow) (tier : MemoryTier) (kind : MemoryKind)
    (classification : ContextClassification) (createdAt : ℕ) (origin : MemoryOrigin)
    (evidenceIds : List MemoryId) : Except SessionError MemoryRecord :=
  match tier with
  | .l0 => .error .corruptRecord
  | .l1 => do
    plainRow row
    fromColumns (MemoryRecord.newL1WithOrigin row.memoryId kind scope row.summary classification
      createdAt row.provenance origin evidenceIds)
  | .l2 => do
    let approvalId ← orError row.approvalId .corruptRecord
    let approver ← orError row.approver .corruptRecord
    let approval ← fromColumns (MemoryApproval.new approvalId approver)
    let candidate ← fromColumns (MemoryRecord.newL1WithOrigin row.memoryId kind scope row.summary
      classification createdAt row.provenance origin evidenceIds)
    fromColumns (candidate.promoteL2 approval createdAt)
  | .l3 => do
    plainRow row
    fromColumns (MemoryRecord.newL3Sop row.memoryId scope row.summary classification createdAt
      row.provenance)
  | .l4 => do
    plainRow row
    fromColumns (MemoryRecord.newL4Archive row.memoryId scope row.summary classification createdAt
      row.provenance)

/-- `decode_memory_record`. -/
def decodeMemoryRecord (scope : MemoryScope) (row : MemoryRow) :
    Except SessionError MemoryRecord := do
  let tier ← parseMemoryTier row.tier
  let kind ← parseMemoryKind row.kind
  let classification ← parseContextClassification row.classification
  let createdAt ← orError (fitsU64 row.createdAt) .corruptRecord
  let origin ← parseMemoryOrigin row.origin
  let evidenceIds ← orError (ext.parseIds row.evidenceIds) .corruptRecord
  let record ← decodeTier scope row tier kind classification createdAt origin evidenceIds
  let intent ← parseMemoryIntent row.intent
  pure (record.withIntent intent)

/-! ## Lookups -/

/-- `load_session`, and `ensure_scope`. -/
def loadScoped (db : MemoryDb) (sessionId : SessionId) (principalId : PrincipalId)
    (tenantId : TenantId) (workspaceId : WorkspaceId) : Except SessionError Unit := do
  let session ← orError (db.sessions.get? sessionId) .sessionNotFound
  ensure (session.principalId = principalId ∧ session.tenantId = tenantId ∧
    session.workspaceId = workspaceId) .scopeViolation

def loadScope (db : MemoryDb) (principalId : PrincipalId) (scope : MemoryScope) :
    Except SessionError Unit :=
  loadScoped db scope.sessionId principalId scope.tenantId scope.workspaceId

def timestampI64 (value : ℕ) : Except SessionError ℕ := orError (fitsI64 value) .corruptRecord

def isRevoked (db : MemoryDb) (identity : IdentityKey) : Bool :=
  (db.revocations.get? identity).isSome

def isMemoryRevoked (db : MemoryDb) (scope : MemoryScope) (memoryId : MemoryId) : Bool :=
  isRevoked db (scopeIdentity scope memoryId)

def inScope (scope : MemoryScope) (identity : IdentityKey) : Bool :=
  identity.1 = scope.sessionId.text && identity.2.1 = scope.provider

def loadMemoryRecord (db : MemoryDb) (scope : MemoryScope) (memoryId : MemoryId)
    (tier : MemoryTier) : Except SessionError (Option MemoryRecord) :=
  (db.records.get? (scopeIdentity scope memoryId, tier.asStr)).mapM (decodeMemoryRecord ext scope)

/-- `ORDER BY created_at DESC, memory_id DESC`. -/
def recallBefore (a b : MemoryRow) : Prop :=
  b.createdAt < a.createdAt ∨ (a.createdAt = b.createdAt ∧ b.memoryId ≤ a.memoryId)

instance : DecidableRel recallBefore := fun _ _ => inferInstanceAs (Decidable (_ ∨ _))

/-- The rows `load_memory_records` selects, without their order and the limit. -/
def recallable (db : MemoryDb) (scope : MemoryScope) (tier : MemoryTier) : List MemoryRow :=
  db.records.rows.filter fun row =>
    inScope scope row.identity && row.tier = tier.asStr && !isRevoked db row.identity

def loadMemoryRecords (db : MemoryDb) (scope : MemoryScope) (tier : MemoryTier) (limit : ℕ) :
    Except SessionError (List MemoryRecord) :=
  (((recallable db scope tier).insertionSort recallBefore).take limit).mapM
    (decodeMemoryRecord ext scope)

/-- `ORDER BY tier ASC`. -/
def loadMemoryRecordsById (db : MemoryDb) (scope : MemoryScope) (memoryId : MemoryId) :
    Except SessionError (List MemoryRecord) :=
  ((db.records.rows.filter (·.identity = scopeIdentity scope memoryId)).insertionSort
    fun a b => a.tier ≤ b.tier).mapM (decodeMemoryRecord ext scope)

def recallMemory (db : MemoryDb) (sessionId : SessionId) (principalId : PrincipalId)
    (tenantId : TenantId) (workspaceId : WorkspaceId) (provider : String) (tier : MemoryTier)
    (limit : ℕ) : Except SessionError (List MemoryRecord) := do
  ensure (limit ≠ 0 ∧ limit ≤ maxMemoryRecallRecords) .invalidMemoryLimit
  ensure (tier ≠ .l0) .invalidMemory
  let scope ← (MemoryScope.new tenantId workspaceId sessionId provider).mapError fun _ =>
    .invalidMemory
  loadScoped db sessionId principalId tenantId workspaceId
  loadMemoryRecords ext db scope tier limit

/-! ## Writing -/

/-- The row `insert_memory_record` writes. -/
def rowOf (record : MemoryRecord) (createdAt : ℕ) : MemoryRow where
  sessionId := record.scope.sessionId.text
  provider := record.scope.provider
  memoryId := record.id.text
  tier := record.tier.asStr
  kind := record.kind.asStr
  classification := record.classification.asStr
  summary := record.summary
  createdAt := createdAt
  provenance := record.provenance
  approvalId := record.approval.map (·.approvalId)
  approver := record.approval.map (·.approver)
  origin := record.origin.asStr
  evidenceIds := ext.idsText record.evidenceIds
  intent := intentText record.effectiveIntent

def insertMemoryRecord (db : MemoryDb) (record : MemoryRecord) : Except SessionError MemoryDb := do
  let createdAt ← timestampI64 record.createdAt
  let row := rowOf ext record createdAt
  -- every violated constraint is reported as a taken identifier
  ensure row.checks .memoryAlreadyExists
  let records ← orError (db.records.insert? row) .memoryAlreadyExists
  pure { db with records }

def insertMemoryAudit (db : MemoryDb) (record : MemoryRecord) (action : MemoryAuditAction)
    (recordedAt : ℕ) (approvalId : Option String) : Except SessionError MemoryDb := do
  let recordedAt ← timestampI64 recordedAt
  pure { db with
    audit := db.audit ++ [{
      identity := scopeIdentity record.scope record.id
      tier := record.tier.asStr
      action
      recordedAt
      approvalId }] }

/-- The identifiers of a scope, also those that are revoked and gone. -/
def identityCount (db : MemoryDb) (scope : MemoryScope) : ℕ :=
  (((db.records.rows.map (·.identity) ++ db.revocations.rows.map (·.identity)).filter
    (inScope scope)).map (·.2.2)).dedup.length

/-- The rows of a scope and a tier. -/
def tierCount (db : MemoryDb) (scope : MemoryScope) (tier : MemoryTier) : ℕ :=
  db.records.rows.countP fun row => inScope scope row.identity && row.tier = tier.asStr

def kindCount (db : MemoryDb) (scope : MemoryScope) (kind : MemoryKind) : ℕ :=
  db.records.rows.countP fun row =>
    inScope scope row.identity && row.tier = "l1" && row.kind = kind.asStr

def recordMemoryWithLimit (db : MemoryDb) (principalId : PrincipalId) (record : MemoryRecord)
    (limit : ℕ) (capacityKind : Option MemoryKind) : Except SessionError MemoryDb := do
  let scope := record.scope
  loadScope db principalId scope
  ensure (isMemoryRevoked db scope record.id = false) .memoryRevoked
  ensure ((∃ row ∈ db.records.rows, row.identity = scopeIdentity scope record.id) ∨
    identityCount db scope < maxMemoryIdentitiesPerScope) .memoryCapacityExceeded
  ensure (tierCount db scope record.tier < maxMemoryRecordsPerScopeAndTier) .memoryCapacityExceeded
  ensure (∀ kind ∈ capacityKind, kindCount db scope kind < limit) .l1EvidenceCapacityExceeded
  let db ← (insertMemoryRecord ext db record).mapError fun error =>
    if error = .memoryAlreadyExists ∧ capacityKind.isSome then .l1EvidenceAlreadyExists else error
  insertMemoryAudit db record .added record.createdAt none

/-- `split_once`. -/
def splitOnce (separator text : List Char) : Option (List Char × List Char) :=
  match text with
  | [] => if separator = [] then some ([], []) else none
  | c :: rest =>
    if separator.isPrefixOf (c :: rest) then some ([], (c :: rest).drop separator.length)
    else (splitOnce separator rest).map fun parts => (c :: parts.1, parts.2)

/-- `is_canonical_l1_execution_evidence`. -/
def isCanonicalL1ExecutionEvidence (record : MemoryRecord) : Bool :=
  match splitOnce " execution through ".toList record.summary.toList with
  | none => false
  | some (status, target) =>
    -- `rsplit_once('/')`
    match splitOnce ['/'] target.reverse with
    | none => false
    | some (gene, harness) =>
      status ∈ ["completed".toList, "denied".toList, "approval_required".toList,
        "failed".toList] && harness ≠ [] && gene ≠ [] &&
        record.provenance = "execution:" ++ record.id.text

def recordL1Evidence (db : MemoryDb) (principalId : PrincipalId) (record : MemoryRecord) :
    Except SessionError MemoryDb := do
  ensure (record.tier = .l1 ∧ record.kind = .executionEvidence ∧
    record.classification = .internal ∧ isCanonicalL1ExecutionEvidence record = true)
    .invalidL1Evidence
  recordMemoryWithLimit ext db principalId record maxL1EvidencePerScope (some .executionEvidence)

def recordMemory (db : MemoryDb) (principalId : PrincipalId) (record : MemoryRecord) :
    Except SessionError MemoryDb := do
  ensure ((record.tier = .l1 ∨ record.tier = .l3 ∨ record.tier = .l4) ∧
    record.classification ≠ .secret) .invalidMemory
  recordMemoryWithLimit ext db principalId record maxMemoryRecordsPerScopeAndTier none

def evaluationFeedbackPrefix : String := "failed evaluations: "
def evaluationFeedbackSuffix : String := "; retry requires fresh verification"

def evaluationFeedbackId (executionId : ExecutionId) : String :=
  "evaluation-lesson:" ++ hex (ext.sha (asBytes executionId.text)).bytes

/-- The kinds of the evaluations that failed. -/
def failedKinds (evaluation : EvaluationReceipt) : List String :=
  (evaluation.results.filter fun result => !result.advisory && result.status = .failed).map
    (·.kind.asStr)

/-- The lesson of a failed evaluation. -/
def feedbackRecord (session : Session) (provider : String) (evaluation : EvaluationReceipt) :
    Except MemoryContractError MemoryRecord := do
  let scope ← MemoryScope.new session.tenantId session.workspaceId session.id provider
  MemoryRecord.newL1 (evaluationFeedbackId ext evaluation.executionId) .lesson scope
    (evaluationFeedbackPrefix ++ ", ".intercalate (failedKinds evaluation) ++
      evaluationFeedbackSuffix) .internal evaluation.evaluatedAt
    ("evaluation:" ++ evaluation.executionId.text)

/-- `record_evaluation_feedback`: the record, if one is stored. -/
def recordEvaluationFeedback (db : MemoryDb) (session : Session) (principalId : PrincipalId)
    (provider : String) (evaluation : EvaluationReceipt) :
    Except SessionError (MemoryDb × Option MemoryRecord) := do
  ensure (evaluation.sessionId = session.id) .invalidEvaluation
  if failedKinds evaluation = [] then pure (db, none)
  else do
    let record ← (feedbackRecord ext session provider evaluation).mapError fun _ => .invalidMemory
    match recordMemory ext db principalId record with
    | .ok db => pure (db, some record)
    | .error .memoryAlreadyExists => pure (db, none)
    | .error error => .error error

def promoteMemory (db : MemoryDb) (principalId : PrincipalId) (scope : MemoryScope)
    (memoryId : MemoryId) (approval : MemoryApproval) (promotedAt : ℕ) :
    Except SessionError (MemoryDb × MemoryRecord) := do
  loadScope db principalId scope
  ensure (isMemoryRevoked db scope memoryId = false) .memoryRevoked
  let candidate ← orError (← loadMemoryRecord ext db scope memoryId .l1) .memoryNotFound
  let existing ← loadMemoryRecord ext db scope memoryId .l2
  ensure (existing = none) .memoryAlreadyPromoted
  let promoted ← (candidate.promoteL2 approval promotedAt).mapError fun _ => .invalidMemory
  let db ← insertMemoryRecord ext db promoted
  let db ← insertMemoryAudit db promoted .promoted promotedAt
    (promoted.approval.map (·.approvalId))
  pure (db, promoted)

def revokeMemory (db : MemoryDb) (principalId : PrincipalId) (scope : MemoryScope)
    (memoryId : MemoryId) (revokedAt : ℕ) : Except SessionError MemoryDb := do
  loadScope db principalId scope
  ensure (isMemoryRevoked db scope memoryId = false) .memoryRevoked
  let records ← loadMemoryRecordsById ext db scope memoryId
  ensure (records ≠ []) .memoryNotFound
  let column ← timestampI64 revokedAt
  let revocations ← orError (db.revocations.insert? ⟨scopeIdentity scope memoryId, column⟩)
    .database
  records.foldlM (fun db record => insertMemoryAudit db record .revoked revokedAt none)
    { db with revocations }

/-- The rows `compact_revoked_memory` deletes. -/
def compactable (db : MemoryDb) (scope : MemoryScope) (revokedBeforeOrAt : ℕ) (row : MemoryRow) :
    Bool :=
  inScope scope row.identity && (db.revocations.get? row.identity).any fun revocation =>
      revocation.revokedAt ≤ (revokedBeforeOrAt : ℤ)

def compactRevokedMemory (db : MemoryDb) (principalId : PrincipalId) (scope : MemoryScope)
    (revokedBeforeOrAt : ℕ) : Except SessionError (MemoryDb × ℕ) := do
  loadScope db principalId scope
  let column ← timestampI64 revokedBeforeOrAt
  let deleted := db.records.rows.countP (compactable db scope column)
  pure ({ db with records := db.records.delete (compactable db scope column) }, deleted)

end Pandora.Memory.Store
