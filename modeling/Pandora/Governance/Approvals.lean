import Pandora.Effect.Request
import Pandora.Lib.Tables
import Pandora.Lib.Runs

/-! # The approval store

The rows of the `approvals` table, as SQLite keeps them (texts and signed integers), and the three
calls that write them: `create`, `resolve` and `consumeGrant`. Each reads the row, decides on the
decoded approval and on the clock, and repeats the decision in the `WHERE` clause of its `UPDATE`.

A call that returns an error has rolled back, but for one case: an approval found expired is marked
so, the mark is committed, and only then is the call refused (`Section`). -/

namespace Pandora.Governance.Approvals

open Lib.Checked Lib.Tables Text Ids
open Effect.Request

/-! ## Records -/

inductive ApprovalStatus
  | pending | approved | denied | consumed | expired
deriving DecidableEq

inductive ApprovalError
  | corruptRecord
  | invalidSummary
  | alreadyExists
  | notFound
  | scopeMismatch
  | digestMismatch
  | expired
  | terminal
deriving DecidableEq

namespace ApprovalStatus

def asStr : ApprovalStatus → String
  | pending => "pending"
  | approved => "approved"
  | denied => "denied"
  | consumed => "consumed"
  | expired => "expired"

def parse (value : String) : Except ApprovalError ApprovalStatus :=
  if value = "pending" then .ok pending
  else if value = "approved" then .ok approved
  else if value = "denied" then .ok denied
  else if value = "consumed" then .ok consumed
  else if value = "expired" then .ok expired
  else .error .corruptRecord

@[simp] theorem parse_asStr (status : ApprovalStatus) : parse status.asStr = .ok status := by
  cases status <;> rfl

theorem asStr_inj {a b : ApprovalStatus} (h : a.asStr = b.asStr) : a = b := by
  have hparse := parse_asStr a
  rw [h, parse_asStr, Except.ok.injEq] at hparse
  exact hparse.symm

end ApprovalStatus

def maxSummaryBytes : ℕ := 4096

/-- `str::split_whitespace`. -/
def splitWhitespace (s : String) : List (List Char) :=
  (s.toList.splitOnP isWhitespace).filter (· ≠ [])

/-- Tokens that look like a credential. -/
def isSecret (token : List Char) : Bool :=
  let lowercase := token.map Char.toLower
  decide ("sk-".toList <:+: lowercase) || decide ("token=".toList <:+: lowercase) ||
    decide ("api_key=".toList <:+: lowercase) || decide ("apikey=".toList <:+: lowercase) ||
    lowercase == "bearer".toList

def redactSummary (summary : String) : String :=
  String.ofList ([' '].intercalate ((splitWhitespace summary).map fun token =>
    if isSecret token then "[redacted]".toList else token))

/-- A request for approval: `new` is the only way to one. -/
structure ApprovalRequest where
  id : String
  sessionId : SessionId
  executionId : ExecutionId
  principalId : PrincipalId
  geneId : GeneId
  requestDigest : RequestDigest
  requestSummary : String
  policyVersion : UInt32
  expiresAt : ℕ
  nonblank : ¬ (trim id).isEmpty ∧ ¬ (trim requestSummary).isEmpty
  short : requestSummary.utf8ByteSize ≤ maxSummaryBytes

def ApprovalRequest.new (id : String) (sessionId : SessionId) (executionId : ExecutionId)
    (principalId : PrincipalId) (geneId : GeneId) (requestDigest : RequestDigest)
    (requestSummary : String) (policyVersion : UInt32) (expiresAt : ℕ) :
    Except ApprovalError ApprovalRequest :=
  let summary := redactSummary requestSummary
  if h : (trim id).isEmpty ∨ (trim summary).isEmpty ∨ maxSummaryBytes < summary.utf8ByteSize then
    .error .invalidSummary
  else
    .ok {
      id, sessionId, executionId, principalId, geneId, requestDigest, requestSummary := summary
      policyVersion, expiresAt
      nonblank := ⟨fun he => h (.inl he), fun he => h (.inr (.inl he))⟩
      short := Nat.le_of_not_lt fun he => h (.inr (.inr he)) }

structure PendingApproval where
  id : String
  sessionId : SessionId
  executionId : ExecutionId
  principalId : PrincipalId
  geneId : GeneId
  requestDigest : RequestDigest
  requestSummary : String
  policyVersion : UInt32
  expiresAt : ℕ
  status : ApprovalStatus
  approverId : Option PrincipalId
  createdAt : ℕ

/-- The status the clock shows: past its expiry, an undecided or unused approval is expired. -/
def PendingApproval.statusAt (approval : PendingApproval) (now : ℕ) : ApprovalStatus :=
  if (approval.status = .pending ∨ approval.status = .approved) ∧
    approval.expiresAt ≤ now then .expired
  else approval.status

/-- The evidence a consumption returns. -/
structure ApprovalGrant where
  approval : PendingApproval

/-- `matches`. -/
def ApprovalGrant.matchesRequest {sha : Sha256} {json : JsonWriter} (grant : ApprovalGrant)
    (request : OperationRequest sha json) (policyVersion : UInt32) : Bool :=
  grant.approval.sessionId = request.sessionId ∧ grant.approval.executionId = request.executionId ∧
    grant.approval.principalId = request.principalId ∧ grant.approval.geneId = request.geneId ∧
    grant.approval.requestDigest = request.requestDigest ∧
      grant.approval.policyVersion = policyVersion

/-! ## Rows -/

/-- A row of `approvals`. -/
structure ApprovalRow where
  (id sessionId executionId principalId geneId requestDigest requestSummary : String)
  (policyVersion expiresAt : ℤ)
  status : String
  approverId : Option String
  resolvedAt : Option ℤ
  createdAt : ℤ

abbrev ApprovalDb := Table ApprovalRow.id

/-- A column that holds an identifier. -/
def decodeId {kind : IdKind} (text : String) : Except ApprovalError (Id kind) :=
  orError (Id.new text).toOption .corruptRecord

def decodeRaw (raw : ApprovalRow) : Except ApprovalError PendingApproval := do
  let sessionId ← decodeId raw.sessionId
  let executionId ← decodeId raw.executionId
  let principalId ← decodeId raw.principalId
  let geneId ← decodeId raw.geneId
  let requestDigest ← decodeId raw.requestDigest
  let policyVersion ← orError (fitsU32 raw.policyVersion) .corruptRecord
  let expiresAt ← orError (fitsU64 raw.expiresAt) .corruptRecord
  let status ← ApprovalStatus.parse raw.status
  let approverId ← raw.approverId.mapM decodeId
  let createdAt ← orError (fitsU64 raw.createdAt) .corruptRecord
  pure {
    id := raw.id, sessionId, executionId, principalId, geneId, requestDigest
    requestSummary := raw.requestSummary, policyVersion, expiresAt, status, approverId, createdAt }

theorem decodeId_eq_ok {kind : IdKind} {text : String} {id : Id kind} :
    decodeId text = .ok id ↔ text = id.text := by
  unfold decodeId
  rw [orError_eq_ok]
  constructor
  · intro h
    rcases hnew : (Id.new text : Except IdError (Id kind)) with e | id'
    · rw [hnew] at h; cases h
    · rw [hnew] at h; cases h
      exact (Id.new_eq_ok hnew).symm
  · rintro rfl
    rw [Id.new_text]; rfl

/-- A row decodes to an approval when column by column it is the approval's. -/
theorem decodeRaw_eq_ok {raw : ApprovalRow} {a : PendingApproval} :
    decodeRaw raw = .ok a ↔ raw.id = a.id ∧ raw.sessionId = a.sessionId.text ∧
      raw.executionId = a.executionId.text ∧ raw.principalId = a.principalId.text ∧
      raw.geneId = a.geneId.text ∧ raw.requestDigest = a.requestDigest.text ∧
      raw.requestSummary = a.requestSummary ∧ fitsU32 raw.policyVersion = some a.policyVersion ∧
      fitsU64 raw.expiresAt = some a.expiresAt ∧ ApprovalStatus.parse raw.status = .ok a.status ∧
      raw.approverId.mapM decodeId = Except.ok (ε := ApprovalError) a.approverId ∧
      fitsU64 raw.createdAt = some a.createdAt := by
  unfold decodeRaw
  simp only [bind_eq_ok, pure_eq_ok, orError_eq_ok, decodeId_eq_ok]
  constructor
  · rintro ⟨_, h1, _, h2, _, h3, _, h4, _, h5, _, h6, _, h7, _, h8, _, h9, _, h10, rfl⟩
    exact ⟨rfl, h1, h2, h3, h4, h5, rfl, h6, h7, h8, h9, h10⟩
  · rintro ⟨h0, h1, h2, h3, h4, h5, h6, h7, h8, h9, h10, h11⟩
    exact ⟨_, h1, _, h2, _, h3, _, h4, _, h5, _, h7, _, h8, _, h9, _, h10, _, h11, by rw [h0, h6]⟩

def loadApproval (db : ApprovalDb) (id : String) : Except ApprovalError (Option PendingApproval) :=
  (db.get? id).mapM decodeRaw

def toI64 (timestamp : ℕ) : Except ApprovalError ℕ := orError (fitsI64 timestamp) .corruptRecord

def ensurePrincipal (approval : PendingApproval) (principalId : PrincipalId) :
    Except ApprovalError Unit :=
  ensure (approval.principalId = principalId) .scopeMismatch

/-! ## Calls -/

/-- What a call does while it holds the connection: roll back and fail, or commit and go on, or
commit and fail all the same. -/
abbrev Section := Except ApprovalError (ApprovalDb × Except ApprovalError Unit)

/-- A section, and then the read that makes the answer. -/
def Section.thenRead {α : Type} (result : Section) (db : ApprovalDb)
    (read : ApprovalDb → Except ApprovalError α) : ApprovalDb × Except ApprovalError α :=
  match result with
  | .error e => (db, .error e)
  | .ok (db', .error e) => (db', .error e)
  | .ok (db', .ok ()) => (db', read db')

def inspectUnscoped (db : ApprovalDb) (id : String) : Except ApprovalError PendingApproval := do
  orError (← loadApproval db id) .notFound

def inspect (db : ApprovalDb) (id : String) (principalId : PrincipalId) :
    Except ApprovalError PendingApproval := do
  let approval ← inspectUnscoped db id
  ensure (approval.principalId = principalId) .notFound
  pure approval

/-- The row `create` inserts. -/
def newRow (request : ApprovalRequest) (expiresAt createdAt : ℕ) : ApprovalRow where
  id := request.id
  sessionId := request.sessionId.text
  executionId := request.executionId.text
  principalId := request.principalId.text
  geneId := request.geneId.text
  requestDigest := request.requestDigest.text
  requestSummary := request.requestSummary
  policyVersion := request.policyVersion.toNat
  expiresAt := expiresAt
  status := "pending"
  approverId := none
  resolvedAt := none
  createdAt := createdAt

/-- The `CHECK` clauses of the table. -/
def ApprovalRow.checks (row : ApprovalRow) : Prop :=
  0 ≤ row.policyVersion ∧ 0 ≤ row.expiresAt ∧ 0 ≤ row.createdAt

instance (row : ApprovalRow) : Decidable row.checks := inferInstanceAs (Decidable (_ ∧ _ ∧ _))

def insertApproval (db : ApprovalDb) (request : ApprovalRequest) (createdAt : ℕ) : Section := do
  let row := newRow request (← toI64 request.expiresAt) (← toI64 createdAt)
  -- Every violated constraint, a `CHECK` too, is reported as a taken identifier.
  ensure row.checks .alreadyExists
  let db ← orError (db.insert? row) .alreadyExists
  pure (db, .ok ())

/-- `create`: `createdAt` is the reading of the wall clock. -/
def create (db : ApprovalDb) (request : ApprovalRequest) (createdAt : ℕ) :
    ApprovalDb × Except ApprovalError PendingApproval :=
  (insertApproval db request createdAt).thenRead db (inspectUnscoped · request.id)

/-- `SET status = …`. -/
def ApprovalRow.withStatus (status : String) (row : ApprovalRow) : ApprovalRow :=
  { row with status }

/-- `SET status = …, approver_id = …, resolved_at = …`. -/
def ApprovalRow.withResolution (allow : Bool) (approverId : PrincipalId) (resolvedAt : ℕ)
    (row : ApprovalRow) : ApprovalRow :=
  { row with
    status := if allow then "approved" else "denied"
    approverId := some approverId.text
    resolvedAt := some resolvedAt }

/-- `UPDATE approvals SET … WHERE id = … AND p`. -/
def updateRow (db : ApprovalDb) (id : String) (p : ApprovalRow → Bool)
    (f : ApprovalRow → ApprovalRow) (hf : ∀ row, (f row).id = row.id) : ApprovalDb :=
  db.update (fun row => row.id = id ∧ p row) f fun row _ => hf row

/-- The number of rows the `UPDATE` changes. -/
def changed (db : ApprovalDb) (id : String) (p : ApprovalRow → Bool) : ℕ :=
  db.rows.countP fun row => row.id = id ∧ p row

def resolveApproval (db : ApprovalDb) (id : String) (principalId approverId : PrincipalId)
    (allow : Bool) (now : ℕ) : Section := do
  let current ← orError (← loadApproval db id) .notFound
  ensurePrincipal current principalId
  if current.statusAt now = .expired then
    pure (updateRow db id (fun row => row.status = "pending" ∨ row.status = "approved")
      (.withStatus "expired") (fun _ => rfl), .error .expired)
  else do
    ensure (current.status = .pending) .terminal
    let resolvedAt ← toI64 now
    let pendingAt : ApprovalRow → Bool := fun row => row.status = "pending" ∧
      row.expiresAt > resolvedAt
    ensure (changed db id pendingAt = 1) .terminal
    pure (updateRow db id pendingAt (.withResolution allow approverId resolvedAt) (fun _ => rfl),
      .ok ())

def resolve (db : ApprovalDb) (id : String) (principalId approverId : PrincipalId) (allow : Bool)
    (now : ℕ) :
    ApprovalDb × Except ApprovalError PendingApproval :=
  (resolveApproval db id principalId approverId allow now).thenRead db (inspect · id principalId)

def consumeApproval (db : ApprovalDb) (id : String) (principalId : PrincipalId)
    (sessionId : SessionId) (executionId : ExecutionId) (geneId : GeneId)
    (requestDigest : RequestDigest) (now : ℕ) : Section := do
  let current ← orError (← loadApproval db id) .notFound
  ensurePrincipal current principalId
  if current.statusAt now = .expired then
    pure (updateRow db id (fun row => row.status = "approved") (.withStatus "expired")
      (fun _ => rfl), .error .expired)
  else do
    ensure (current.status = .approved) .terminal
    ensure (current.sessionId = sessionId ∧ current.executionId = executionId ∧
      current.geneId = geneId)
      .scopeMismatch
    ensure (current.requestDigest = requestDigest) .digestMismatch
    let consumedAt ← toI64 now
    let approvedAt : ApprovalRow → Bool := fun row => row.status = "approved" ∧
      row.expiresAt > consumedAt
    ensure (changed db id approvedAt = 1) .terminal
    pure (updateRow db id approvedAt (.withStatus "consumed") (fun _ => rfl), .ok ())

def consumeGrant (db : ApprovalDb) (id : String) (principalId : PrincipalId) (sessionId : SessionId)
    (executionId : ExecutionId) (geneId : GeneId) (requestDigest : RequestDigest) (now : ℕ) :
    ApprovalDb × Except ApprovalError ApprovalGrant :=
  (consumeApproval db id principalId sessionId executionId geneId requestDigest now).thenRead db
    fun db => do pure ⟨← inspect db id principalId⟩

/-- `consume`. -/
def consume (db : ApprovalDb) (id : String) (principalId : PrincipalId) (sessionId : SessionId)
    (executionId : ExecutionId) (geneId : GeneId) (requestDigest : RequestDigest) (now : ℕ) :
    ApprovalDb × Except ApprovalError PendingApproval :=
  let (db, result) := consumeGrant db id principalId sessionId executionId geneId requestDigest now
  (db, result.map (·.approval))

end Pandora.Governance.Approvals
