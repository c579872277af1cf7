import Pandora.Effect.Profile

/-! # Rollout records

The redacted evidence of an execution, linked into a chain: each record carries its number, the
digest of its scope, the digest of the record before it and its own. `verifyRecords` recomputes all
of them.

What is fed to the hash is a sequence of prefix codes, so it determines the record: a text after its
length, an option after its tag, a variant after its name (`prefixCode_evidence`). -/

namespace Pandora.Rollout.Records

open Text Ids Lib.Checked Lib.Codes
open Effect.Profile (digestText prefixCode_digestText)

def rolloutProjectionVersion : ℕ := 1
def maxRolloutRecords : ℕ := 4096
def maxLabelBytes : ℕ := 256

inductive RolloutContractError
  | emptyField (field : String)
  | fieldTooLong (field : String)
  | invalidCode (field : String)
  | invalidDigest
  | emptyRecords
  | tooManyRecords
  | invalidSequence
  | scopeMismatch
  | previousDigestMismatch
  | recordDigestMismatch
  | finalDigestMismatch
deriving DecidableEq

/-! ## Digests and scopes -/

def isSha256Digest (value : String) : Bool :=
  (strip "sha256:" value).any fun digest =>
    (asBytes digest).length = 64 && isLowerHex (asBytes digest)

structure RolloutDigest where
  text : String
  ok : isSha256Digest text = true
deriving DecidableEq

def RolloutDigest.new (value : String) : Except RolloutContractError RolloutDigest :=
  if h : isSha256Digest value = true then .ok ⟨value, h⟩ else .error .invalidDigest

theorem RolloutDigest.ext_text {a b : RolloutDigest} (h : a.text = b.text) : a = b := by
  cases a; cases b; cases h; rfl

theorem isSha256Digest_hex (hash : Bytes32) : isSha256Digest ("sha256:" ++ hex hash.bytes) := by
  unfold isSha256Digest
  rw [strip_append, Option.any_some, length_hex, hash.length_eq, isLowerHex_hex]
  rfl

theorem RolloutDigest.size (digest : RolloutDigest) : digest.text.utf8ByteSize < 256 ^ 8 := by
  have hok := digest.ok
  unfold isSha256Digest at hok
  obtain ⟨rest, hstrip, hrest⟩ := (Option.any_eq_true _ _).mp hok
  rw [Bool.and_eq_true, decide_eq_true_eq, length_asBytes] at hrest
  unfold strip at hstrip
  split_ifs at hstrip with hfront
  rw [Option.some.injEq] at hstrip
  obtain ⟨tail, htail⟩ := List.isPrefixOf_iff_prefix.mp hfront
  rw [← htail, List.drop_left] at hstrip
  have htext : "sha256:" ++ rest = digest.text := by
    have hlist : rest.toList = tail := by rw [← hstrip, String.toList_ofList]
    rw [← String.toList_inj, String.toList_append, hlist, htail]
  have hprefix : ("sha256:" : String).utf8ByteSize = 7 := by decide
  rw [← htext, String.utf8ByteSize_append, hrest.1, hprefix]
  decide

structure RolloutScope where
  tenantId : TenantId
  workspaceId : WorkspaceId
  sessionId : SessionId
  executionId : ExecutionId

/-- What is fed to the hash for a scope. -/
def scopeMessage (scope : RolloutScope) : List UInt8 :=
  asBytes "pandora-rollout-scope" ++ digestText scope.tenantId.text ++
    digestText scope.workspaceId.text ++ digestText scope.sessionId.text ++
    digestText scope.executionId.text

/-! ## Evidence -/

inductive RolloutRecordKind
  | contextManifest | runtimeEvent | effectReceipt
deriving DecidableEq

def RolloutRecordKind.asStr : RolloutRecordKind → String
  | .contextManifest => "context_manifest"
  | .runtimeEvent => "runtime_event"
  | .effectReceipt => "effect_receipt"

inductive EventType
  | sessionStarted | effectRequested | effectCompleted | policyApproved | policyDenied
  | approvalRequired | executionFailed | providerCall | mcpEraSelected
deriving DecidableEq

def eventTypeCode : EventType → String
  | .sessionStarted => "session_started"
  | .effectRequested => "effect_requested"
  | .effectCompleted => "effect_completed"
  | .policyApproved => "policy_approved"
  | .policyDenied => "policy_denied"
  | .approvalRequired => "approval_required"
  | .executionFailed => "execution_failed"
  | .providerCall => "provider_call"
  | .mcpEraSelected => "mcp_era_selected"

inductive RolloutEventEvidence
  | empty
  | effect (capability : String) (requestDigest : RequestDigest)
  | policy (reasonDigest : RolloutDigest)
  | failure (code : String)
  | providerCall (provider : String) (requestDigest : RequestDigest)
  | mcpEra (server era : String) (downgraded : Bool)

inductive RolloutEffectOutcome
  | succeeded
  | failed (code : String)
  | denied (reasonDigest : RolloutDigest)

inductive RolloutEvidence
  | contextManifest (manifestDigest : RolloutDigest)
  | runtimeEvent (eventId : EventId) (eventType : EventType) (harnessId : Option HarnessId)
    (geneId : Option GeneId) (policyVersion : Option UInt32) (receiptId : Option ReceiptId)
    (payload : RolloutEventEvidence)
  | effectReceipt (receiptId : ReceiptId) (permitId : PermitId) (requestDigest : RequestDigest)
    (completedAt : UInt64) (outcome : RolloutEffectOutcome)

def RolloutEvidence.kind : RolloutEvidence → RolloutRecordKind
  | .contextManifest _ => .contextManifest
  | .runtimeEvent .. => .runtimeEvent
  | .effectReceipt .. => .effectReceipt

/-! ### Checks -/

def validateIdentifier (field value : String) : Except RolloutContractError Unit := do
  ensure (¬ (trim value).isEmpty) (.emptyField field)
  ensure (value.utf8ByteSize ≤ maxLabelBytes) (.fieldTooLong field)

def validateOptionalIdentifier (field : String) (value : Option String) :
    Except RolloutContractError Unit :=
  value.elim (.ok ()) (validateIdentifier field)

def validateLabel (field value : String) : Except RolloutContractError Unit := do
  validateIdentifier field value
  ensure (¬ value.toList.any isControl) (.invalidCode field)

/-- `is_ascii_alphanumeric`, or one of the five signs. -/
def codeByte (byte : UInt8) : Bool :=
  let n := byte.toNat
  (0x30 ≤ n && n ≤ 0x39) || (0x41 ≤ n && n ≤ 0x5A) || (0x61 ≤ n && n ≤ 0x7A) || n == 0x5F ||
    n == 0x2D || n == 0x2E || n == 0x3A || n == 0x2F

def validateCode (field value : String) : Except RolloutContractError Unit := do
  validateIdentifier field value
  ensure ((asBytes value).all codeByte) (.invalidCode field)

def RolloutEventEvidence.validate : RolloutEventEvidence → Except RolloutContractError Unit
  | .empty => .ok ()
  | .effect capability requestDigest => do
    validateCode "capability" capability
    validateIdentifier "request digest" requestDigest.text
  | .policy reasonDigest => do
    let _ ← RolloutDigest.new reasonDigest.text
  | .failure code => validateCode "failure code" code
  | .providerCall provider requestDigest => do
    validateLabel "provider" provider
    validateIdentifier "request digest" requestDigest.text
  | .mcpEra server era _ => do
    validateLabel "MCP server" server
    validateCode "MCP era" era

def RolloutEffectOutcome.validate : RolloutEffectOutcome → Except RolloutContractError Unit
  | .succeeded => .ok ()
  | .failed code => validateCode "effect failure code" code
  | .denied reasonDigest => do
    let _ ← RolloutDigest.new reasonDigest.text

def RolloutEvidence.validate : RolloutEvidence → Except RolloutContractError Unit
  | .contextManifest manifestDigest => do
    let _ ← RolloutDigest.new manifestDigest.text
  | .runtimeEvent eventId _ harnessId geneId _ receiptId payload => do
    validateIdentifier "event ID" eventId.text
    validateOptionalIdentifier "harness ID" (harnessId.map (·.text))
    validateOptionalIdentifier "gene ID" (geneId.map (·.text))
    validateOptionalIdentifier "receipt ID" (receiptId.map (·.text))
    payload.validate
  | .effectReceipt receiptId permitId requestDigest _ outcome => do
    validateIdentifier "receipt ID" receiptId.text
    validateIdentifier "permit ID" permitId.text
    validateIdentifier "request digest" requestDigest.text
    outcome.validate

/-! ### What is fed to the hash -/

/-- `digest_optional_text`. -/
def digestOptionalText (value : Option String) : List UInt8 := tagged digestText value

/-- `digest_optional_u32`. -/
def digestOptionalU32 (value : Option UInt32) : List UInt8 :=
  tagged (fun value : UInt32 => bigEndian 4 value.toNat) value

def RolloutEventEvidence.digestInto : RolloutEventEvidence → List UInt8
  | .empty => digestText "empty"
  | .effect capability requestDigest =>
    digestText "effect" ++ (digestText capability ++ digestText requestDigest.text)
  | .policy reasonDigest => digestText "policy" ++ digestText reasonDigest.text
  | .failure code => digestText "failure" ++ digestText code
  | .providerCall provider requestDigest =>
    digestText "provider_call" ++ (digestText provider ++ digestText requestDigest.text)
  | .mcpEra server era downgraded =>
    digestText "mcp_era" ++ (digestText server ++ (digestText era ++ [downgraded.toUInt8]))

def RolloutEffectOutcome.digestInto : RolloutEffectOutcome → List UInt8
  | .succeeded => digestText "succeeded"
  | .failed code => digestText "failed" ++ digestText code
  | .denied reasonDigest => digestText "denied" ++ digestText reasonDigest.text

def RolloutEvidence.digestInto (evidence : RolloutEvidence) : List UInt8 :=
  digestText evidence.kind.asStr ++ match evidence with
    | .contextManifest manifestDigest => digestText manifestDigest.text
    | .runtimeEvent eventId eventType harnessId geneId policyVersion receiptId payload =>
      digestText eventId.text ++ (digestText (eventTypeCode eventType) ++
        (digestOptionalText (harnessId.map (·.text)) ++
        (digestOptionalText (geneId.map (·.text)) ++ (digestOptionalU32 policyVersion ++
        (digestOptionalText (receiptId.map (·.text)) ++ payload.digestInto)))))
    | .effectReceipt receiptId permitId requestDigest completedAt outcome =>
      digestText receiptId.text ++ (digestText permitId.text ++ (digestText requestDigest.text ++
        (bigEndian 8 completedAt.toNat ++ outcome.digestInto)))

/-! ## Records -/

/-- A record, chained to the one before by its digest. -/
structure RolloutRecord where
  sequence : UInt32
  scopeDigest : RolloutDigest
  previousDigest : Option RolloutDigest
  evidence : RolloutEvidence
  digest : RolloutDigest

/-- What is fed to the hash for a record. -/
def recordMessage (sequence : UInt32) (scopeDigest : RolloutDigest)
    (previousDigest : Option RolloutDigest) (evidence : RolloutEvidence) : List UInt8 :=
  asBytes "pandora-rollout-record" ++ bigEndian 2 rolloutProjectionVersion ++
    bigEndian 4 sequence.toNat ++ digestText scopeDigest.text ++
    digestOptionalText (previousDigest.map (·.text)) ++ evidence.digestInto

variable (sha : Sha256)

/-- `finish_digest`. -/
def finishDigest (message : List UInt8) : RolloutDigest :=
  ⟨"sha256:" ++ hex (sha message).bytes, isSha256Digest_hex (sha message)⟩

def RolloutScope.digest (scope : RolloutScope) : RolloutDigest :=
  finishDigest sha (scopeMessage scope)

def digestRecord (sequence : UInt32) (scopeDigest : RolloutDigest)
    (previousDigest : Option RolloutDigest) (evidence : RolloutEvidence) : RolloutDigest :=
  finishDigest sha (recordMessage sequence scopeDigest previousDigest evidence)

def RolloutRecord.link (scope : RolloutScope) (sequence : UInt32)
    (previousDigest : Option RolloutDigest) (evidence : RolloutEvidence) :
    Except RolloutContractError RolloutRecord := do
  evidence.validate
  let scopeDigest := scope.digest sha
  pure ⟨sequence, scopeDigest, previousDigest, evidence,
    digestRecord sha sequence scopeDigest previousDigest evidence⟩

def RolloutRecord.verify (record : RolloutRecord) : Except RolloutContractError Unit := do
  record.evidence.validate
  ensure (digestRecord sha record.sequence record.scopeDigest record.previousDigest
    record.evidence = record.digest) .recordDigestMismatch

/-- The loop of `verify_records`: from the record at `index`, after the digest `previous`; it
returns the last digest. -/
def verifyFrom (scopeDigest : RolloutDigest) : ℕ → Option RolloutDigest → List RolloutRecord →
    Except RolloutContractError (Option RolloutDigest)
  | _, previous, [] => .ok previous
  | index, previous, record :: records => do
    let expected ← orError (fitsU32 index) .tooManyRecords
    ensure (record.sequence = expected) .invalidSequence
    ensure (record.scopeDigest = scopeDigest) .scopeMismatch
    ensure (record.previousDigest = previous) .previousDigestMismatch
    record.verify sha
    verifyFrom scopeDigest (index + 1) (some record.digest) records

def verifyRecords (scope : RolloutScope) (records : List RolloutRecord)
    (finalDigest : RolloutDigest) : Except RolloutContractError Unit := do
  ensure (records ≠ []) .emptyRecords
  ensure (records.length ≤ maxRolloutRecords) .tooManyRecords
  let last ← verifyFrom sha (scope.digest sha) 0 none records
  ensure (last = some finalDigest) .finalDigestMismatch

end Pandora.Rollout.Records
