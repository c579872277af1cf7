import Pandora.Rollout.Records
import Pandora.Subagents.Store

/-! # The rollout reducer

`reduce` of `rollout_reducer.rs` makes the rollout of an execution from its events and the receipts
of its effects. An event that completes an effect names the receipt; the events are put into a map
from the receipts they name, and every receipt takes its event out of the map.

The map from receipts is a list of pairs. A call of a provider has no credential here, since the
reducer does not read it. -/

set_option linter.dupNamespace false

namespace Pandora.Rollout.Reducer

open Text Ids Lib.Checked
open Effect.Profile (digestText)
open Rollout.Records
open Subagents.Store (EffectOutcome)

def maxReasonBytes : ℕ := 4096

inductive RolloutReducerError
  | contract (error : RolloutContractError)
  | emptyEvents
  | missingSessionScope
  | missingExecutionScope
  | scopeMismatch
  | duplicateEventId
  | duplicateReceiptId
  | ambiguousReceiptLink
  | receiptNotLinked
  | receiptMissing
  | receiptDigestMismatch

/-! ## Events and receipts -/

structure EventContext where
  tenantId : TenantId
  workspaceId : WorkspaceId
  sessionId : Option SessionId
  executionId : Option ExecutionId
  harnessId : Option HarnessId
  geneId : Option GeneId
  policyVersion : Option UInt32
  receiptId : Option ReceiptId
deriving DecidableEq

inductive EventPayload
  | empty
  | effect (capability : String) (requestDigest : RequestDigest)
  | policy (reason : String)
  | failure (code : String)
  | providerCall (provider : String) (requestDigest : RequestDigest)
  | mcpEra (server era : String) (downgraded : Bool)
deriving DecidableEq

structure RuntimeEvent where
  eventId : EventId
  eventType : EventType
  context : EventContext
  payload : EventPayload
deriving DecidableEq

/-- A receipt, with its time in 64 bits. -/
structure EffectReceipt where
  receiptId : ReceiptId
  permitId : PermitId
  requestDigest : RequestDigest
  completedAt : UInt64
  outcome : EffectOutcome

/-! ## Evidence -/

variable (sha : Sha256)

/-- `digest_sensitive`. -/
def digestSensitive (domain value : String) : Except RolloutContractError RolloutDigest := do
  ensure (¬ (trim value).isEmpty) (.emptyField "redacted reason")
  ensure (value.utf8ByteSize ≤ maxReasonBytes) (.fieldTooLong "redacted reason")
  pure (finishDigest sha (asBytes domain ++ digestText value))

def projectPayload : EventPayload → Except RolloutContractError RolloutEventEvidence
  | .empty => .ok .empty
  | .effect capability requestDigest => do
    validateCode "capability" capability
    pure (.effect capability requestDigest)
  | .policy reason => do
    let reasonDigest ← digestSensitive sha "pandora-rollout-policy-reason" reason
    pure (.policy reasonDigest)
  | .failure code => do
    validateCode "failure code" code
    pure (.failure code)
  | .providerCall provider requestDigest => do
    validateLabel "provider" provider
    pure (.providerCall provider requestDigest)
  | .mcpEra server era downgraded => do
    validateLabel "MCP server" server
    validateCode "MCP era" era
    pure (.mcpEra server era downgraded)

def projectEvent (event : RuntimeEvent) : Except RolloutContractError RolloutEvidence := do
  let payload ← projectPayload sha event.payload
  pure (.runtimeEvent event.eventId event.eventType event.context.harnessId event.context.geneId
    event.context.policyVersion event.context.receiptId payload)

/-- `from_effect_outcome`. -/
def fromEffectOutcome : EffectOutcome → Except RolloutContractError RolloutEffectOutcome
  | .succeeded => .ok .succeeded
  | .failed code => do
    validateCode "effect failure code" code
    pure (.failed code)
  | .denied reason => do
    let reasonDigest ← digestSensitive sha "pandora-rollout-denial-reason" reason
    pure (.denied reasonDigest)

/-! ## Rollouts -/

/-- The scope, the records and the final digest. -/
structure Rollout where
  projectionVersion : ℕ
  scope : RolloutScope
  records : List RolloutRecord
  finalDigest : RolloutDigest

def Rollout.new (scope : RolloutScope) (records : List RolloutRecord) :
    Except RolloutContractError Rollout := do
  let finalDigest ← orError (records.getLast?.map (·.digest)) .emptyRecords
  verifyRecords sha scope records finalDigest
  pure ⟨rolloutProjectionVersion, scope, records, finalDigest⟩

def Rollout.verify (rollout : Rollout) : Except RolloutContractError Unit := do
  ensure (rollout.projectionVersion = rolloutProjectionVersion) .recordDigestMismatch
  verifyRecords sha rollout.scope rollout.records rollout.finalDigest

/-! ## The reduction -/

/-- A sum that does not fit its type has too many records as well. -/
def requiredRecordCount (eventCount receiptCount : ℕ) : Except RolloutReducerError ℕ := do
  ensure (eventCount + receiptCount + 1 ≤ maxRolloutRecords) (.contract .tooManyRecords)
  pure (eventCount + receiptCount + 1)

def scopeFromContext (context : EventContext) : Except RolloutReducerError RolloutScope := do
  let sessionId ← orError context.sessionId .missingSessionScope
  let executionId ← orError context.executionId .missingExecutionScope
  pure ⟨context.tenantId, context.workspaceId, sessionId, executionId⟩

def validateScope (scope : RolloutScope) (context : EventContext) :
    Except RolloutReducerError Unit := do
  let sessionId ← orError context.sessionId .missingSessionScope
  let executionId ← orError context.executionId .missingExecutionScope
  ensure (¬ (context.tenantId ≠ scope.tenantId ∨ context.workspaceId ≠ scope.workspaceId ∨
    sessionId ≠ scope.sessionId ∨ executionId ≠ scope.executionId)) .scopeMismatch

def pushRecord (scope : RolloutScope) (records : List RolloutRecord) (evidence : RolloutEvidence) :
    Except RolloutReducerError (List RolloutRecord) := do
  let sequence ← orError (fitsU32 records.length) (.contract .tooManyRecords)
  let previousDigest := records.getLast?.map (·.digest)
  let record ← (RolloutRecord.link sha scope sequence previousDigest evidence).mapError .contract
  pure (records ++ [record])

/-- The receipt that an event which completes an effect names, with the digest of the request. -/
def completion (event : RuntimeEvent) : Option (ReceiptId × RequestDigest) :=
  if event.eventType = .effectCompleted then
    match event.context.receiptId, event.payload with
    | some receiptId, .effect _ requestDigest => some (receiptId, requestDigest)
    | _, _ => none
  else none

/-- The state of the two loops. -/
structure Reducing where
  records : List RolloutRecord
  eventIds : Finset EventId
  receiptLinks : List (ReceiptId × RequestDigest)
  receiptIds : Finset ReceiptId

def reduceEvent (scope : RolloutScope) (state : Reducing) (event : RuntimeEvent) :
    Except RolloutReducerError Reducing := do
  validateScope scope event.context
  ensure (event.eventId ∉ state.eventIds) .duplicateEventId
  ensure (∀ link ∈ completion event, link.1 ∉ state.receiptLinks.map Prod.fst) .ambiguousReceiptLink
  let evidence ← (projectEvent sha event).mapError .contract
  let records ← pushRecord sha scope state.records evidence
  pure { state with
    records := records
    eventIds := insert event.eventId state.eventIds
    receiptLinks := state.receiptLinks ++ (completion event).toList }

def reduceReceipt (scope : RolloutScope) (state : Reducing) (receipt : EffectReceipt) :
    Except RolloutReducerError Reducing := do
  ensure (receipt.receiptId ∉ state.receiptIds) .duplicateReceiptId
  let linkedDigest ← orError
    ((state.receiptLinks.find? fun link => link.1 = receipt.receiptId).map Prod.snd)
    .receiptNotLinked
  ensure (linkedDigest = receipt.requestDigest) .receiptDigestMismatch
  let outcome ← (fromEffectOutcome sha receipt.outcome).mapError .contract
  let records ← pushRecord sha scope state.records (.effectReceipt receipt.receiptId
    receipt.permitId receipt.requestDigest receipt.completedAt outcome)
  pure { state with
    records := records
    receiptIds := insert receipt.receiptId state.receiptIds
    receiptLinks := state.receiptLinks.filter fun link => link.1 ≠ receipt.receiptId }

def reduce (contextManifestDigest : String) (events : List RuntimeEvent)
    (receipts : List EffectReceipt) : Except RolloutReducerError Rollout := do
  let first ← orError events.head? .emptyEvents
  let scope ← scopeFromContext first.context
  let _ ← requiredRecordCount events.length receipts.length
  let manifestDigest ← (RolloutDigest.new contextManifestDigest).mapError .contract
  let records ← pushRecord sha scope [] (.contextManifest manifestDigest)
  let state ← events.foldlM (reduceEvent sha scope) ⟨records, ∅, [], ∅⟩
  let state ← receipts.foldlM (reduceReceipt sha scope) state
  ensure (state.receiptLinks = []) .receiptMissing
  (Rollout.new sha scope state.records).mapError .contract

end Pandora.Rollout.Reducer
