import Pandora.Evolution.Proposals
import Pandora.Lib.SortedMaps
import Pandora.Lib.Tables

/-! # The evolution engine

`EvolutionEngine` of `evolution.rs` keeps the records of all proposals in memory: read once when it
is opened, and written through. An operation is decided on the copy in memory (`decision`); then the
whole record is written over the row (`save`) and put in the copy.

A row holds the record; the text `serde_json` makes of it counts only by its size. -/

namespace Pandora.Evolution.Engine

open Text Ids Lib.Checked Lib.SortedMaps Lib.Tables
open Evolution.Contracts Evolution.Rollout Evolution.Proposals

inductive EvolutionError
  | contract (error : EvolutionContractError)
  | duplicateProposal
  | notFound
  | invalidTransition (state : EvolutionState)
  | proposalMismatch
  | evaluationRequired
  | holdoutFailed
  | policyFailed
  | regressionFailed
  | signatureRequired
  | signatureMismatch
  | approvalMismatch
  | policyVersionMismatch
  | rolloutAlreadyConfigured
  | rolloutRequired
  | rolloutIncomplete
  | storeUnavailable

variable (sha : Sha256) (json : PayloadWriter) (text : RecordWriter)

/-! ## The store -/

/-- A row of `evolution_proposals`. -/
structure Row where
  proposalId : String
  record : StoredProposal

abbrev Rows := Table Row.proposalId

abbrev Proposals := SortedMap ProposalId StoredProposal

/-- One row of the loop of `load`. -/
def loadRow (proposals : Proposals) (row : Row) : Except EvolutionStoreError Proposals := do
  let proposalId ← (Id.new row.proposalId).mapError fun _ => EvolutionStoreError.corruptRecord
  ensure ((text row.record).utf8ByteSize ≤ maxEvolutionRecordBytes) .recordTooLarge
  ensure (row.record.proposal.proposalId = proposalId) .corruptRecord
  row.record.validate sha json
  ensure (proposals.get? proposalId = none) .corruptRecord
  pure (proposals.insert proposalId row.record)

def load (rows : Rows) : Except EvolutionStoreError Proposals :=
  rows.rows.foldlM (loadRow sha json text) SortedMap.empty

/-- The database refuses the transaction unless it is `available`. -/
def save (rows : Rows) (available : Bool) (record : StoredProposal) :
    Except EvolutionStoreError Rows := do
  record.validate sha json
  ensure ((text record).utf8ByteSize ≤ maxEvolutionRecordBytes) .recordTooLarge
  ensure (available = true) .database
  pure (rows.upsert ⟨record.proposal.proposalId.text, record⟩)

/-! ## The operations on the copy

Each returns the record to be written; `none` where nothing is. -/

variable (policy : EvolutionPolicy) (proposals : Proposals)

def find (proposalId : ProposalId) : Except EvolutionError StoredProposal :=
  orError (proposals.get? proposalId) .notFound

/-- The record of a proposal that is in the state the operation asks for. -/
def findIn (proposalId : ProposalId) (state : EvolutionState) :
    Except EvolutionError StoredProposal := do
  let record ← find proposals proposalId
  ensure (record.state = state) (.invalidTransition record.state)
  pure record

def submit (proposal : MutationProposal) : Except EvolutionError StoredProposal := do
  ensure (proposals.get? proposal.proposalId = none) .duplicateProposal
  pure {
    proposal, state := .proposed, evaluation := none, approval := none, signature := none
    canary := none, rollout := none }

def recordEvaluation (evaluation : HoldoutEvaluation) : Except EvolutionError StoredProposal := do
  let record ← findIn proposals evaluation.proposalId .proposed
  pure { record with evaluation := some evaluation, state := .evaluated }

def approve (proposalId : ProposalId) (approval : ParliamentApproval)
    (signature : ArtifactSignature) : Except EvolutionError StoredProposal := do
  let record ← findIn proposals proposalId .evaluated
  let evaluation ← orError record.evaluation .evaluationRequired
  ensure (policy.requiresHoldout = true → evaluation.holdoutPassed = true) .holdoutFailed
  ensure (evaluation.policyPassed = true) .policyFailed
  ensure (evaluation.regressionPassed = true) .regressionFailed
  ensure (approval.proposalId = proposalId) .approvalMismatch
  ensure (approval.policyVersion = policy.policyVersion) .policyVersionMismatch
  ensure (policy.requiresSignature = true → ¬ signature.signature.isEmpty) .signatureRequired
  ensure (signature.artifactId = record.proposal.candidateArtifact) .signatureMismatch
  pure { record with
    approval := some approval, signature := some signature, state := .approved }

def stage (proposalId : ProposalId) : Except EvolutionError StoredProposal := do
  let record ← findIn proposals proposalId .approved
  pure { record with state := .staged }

/-- The record after a canary. -/
def canaried (record : StoredProposal) (canary : CanaryResult) : StoredProposal :=
  { record with
    canary := some canary
    state := if canary.passed then .canaryPassed else .canaryFailed }

def recordCanary (canary : CanaryResult) : Except EvolutionError (Option StoredProposal) := do
  let record ← find proposals canary.proposalId
  if (record.state = .canaryPassed ∨ record.state = .canaryFailed) ∧
      record.canary = some canary then
    pure none
  else do
    ensure (record.state = .staged) (.invalidTransition record.state)
    pure (some (canaried record canary))

/-- `configuration_replay`. -/
def configurationReplay (rollout : EvolutionRollout) (binding : EvolutionRolloutBinding)
    (limits : List EvolutionStageLimits) (transitionId : RequestDigest) (actor : PrincipalId)
    (configuredAt : ℕ) : Except EvolutionContractError Bool :=
  (rollout.replay transitionId .configure (transitionRequestFingerprint sha json .configure
    (.configuration binding (EvolutionRollout.sortLimits limits) actor configuredAt))).map
      Option.isSome

def configureRollout (proposalId : ProposalId) (binding : EvolutionRolloutBinding)
    (limits : List EvolutionStageLimits) (transitionId : RequestDigest) (actor : PrincipalId)
    (now : ℕ) : Except EvolutionError (Option StoredProposal) := do
  let record ← findIn proposals proposalId .canaryPassed
  match record.rollout with
  | some rollout => do
    let replayed ← (configurationReplay sha json rollout binding limits transitionId actor
      now).mapError .contract
    ensure (replayed = true) .rolloutAlreadyConfigured
    pure none
  | none => do
    ensure (binding.evidenceDigest = record.proposal.evidenceDigest) .proposalMismatch
    let rollout ← (EvolutionRollout.new sha json binding limits transitionId actor now).mapError
      .contract
    pure (some { record with rollout := some rollout })

/-- The closures `mutate_rollout` is given: every operation of a rollout but `mark_activated`. -/
inductive Mutation
  | recordScorecard (scorecard : EvolutionScorecard) (transitionId : RequestDigest)
    (actor : PrincipalId)
  | approve (approval : EvolutionPromotionApproval) (transitionId : RequestDigest) (now : ℕ)
  | promote (transitionId : RequestDigest) (actor : PrincipalId) (now : ℕ) (reason : String)
  | pause (transitionId : RequestDigest) (actor : PrincipalId) (now : ℕ) (reason : String)
  | resume (transitionId : RequestDigest) (actor : PrincipalId) (now : ℕ) (reason : String)
  | reject (transitionId : RequestDigest) (actor : PrincipalId) (now : ℕ) (reason : String)
  | retry (transitionId : RequestDigest) (actor : PrincipalId) (now : ℕ) (reason : String)
  | markRolledBack (transitionId : RequestDigest) (actor : PrincipalId) (now : ℕ)
    (reason : String)

def Mutation.call (proposalId : ProposalId) : Mutation → Call
  | recordScorecard card id actor => .recordScorecard card id actor
  | approve approval id now => .approve proposalId approval id now
  | promote id actor now reason => .promote id actor now reason
  | pause id actor now reason => .pause id actor now reason
  | resume id actor now reason => .resume id actor now reason
  | reject id actor now reason => .reject id actor now reason
  | retry id actor now reason => .retry id actor now reason
  | markRolledBack id actor now reason => .markRolledBack id actor now reason

/-- The mutation works on a clone, which is dropped when it fails. -/
def mutateRollout (proposalId : ProposalId) (mutation : Mutation) :
    Except EvolutionError (Option StoredProposal) := do
  let record ← findIn proposals proposalId .canaryPassed
  let rollout ← orError record.rollout .rolloutRequired
  let changed ← (rollout.exec sha json (mutation.call proposalId)).2.mapError .contract
  pure (if changed then
    some { record with rollout := some (rollout.exec sha json (mutation.call proposalId)).1 }
  else none)

def activate (proposalId : ProposalId) : Except EvolutionError StoredProposal := do
  let record ← findIn proposals proposalId
    (if policy.requiresCanary then .canaryPassed else .approved)
  ensure (∀ rollout ∈ record.rollout, rollout.activationReady = true) .rolloutIncomplete
  pure { record with state := .active }

def rollback (proposalId : ProposalId) : Except EvolutionError StoredProposal := do
  let record ← findIn proposals proposalId .active
  pure { record with state := .rolledBack }

/-! ## Calls -/

inductive Call
  | submit (proposal : MutationProposal)
  | recordEvaluation (evaluation : HoldoutEvaluation)
  | approve (proposalId : ProposalId) (approval : ParliamentApproval)
    (signature : ArtifactSignature)
  | stage (proposalId : ProposalId)
  | recordCanary (canary : CanaryResult)
  | configureRollout (proposalId : ProposalId) (binding : EvolutionRolloutBinding)
    (limits : List EvolutionStageLimits) (transitionId : RequestDigest) (actor : PrincipalId)
    (now : ℕ)
  | mutateRollout (proposalId : ProposalId) (mutation : Mutation)
  | activate (proposalId : ProposalId)
  | rollback (proposalId : ProposalId)

/-- The proposal a call is about. -/
def Call.proposalId : Call → ProposalId
  | submit proposal => proposal.proposalId
  | recordEvaluation evaluation => evaluation.proposalId
  | approve id _ _ => id
  | stage id => id
  | recordCanary canary => canary.proposalId
  | configureRollout id .. => id
  | mutateRollout id _ => id
  | activate id => id
  | rollback id => id

/-- What a call decides to write, from the copy in memory. -/
def decision : Call → Except EvolutionError (Option StoredProposal)
  | .submit proposal => some <$> submit proposals proposal
  | .recordEvaluation evaluation => some <$> recordEvaluation proposals evaluation
  | .approve id approval signature => some <$> approve policy proposals id approval signature
  | .stage id => some <$> stage proposals id
  | .recordCanary canary => recordCanary proposals canary
  | .configureRollout id binding limits transition actor now =>
    configureRollout sha json proposals id binding limits transition actor now
  | .mutateRollout id mutation => mutateRollout sha json proposals id mutation
  | .activate id => some <$> activate policy proposals id
  | .rollback id => some <$> rollback proposals id

/-- `save_and_replace`. -/
def saveAndReplace (rows : Rows) (available : Bool) (record : StoredProposal) :
    Except EvolutionError (Rows × Proposals) := do
  let rows ← (save sha json text rows available record).mapError fun _ =>
    EvolutionError.storeUnavailable
  pure (rows, proposals.insert record.proposal.proposalId record)

/-- A call: what is left in the database and in memory, and the answer. -/
def perform (rows : Rows) (available : Bool) (call : Call) :
    (Rows × Proposals) × Except EvolutionError Bool :=
  match decision sha json policy proposals call with
  | .error e => ((rows, proposals), .error e)
  | .ok none => ((rows, proposals), .ok false)
  | .ok (some record) =>
    match saveAndReplace sha json text proposals rows available record with
    | .error e => ((rows, proposals), .error e)
    | .ok written => (written, .ok true)

end Pandora.Evolution.Engine
