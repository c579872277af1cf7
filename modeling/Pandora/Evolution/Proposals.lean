import Pandora.Evolution.Validation

/-! # Proposals and what is decided about them

A proposal to replace an artifact, the evidence that is recorded for it and the record the engine
keeps: `StoredProposal` of `evolution.rs`, with the check made before it is written and after it is
read. -/

namespace Pandora.Evolution.Proposals

open Text Ids Lib.Checked
open Evolution.Contracts Evolution.Rollout

def maxTextBytes : ℕ := 4096
def maxEvolutionMemoryEvidenceIds : ℕ := 16
def maxEvolutionRecordBytes : ℕ := 256 * 1024

inductive EvolutionSource
  | reflexion | gepa | population
deriving DecidableEq

inductive EvolutionMode
  | production | research

/-- The mode of the evolution and what it requires. -/
structure EvolutionPolicy where
  policyVersion : UInt32
  mode : EvolutionMode
  (requiresHoldout requiresSignature requiresCanary : Bool)
  strict : requiresHoldout = true ∧ requiresSignature = true ∧ requiresCanary = true

namespace EvolutionPolicy

def production (policyVersion : UInt32) : EvolutionPolicy :=
  ⟨policyVersion, .production, true, true, true, rfl, rfl, rfl⟩

end EvolutionPolicy

/-- A change that is proposed for an artifact. -/
structure MutationProposal where
  proposalId : ProposalId
  source : EvolutionSource
  (baseArtifact candidateArtifact : ArtifactId)
  evidenceDigest : RequestDigest
  memoryEvidenceIds : List MemoryId
  expectedOutcome : String
  createdAt : ℕ
deriving DecidableEq

namespace MutationProposal

def new (proposalId : String) (source : EvolutionSource)
    (baseArtifact candidateArtifact : ArtifactId) (evidenceDigest : RequestDigest)
    (expectedOutcome : String) (createdAt : ℕ) :
    Except EvolutionContractError MutationProposal := do
  ensure (baseArtifact ≠ candidateArtifact) .sameArtifact
  let proposalId ← (Id.new proposalId).mapError .invalidId
  let expectedOutcome ← validateText "expected outcome" expectedOutcome maxTextBytes
  pure {
    proposalId, source, baseArtifact, candidateArtifact, evidenceDigest
    memoryEvidenceIds := [], expectedOutcome, createdAt }

/-- `sort` and `dedup`. -/
def sortedIds (ids : List MemoryId) : List MemoryId :=
  (ids.insertionSort (· ≤ ·)).destutter (· ≠ ·)

def withMemoryEvidenceIds (proposal : MutationProposal) (ids : List MemoryId) :
    Except EvolutionContractError MutationProposal := do
  ensure (ids.length ≤ maxEvolutionMemoryEvidenceIds) .tooManyMemoryEvidenceIds
  pure { proposal with memoryEvidenceIds := sortedIds ids }

end MutationProposal

structure HoldoutEvaluation where
  proposalId : ProposalId
  (trajectoryScore outcomeScore : UInt8)
  (holdoutPassed policyPassed regressionPassed : Bool)
  evaluatedAt : ℕ
  holdoutDigest : Option RequestDigest
deriving DecidableEq

structure ArtifactSignature where
  artifactId : ArtifactId
  signer : PrincipalId
  signature : String
deriving DecidableEq

def ArtifactSignature.new (artifactId : ArtifactId) (signer : PrincipalId) (signature : String) :
    Except EvolutionContractError ArtifactSignature := do
  let signature ← validateText "artifact signature" signature maxTextBytes
  pure { artifactId, signer, signature }

structure ParliamentApproval where
  proposalId : ProposalId
  approver : PrincipalId
  policyVersion : UInt32
  approvedAt : ℕ
deriving DecidableEq

structure CanaryResult where
  proposalId : ProposalId
  passed : Bool
  failureCount : UInt32
  note : String
  evaluatedAt : ℕ
deriving DecidableEq

inductive EvolutionState
  | proposed | evaluated | approved | staged | canaryPassed | canaryFailed | active | rolledBack
deriving DecidableEq

structure StoredProposal where
  proposal : MutationProposal
  state : EvolutionState
  evaluation : Option HoldoutEvaluation
  approval : Option ParliamentApproval
  signature : Option ArtifactSignature
  canary : Option CanaryResult
  rollout : Option EvolutionRollout
deriving DecidableEq

/-- `serde_json::to_string` on a record. -/
abbrev RecordWriter := StoredProposal → String

inductive EvolutionStoreError
  | database | corruptRecord | recordTooLarge

variable (sha : Sha256) (json : PayloadWriter)

namespace StoredProposal

/-- The proposal is built again from its own fields. -/
def revalidate (proposal : MutationProposal) : Except EvolutionContractError MutationProposal := do
  let fresh ← MutationProposal.new proposal.proposalId.text proposal.source proposal.baseArtifact
    proposal.candidateArtifact proposal.evidenceDigest proposal.expectedOutcome proposal.createdAt
  fresh.withMemoryEvidenceIds proposal.memoryEvidenceIds

def validateRollout (record : StoredProposal) (rollout : EvolutionRollout) :
    Except EvolutionStoreError Unit := do
  (rollout.validate sha json).mapError fun _ => .corruptRecord
  ensure (rollout.binding.evidenceDigest = record.proposal.evidenceDigest ∧
    ∀ approval ∈ rollout.pendingApproval, approval.proposalId = record.proposal.proposalId)
    .corruptRecord

def validateSignature (signature : ArtifactSignature) : Except EvolutionStoreError Unit := do
  let _ ← (ArtifactSignature.new signature.artifactId signature.signer
    signature.signature).mapError fun _ => EvolutionStoreError.corruptRecord
  pure ()

def validate (record : StoredProposal) : Except EvolutionStoreError Unit := do
  let validated ← (revalidate record.proposal).mapError fun _ => EvolutionStoreError.corruptRecord
  ensure (validated.memoryEvidenceIds = record.proposal.memoryEvidenceIds) .corruptRecord
  ensure (∀ evaluation ∈ record.evaluation,
    evaluation.proposalId = record.proposal.proposalId) .corruptRecord
  ensure (∀ approval ∈ record.approval, approval.proposalId = record.proposal.proposalId)
    .corruptRecord
  forM record.signature.toList validateSignature
  ensure (∀ canary ∈ record.canary, canary.proposalId = record.proposal.proposalId) .corruptRecord
  forM record.rollout.toList (record.validateRollout sha json)

end StoredProposal

end Pandora.Evolution.Proposals
