import Pandora.Lib.Checked
import Pandora.Lib.Tables
import Pandora.Text

/-! # The fleet database

The records of the fleet control plane and the database they are kept in: nodes, leases, fences,
supervisors, fence operations (one table each, with its primary key) and the quiescence row, of
which there is at most one (`id = 1`). The state columns hold one of the texts of their enumeration
and are modelled by it; the JSON columns (capabilities, budget) by the value they encode.

Times are seconds. Rust's `u64` is `ℕ`; the two places where the width matters, `checked_add` and
the conversion to a signed column, are explicit in the code that uses them. -/

namespace Pandora.Fleet.Records

open Lib.Checked Lib.Tables Text

/-! ## States -/

inductive FleetNodeState
  | ready | quarantined | revoked | killed
deriving DecidableEq

inductive FleetLeaseState
  | active | released | expired | revoked | killed
deriving DecidableEq

inductive FleetFenceState
  | active | released | expired
deriving DecidableEq

inductive FleetSupervisorState
  | stopped | running | draining | recovering
deriving DecidableEq

/-! ## Errors -/

/-- `FleetError`; `database` stands for every failure SQLite reports, a violated constraint
included. -/
inductive FleetError
  | database
  | invalidField (field : String)
  | capabilityLimitExceeded
  | duplicateCapability
  | nodeAlreadyRegistered
  | nodeNotFound
  | nodeUnavailable (state : FleetNodeState)
  | leaseAlreadyExists
  | leaseNotFound
  | leaseNotActive (state : FleetLeaseState)
  | leaseExecutionMismatch
  | supervisorNotFound
  | supervisorAlreadyRunning
  | supervisorNotStale
  | supervisorNotAcceptingWork (state : FleetSupervisorState)
  | supervisorProcessMismatch
  | activeLeasesPresent
  | invalidSupervisorTransition (state : FleetSupervisorState) (action : String)
  | invalidSupervisorStaleness
  | quiescenceHeld
  | quiescenceActive
  | invalidLeaseDuration
  | invalidFenceDuration
  | fenceAlreadyActive
  | fenceNotFound
  | fenceExpired
  | fenceMismatch
  | fenceLimitExceeded
  | invalidFenceOperationDuration
  | fenceOperationActive
  | fenceOperationAlreadyActive
  | fenceOperationRecoveryRequired
  | fenceOperationWouldOutliveFence
  | fenceOperationLost
  | fenceOperationNonIncreasing
  | fenceOperationClockRegressed
  | fenceOperationLimitExceeded
  | activeFenceOperationsPresent
  | clockUnavailable
  | random
  | fleetNodeLimitExceeded
  | fleetLeaseLimitExceeded
  | corruptRecord
deriving DecidableEq

/-! ## Limits -/

def maxFleetNodes : ℕ := 256
def maxFleetLeases : ℕ := 4096
def maxFleetFences : ℕ := 4096
def maxFenceOperationRows : ℕ := 4096
def maxFenceOperationDurationSeconds : ℕ := 86400
def maxFenceOperationRecoveryLimit : ℕ := 256

/-! ## Records -/

structure FleetBudget where
  (maxTokens maxTools maxDurationSeconds maxCostMicros : ℕ)
deriving DecidableEq

structure FleetNode where
  (id implementationVersion workerClass : String)
  capabilities : List String
  state : FleetNodeState
  registeredAt : ℕ
deriving DecidableEq

/-- An execution handed to a node for some time. -/
structure FleetLease where
  (id nodeId executionId : String)
  budget : FleetBudget
  (issuedAt expiresAt : ℕ)
  state : FleetLeaseState
deriving DecidableEq

structure FleetSupervisor where
  nodeId : String
  state : FleetSupervisorState
  generation : ℕ
  processId : Option ℕ
  reason : Option String
  updatedAt : ℕ
deriving DecidableEq

/-- A row of `fleet_fences`: only the hash of the token is stored. -/
structure FenceRow where
  (fenceKey ownerId : String)
  generation : ℕ
  tokenHash : String
  (issuedAt expiresAt : ℕ)
  state : FleetFenceState

/-- The handle a caller holds; it carries the token itself. -/
structure FleetLeaseFence where
  (key ownerId : String)
  generation : ℕ
  token : String
  (issuedAt expiresAt : ℕ)
  state : FleetFenceState
deriving DecidableEq

/-- A row of `fleet_fence_operations`. -/
structure FenceOperationRow where
  operationHash : Bytes32
  (fenceKey fenceOwnerId : String)
  fenceGeneration : ℕ
  fenceTokenHash : String
  (fenceIssuedAt acquiredAt lastRenewedAt expiresAt : ℕ)

/-- The guard of an operation: the same columns as its row. -/
structure FenceOperationGuard where
  operationHash : Bytes32
  (fenceKey fenceOwnerId : String)
  fenceGeneration : ℕ
  fenceTokenHash : String
  (fenceIssuedAt acquiredAt lastRenewedAt expiresAt : ℕ)
deriving DecidableEq

structure FenceOperationRecovery where
  removedHashes : List Bytes32
  hasMore : Bool
deriving DecidableEq

/-- The row of `fleet_quiescence`. -/
structure QuiescenceRow where
  owner : String
  (acquiredAt expiresAt : ℕ)
deriving DecidableEq

/-- The guard of a quiescence: it knows the owner, not the acquisition. -/
structure FleetQuiescenceGuard where
  owner : String
deriving DecidableEq

/-! ## The database -/

structure FleetDb where
  nodes : Table FleetNode.id
  leases : Table FleetLease.id
  fences : Table FenceRow.fenceKey
  supervisors : Table FleetSupervisor.nodeId
  quiescence : Option QuiescenceRow
  operations : Table FenceOperationRow.operationHash

/-- The database of a fresh engine. -/
def FleetDb.fresh : FleetDb := ⟨.empty, .empty, .empty, .empty, none, .empty⟩

/-! ## Columns and text -/

/-- `to_i64`. -/
def toI64 (value : ℕ) : Except FleetError ℕ := orError (fitsI64 value) .corruptRecord

/-- `validate_text`: the trimmed text, if it is not empty, not too long and has no control
character. -/
def validateText (field value : String) (maxBytes : ℕ) : Except FleetError String := do
  let value := trim value
  ensure (¬ (value.isEmpty ∨ maxBytes < value.utf8ByteSize ∨ value.toList.any isControl))
    (.invalidField field)
  return value

/-- A sample of the trusted clock; `none` when the clock is unavailable. -/
def trustedNow (clock : Option ℕ) : Except FleetError ℕ := orError clock .clockUnavailable

@[simp] theorem toI64_eq_ok {v c : ℕ} : toI64 v = .ok c ↔ v < 2 ^ 63 ∧ v = c := by
  simp [toI64]

@[simp] theorem trustedNow_eq_ok {clock : Option ℕ} {t : ℕ} :
    trustedNow clock = .ok t ↔ clock = some t := by
  simp [trustedNow]

theorem validateText_eq_ok {field value : String} {maxBytes : ℕ} {text : String}
    (h : validateText field value maxBytes = .ok text) : text = trim value := by
  simp only [validateText, bind_eq_ok, pure_eq_ok] at h
  obtain ⟨-, -, rfl⟩ := h
  rfl

end Pandora.Fleet.Records
