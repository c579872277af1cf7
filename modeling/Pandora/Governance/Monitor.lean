import Pandora.Governance.Policy
import Pandora.Governance.Approvals

/-! # The reference monitor

Authorization: the monitor decides again about the request, compares with the decision presented,
draws a nonce and issues a permit for the digest of the request, which it registers in its store. A
permit is redeemed there by `PermitStore.consume`.

The two versions the monitor keeps beside its policy are those of the policy, from construction on
and through every update; the structure carries the proof. -/

namespace Pandora.Governance.Monitor

open Lib.Checked Lib.Tables Text Ids Effect.Request Governance.Policy Governance.Approvals

variable {sha : Sha256} {json : JsonWriter}

/-! ## Permits -/

/-- What a permit allows, by whom and until when. -/
structure EffectPermit where
  permitId : PermitId
  requestDigest : RequestDigest
  executionId : ExecutionId
  sessionId : SessionId
  principalId : PrincipalId
  policyVersion : UInt32
  (nonce issuedAt expiresAt : ℕ)
deriving DecidableEq

def EffectPermit.issue (permitId : PermitId) (request : OperationRequest sha json)
    (policyVersion : UInt32) (nonce issuedAt expiresAt : ℕ) : EffectPermit where
  permitId := permitId
  requestDigest := request.requestDigest
  executionId := request.executionId
  sessionId := request.sessionId
  principalId := request.principalId
  policyVersion := policyVersion
  nonce := nonce
  issuedAt := issuedAt
  expiresAt := expiresAt

inductive PermitState
  | active | consumed
deriving DecidableEq

structure StoredPermit where
  permit : EffectPermit
  state : PermitState

/-- The key of the store's map. -/
abbrev StoredPermit.permitId (stored : StoredPermit) : PermitId := stored.permit.permitId

abbrev PermitStore := Table StoredPermit.permitId

inductive PermitError
  | alreadyRegistered
  | unknownPermit
  | invalidPermit
  | notYetValid
  | expired
  | requestMismatch
  | alreadyConsumed
deriving DecidableEq

variable (sha json) in
structure ConsumedPermit where
  permit : EffectPermit
  request : OperationRequest sha json
  consumedAt : ℕ
deriving DecidableEq

def register (store : PermitStore) (permit : EffectPermit) : Except PermitError PermitStore :=
  orError (store.insert? ⟨permit, .active⟩) .alreadyRegistered

/-- The permit is marked as consumed. -/
def markConsumed (store : PermitStore) (permitId : PermitId) : PermitStore :=
  store.update (fun stored => stored.permitId = permitId) ({ · with state := .consumed })
    fun _ _ => rfl

def consume (store : PermitStore) (permit : EffectPermit) (request : OperationRequest sha json)
    (now : ℕ) :
    Except PermitError (PermitStore × ConsumedPermit sha json) := do
  let stored ← orError (store.get? permit.permitId) .unknownPermit
  ensure (stored.permit = permit) .invalidPermit
  ensure (stored.state ≠ .consumed) .alreadyConsumed
  ensure (stored.permit.issuedAt ≤ now) .notYetValid
  ensure (now < stored.permit.expiresAt) .expired
  ensure (request.requestDigest = stored.permit.requestDigest) .requestMismatch
  pure (markConsumed store permit.permitId, ⟨stored.permit, request, now⟩)

variable {request : OperationRequest sha json}

/-- A consumption: the permit is stored as presented and active, the time is in its window, and it
is for the digest of the request. -/
theorem consume_eq_ok {store store' : PermitStore} {permit : EffectPermit} {now : ℕ}
    {consumed : ConsumedPermit sha json}
    (h : consume store permit request now = .ok (store', consumed)) :
    store.get? permit.permitId = some ⟨permit, .active⟩ ∧ permit.issuedAt ≤ now ∧
      now < permit.expiresAt ∧
      request.requestDigest = permit.requestDigest ∧ consumed = ⟨permit, request, now⟩ ∧
      store' = markConsumed store permit.permitId := by
  unfold consume at h
  simp only [bind_eq_ok, orError_eq_ok, ensure_eq_ok, pure_eq_ok] at h
  obtain ⟨stored, hget, ⟨⟩, hsame, ⟨⟩, hstate, ⟨⟩, hissued, ⟨⟩, hexpires, ⟨⟩, hdigest, heq⟩ := h
  cases heq
  obtain ⟨p, state⟩ := stored
  obtain rfl : p = permit := hsame
  cases state with
  | active => exact ⟨hget, hissued, hexpires, hdigest, rfl, rfl⟩
  | consumed => exact absurd rfl hstate

/-! ## The monitor -/

/-- The policy, and the permits issued under it. -/
structure ReferenceMonitor where
  parliament : Parliament
  policy : PolicyContext
  policyVersion : UInt32
  (permitTtlSeconds nextNonce : ℕ)
  store : PermitStore
  versions : policyVersion = policy.policyVersion ∧ parliament.policyVersion = policy.policyVersion

inductive AuthorizationError
  | requestMismatch
  | decisionMismatch
  | policyMismatch
  | denied (reason : String)
  | approvalRequired (reason : String)
  | approvalEvidenceRequired
  | approvalNotRequired
  | expiryOverflow
  | nonceExhausted
  | invalidPermitId
  | store (error : PermitError)
deriving DecidableEq

namespace ReferenceMonitor

def newWithPolicy (policy : PolicyContext) (permitTtlSeconds : ℕ) : ReferenceMonitor where
  parliament := ⟨policy.policyVersion⟩
  policy := policy
  policyVersion := policy.policyVersion
  permitTtlSeconds := permitTtlSeconds
  nextNonce := 1
  store := .empty
  versions := ⟨rfl, rfl⟩

def updatePolicy (monitor : ReferenceMonitor) (policy : PolicyContext) : ReferenceMonitor :=
  { monitor with
    parliament := ⟨policy.policyVersion⟩
    policy := policy
    policyVersion := policy.policyVersion
    versions := ⟨rfl, rfl⟩ }

variable (monitor : ReferenceMonitor)

def validateDecision (request : OperationRequest sha json) (decision : ParliamentDecision) :
    Except AuthorizationError Unit := do
  ensure (monitor.parliament.decide request monitor.policy = decision) .decisionMismatch
  ensure (decision.requestDigest = request.requestDigest) .requestMismatch
  ensure (decision.policyVersion = monitor.policyVersion) .policyMismatch

/-- The checks of `authorize`. -/
def checkAllowed (request : OperationRequest sha json) (decision : ParliamentDecision) :
    Except AuthorizationError Unit := do
  monitor.validateDecision request decision
  match decision with
  | .allow _ _ _ => pure ()
  | .deny _ _ reason => throw (.denied reason)
  | .requireApproval _ _ reason => throw (.approvalRequired reason)

/-- The checks of `authorize_after_approval_with_grant`. -/
def checkApproved (request : OperationRequest sha json) (decision : ParliamentDecision)
    (grant : ApprovalGrant) : Except AuthorizationError Unit := do
  ensure (decision.requiresApproval) .approvalNotRequired
  monitor.validateDecision request decision
  ensure (grant.matchesRequest request monitor.policyVersion) .requestMismatch

/-- `issue_permit` up to the registration: the nonce is drawn first, and stays drawn when the permit
cannot be made. -/
def preparePermit (request : OperationRequest sha json) (now : ℕ) :
    ReferenceMonitor × Except AuthorizationError EffectPermit :=
  match checkedAdd monitor.nextNonce 1 with
  | none => (monitor, .error .nonceExhausted)
  | some next =>
    ({ monitor with nextNonce := next }, do
      let expiresAt ← orError (checkedAdd now monitor.permitTtlSeconds) .expiryOverflow
      let permitId ← orError (Id.new ("permit-" ++ toString monitor.nextNonce)).toOption
        .invalidPermitId
      pure (.issue permitId request monitor.policyVersion monitor.nextNonce now expiresAt))

/-- The registration at the end of `issue_permit`. -/
def registerPermit (permit : EffectPermit) :
    ReferenceMonitor × Except AuthorizationError EffectPermit :=
  match register monitor.store permit with
  | .error e => (monitor, .error (.store e))
  | .ok store => ({ monitor with store }, .ok permit)

def issuePermit (request : OperationRequest sha json) (now : ℕ) :
    ReferenceMonitor × Except AuthorizationError EffectPermit :=
  match monitor.preparePermit request now with
  | (monitor, .error e) => (monitor, .error e)
  | (monitor, .ok permit) => monitor.registerPermit permit

def authorize (request : OperationRequest sha json) (decision : ParliamentDecision) (now : ℕ) :
    ReferenceMonitor × Except AuthorizationError EffectPermit :=
  match monitor.checkAllowed request decision with
  | .error e => (monitor, .error e)
  | .ok () => monitor.issuePermit request now

def authorizeAfterApprovalWithGrant (request : OperationRequest sha json)
    (decision : ParliamentDecision) (grant : ApprovalGrant) (now : ℕ) :
    ReferenceMonitor × Except AuthorizationError EffectPermit :=
  match monitor.checkApproved request decision grant with
  | .error e => (monitor, .error e)
  | .ok () => monitor.issuePermit request now

/-! ### What the checks establish -/

variable {monitor}

variable {decision : ParliamentDecision} {u : Unit}

theorem validateDecision_eq_ok (h : monitor.validateDecision request decision = .ok u) :
    monitor.parliament.decide request monitor.policy = decision := by
  unfold validateDecision at h
  rw [bind_eq_ok] at h
  obtain ⟨⟨⟩, hdecide, -⟩ := h
  rwa [ensure_eq_ok] at hdecide

theorem checkAllowed_eq_ok (h : monitor.checkAllowed request decision = .ok u) :
    monitor.policy.allows request.capability = true ∧
      monitor.policy.requiresApproval request.operation = false := by
  unfold checkAllowed at h
  rw [bind_eq_ok] at h
  obtain ⟨⟨⟩, hvalid, h⟩ := h
  have hdecide := validateDecision_eq_ok hvalid
  cases decision with
  | allow digest version reason => exact decide_eq_allow hdecide
  | deny | requireApproval => exact absurd h throw_ne_ok

theorem checkApproved_eq_ok
    {grant : ApprovalGrant} (h : monitor.checkApproved request decision grant = .ok u) :
    monitor.policy.allows request.capability = true ∧
      grant.matchesRequest request monitor.policy.policyVersion = true := by
  unfold checkApproved at h
  simp only [bind_eq_ok, ensure_eq_ok] at h
  obtain ⟨⟨⟩, happroval, ⟨⟩, hvalid, hmatches⟩ := h
  have hdecide := validateDecision_eq_ok hvalid
  rw [← hdecide] at happroval
  rw [monitor.versions.1] at hmatches
  exact ⟨decide_requiresApproval happroval, hmatches⟩

theorem preparePermit_eq_ok {now : ℕ} {permit : EffectPermit}
    (h : (monitor.preparePermit request now).2 = .ok permit) :
    permit.requestDigest = request.requestDigest ∧ permit.issuedAt = now := by
  unfold preparePermit at h
  split at h
  · cases h
  · simp only [bind_eq_ok, pure_eq_ok] at h
    obtain ⟨expiresAt, -, permitId, -, rfl⟩ := h
    exact ⟨rfl, rfl⟩

@[simp] theorem preparePermit_store (request : OperationRequest sha json) (now : ℕ) :
    (monitor.preparePermit request now).1.store = monitor.store := by
  unfold preparePermit
  split <;> rfl

end ReferenceMonitor

end Pandora.Governance.Monitor
