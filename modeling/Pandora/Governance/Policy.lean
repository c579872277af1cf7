import Pandora.Effect.Request

/-! # Policy and Parliament

A policy context is a version, the capabilities it allows and the operations that need an approval;
the Parliament decides about a request under a context of its own version. The decision carries the
digest of the request and the version it was made under. -/

namespace Pandora.Governance.Policy

open Text Ids Effect.Request

structure PolicyContext where
  policyVersion : UInt32
  allowedCapabilities : Finset Capability
  approvalOperations : Finset Operation

namespace PolicyContext

def allows (context : PolicyContext) (capability : Capability) : Bool :=
  capability ∈ context.allowedCapabilities

def requiresApproval (context : PolicyContext) (operation : Operation) : Bool :=
  operation ∈ context.approvalOperations

end PolicyContext

inductive ParliamentDecision
  | allow (requestDigest : RequestDigest) (policyVersion : UInt32) (reason : String)
  | deny (requestDigest : RequestDigest) (policyVersion : UInt32) (reason : String)
  | requireApproval (requestDigest : RequestDigest) (policyVersion : UInt32) (reason : String)
deriving DecidableEq

namespace ParliamentDecision

def requestDigest : ParliamentDecision → RequestDigest
  | allow digest _ _ | deny digest _ _ | requireApproval digest _ _ => digest

def policyVersion : ParliamentDecision → UInt32
  | allow _ version _ | deny _ version _ | requireApproval _ version _ => version

def requiresApproval : ParliamentDecision → Bool
  | requireApproval _ _ _ => true
  | _ => false

end ParliamentDecision

structure Parliament where
  policyVersion : UInt32

variable {sha : Sha256} {json : JsonWriter}

def Parliament.decide (parliament : Parliament) (request : OperationRequest sha json)
    (context : PolicyContext) : ParliamentDecision :=
  if context.policyVersion ≠ parliament.policyVersion then
    .deny request.requestDigest context.policyVersion
      "policy version does not match the active Parliament"
  else if ¬ context.allows request.capability then
    .deny request.requestDigest context.policyVersion "capability is not enabled by policy"
  else if context.requiresApproval request.operation then
    .requireApproval request.requestDigest context.policyVersion
      "operation requires explicit approval"
  else
    .allow request.requestDigest context.policyVersion "capability and operation are allowed"

/-- An allowance: the capability is allowed and the operation needs no approval. -/
theorem decide_eq_allow {parliament : Parliament} {request : OperationRequest sha json}
    {context : PolicyContext} {digest : RequestDigest} {version : UInt32} {reason : String}
    (h : parliament.decide request context = .allow digest version reason) :
    context.allows request.capability = true ∧
      context.requiresApproval request.operation = false := by
  unfold Parliament.decide at h
  split_ifs at h with hversion hcapability hoperation
  exact ⟨by simpa using hcapability, by simpa using hoperation⟩

/-- A demand for approval: the capability is allowed, and the operation needs one. -/
theorem decide_requiresApproval {parliament : Parliament} {request : OperationRequest sha json}
    {context : PolicyContext} (h : (parliament.decide request context).requiresApproval = true) :
    context.allows request.capability = true := by
  unfold Parliament.decide at h
  split_ifs at h with hversion hcapability hoperation
  · cases h
  · exact hcapability
  · cases h
  · cases h

end Pandora.Governance.Policy
