import Pandora.Rollout.Records

/-! # The records of a staged rollout

What `evolution.rs` checks when a record is built: the commit and the digests a rollout is bound to,
the limits of a stage, a scorecard, a promotion approval and the evidence of a transition. Each
record carries its checks as fields, so a value that fails one of them does not exist; a text is
stored trimmed. -/

namespace Pandora.Evolution.Contracts

open Text Ids Lib.Checked
open Rollout.Records (isSha256Digest)

inductive EvolutionContractError
  | invalidId (error : IdError)
  | emptyField (field : String)
  | fieldTooLong (field : String)
  | controlCharacter (field : String)
  | tooManyMemoryEvidenceIds
  | invalidCommit
  | invalidDigest
  | invalidStageLimits
  | duplicateStageLimit
  | missingStageLimit
  | tooManyRolloutTransitions
  | tooManyRolloutScorecards
  | transitionIdReused
  | invalidRolloutTransition
  | evaluatorMismatch
  | humanApprovalRequired
  | selfApproval
  | approvalExpired
  | approvalMismatch
  | approvalAlreadyPending
  | retryLimitExceeded
  | sameArtifact
deriving DecidableEq

/-! ## Texts and digests -/

def validateText (field value : String) (maxBytes : ℕ) : Except EvolutionContractError String :=
  if (trim value).isEmpty then .error (.emptyField field)
  else if maxBytes < value.utf8ByteSize then .error (.fieldTooLong field)
  else if value.toList.any isControl then .error (.controlCharacter field)
  else .ok (trim value)

/-- A text that `validate_text` accepts. -/
structure IsText (maxBytes : ℕ) (value : String) : Prop where
  nonblank : ¬ (trim value).isEmpty
  short : value.utf8ByteSize ≤ maxBytes
  plain : value.toList.any isControl = false

instance {maxBytes : ℕ} {value : String} : Decidable (IsText maxBytes value) :=
  decidable_of_iff (¬ (trim value).isEmpty ∧ value.utf8ByteSize ≤ maxBytes ∧
    value.toList.any isControl = false)
    ⟨fun h => ⟨h.1, h.2.1, h.2.2⟩, fun h => ⟨h.nonblank, h.short, h.plain⟩⟩

theorem validateText_eq_ok {field value text : String} {maxBytes : ℕ} :
    validateText field value maxBytes = .ok text ↔ IsText maxBytes value ∧ trim value = text := by
  unfold validateText
  constructor
  · intro h
    split_ifs at h with hblank hlong hcontrol
    rw [Except.ok.injEq] at h
    exact ⟨⟨hblank, by omega, by simpa using hcontrol⟩, h⟩
  · rintro ⟨h, rfl⟩
    have hlong : ¬ maxBytes < value.utf8ByteSize := by have := h.short; omega
    rw [if_neg h.nonblank, if_neg hlong, if_neg (by rw [h.plain]; decide)]

theorem IsText.trim {value : String} {maxBytes : ℕ} (h : IsText maxBytes value) :
    IsText maxBytes (trim value) := by
  refine ⟨trim_trim_nonblank h.nonblank, le_trans (utf8ByteSize_trim_le value) h.short, ?_⟩
  have hplain := h.plain
  rw [List.any_eq_false] at hplain ⊢
  intro c hc
  exact hplain c (mem_of_mem_trim hc)

/-- What `validate_exact_commit` asks. -/
def isExactCommit (value : String) : Bool :=
  ((asBytes value).length == 40 || (asBytes value).length == 64) && isLowerHex (asBytes value)

def validateSha256Digest (value : String) : Except EvolutionContractError Unit :=
  ensure (isSha256Digest value) .invalidDigest

/-! ## Stages -/

inductive EvolutionRolloutStage
  | canary | limited | expanded | complete
deriving DecidableEq

namespace EvolutionRolloutStage

/-- The place of a stage in the derived order. -/
def index : EvolutionRolloutStage → ℕ
  | canary => 0
  | limited => 1
  | expanded => 2
  | complete => 3

def next : EvolutionRolloutStage → Option EvolutionRolloutStage
  | canary => some limited
  | limited => some expanded
  | expanded => some complete
  | complete => none

/-- The four stages in order. -/
def all : List EvolutionRolloutStage := [canary, limited, expanded, complete]

theorem index_inj {a b : EvolutionRolloutStage} (h : a.index = b.index) : a = b := by
  cases a <;> cases b <;> first | rfl | cases h

theorem index_next {a b : EvolutionRolloutStage} (h : a.next = some b) :
    b.index = a.index + 1 := by
  cases a <;> cases h <;> rfl

theorem eq_complete_of_next {a : EvolutionRolloutStage} (h : a.next = none) : a = complete := by
  cases a <;> first | rfl | cases h

end EvolutionRolloutStage

inductive EvolutionRolloutStatus
  | running | awaitingApproval | paused | failed | rejected | complete | rolledBack
deriving DecidableEq

inductive EvolutionReleaseChannel
  | beta | releaseCandidate | stable
deriving DecidableEq

inductive EvolutionApprovalAuthority
  | human | automatedEvaluator
deriving DecidableEq

/-! ## Records -/

structure EvolutionRolloutBinding where
  exactCommit : String
  artifactDigest : RequestDigest
  channel : EvolutionReleaseChannel
  evidenceDigest : RequestDigest
  commit_ok : isExactCommit exactCommit = true
  artifact_ok : isSha256Digest artifactDigest.text = true
  evidence_ok : isSha256Digest evidenceDigest.text = true
deriving DecidableEq

def EvolutionRolloutBinding.new (exactCommit : String) (artifactDigest : RequestDigest)
    (channel : EvolutionReleaseChannel) (evidenceDigest : RequestDigest) :
    Except EvolutionContractError EvolutionRolloutBinding :=
  if hcommit : isExactCommit exactCommit = true then
    if hartifact : isSha256Digest artifactDigest.text = true then
      if hevidence : isSha256Digest evidenceDigest.text = true then
        .ok ⟨exactCommit, artifactDigest, channel, evidenceDigest, hcommit, hartifact, hevidence⟩
      else .error .invalidDigest
    else .error .invalidDigest
  else .error .invalidCommit

theorem EvolutionRolloutBinding.new_self (binding : EvolutionRolloutBinding) :
    EvolutionRolloutBinding.new binding.exactCommit binding.artifactDigest binding.channel
      binding.evidenceDigest = .ok binding := by
  unfold EvolutionRolloutBinding.new
  rw [dif_pos binding.commit_ok, dif_pos binding.artifact_ok, dif_pos binding.evidence_ok]

structure EvolutionStageLimits where
  stage : EvolutionRolloutStage
  (maxCostMicros maxDurationSeconds : UInt64)
  maxFailureCount : UInt32
  minQualityScore : UInt8
  maxP95LatencyMillis : UInt64
  minStabilityScore : UInt8
  limits_ok : ¬ (maxCostMicros = 0 ∨ maxDurationSeconds = 0 ∨ maxP95LatencyMillis = 0 ∨
    100 < minQualityScore ∨ 100 < minStabilityScore)
deriving DecidableEq

def EvolutionStageLimits.new (stage : EvolutionRolloutStage)
    (maxCostMicros maxDurationSeconds : UInt64) (maxFailureCount : UInt32)
    (minQualityScore : UInt8) (maxP95LatencyMillis : UInt64) (minStabilityScore : UInt8) :
    Except EvolutionContractError EvolutionStageLimits :=
  if h : maxCostMicros = 0 ∨ maxDurationSeconds = 0 ∨ maxP95LatencyMillis = 0 ∨
      100 < minQualityScore ∨ 100 < minStabilityScore then .error .invalidStageLimits
  else .ok ⟨stage, maxCostMicros, maxDurationSeconds, maxFailureCount, minQualityScore,
    maxP95LatencyMillis, minStabilityScore, h⟩

theorem EvolutionStageLimits.new_self (limits : EvolutionStageLimits) :
    EvolutionStageLimits.new limits.stage limits.maxCostMicros limits.maxDurationSeconds
      limits.maxFailureCount limits.minQualityScore limits.maxP95LatencyMillis
      limits.minStabilityScore = .ok limits := by
  unfold EvolutionStageLimits.new
  rw [dif_neg limits.limits_ok]

structure EvolutionScorecard where
  stage : EvolutionRolloutStage
  qualityScore : UInt8
  p95LatencyMillis : UInt64
  stabilityScore : UInt8
  (costMicros durationSeconds : UInt64)
  failureCount : UInt32
  (evidenceDigest scorecardDigest : RequestDigest)
  evaluator : PrincipalId
  recordedAt : ℕ
  scores_ok : ¬ (100 < qualityScore ∨ 100 < stabilityScore)
  evidence_ok : isSha256Digest evidenceDigest.text = true
  scorecard_ok : isSha256Digest scorecardDigest.text = true
deriving DecidableEq

namespace EvolutionScorecard

def new (stage : EvolutionRolloutStage) (qualityScore : UInt8) (p95LatencyMillis : UInt64)
    (stabilityScore : UInt8) (costMicros durationSeconds : UInt64) (failureCount : UInt32)
    (evidenceDigest scorecardDigest : RequestDigest) (evaluator : PrincipalId) (recordedAt : ℕ) :
    Except EvolutionContractError EvolutionScorecard :=
  if hscores : 100 < qualityScore ∨ 100 < stabilityScore then .error .invalidStageLimits
  else if hevidence : isSha256Digest evidenceDigest.text = true then
    if hscorecard : isSha256Digest scorecardDigest.text = true then
      .ok ⟨stage, qualityScore, p95LatencyMillis, stabilityScore, costMicros, durationSeconds,
        failureCount, evidenceDigest, scorecardDigest, evaluator, recordedAt, hscores, hevidence,
        hscorecard⟩
    else .error .invalidDigest
  else .error .invalidDigest

theorem new_self (card : EvolutionScorecard) :
    new card.stage card.qualityScore card.p95LatencyMillis card.stabilityScore card.costMicros
      card.durationSeconds card.failureCount card.evidenceDigest card.scorecardDigest
      card.evaluator card.recordedAt = .ok card := by
  unfold new
  rw [dif_neg card.scores_ok, dif_pos card.evidence_ok, dif_pos card.scorecard_ok]

def passes (card : EvolutionScorecard) (limits : EvolutionStageLimits) : Bool :=
  card.stage == limits.stage && limits.minQualityScore ≤ card.qualityScore &&
    card.p95LatencyMillis ≤ limits.maxP95LatencyMillis &&
    limits.minStabilityScore ≤ card.stabilityScore && card.costMicros ≤ limits.maxCostMicros &&
    card.durationSeconds ≤ limits.maxDurationSeconds &&
    card.failureCount ≤ limits.maxFailureCount

end EvolutionScorecard

structure EvolutionPromotionApproval where
  approvalId : RequestDigest
  proposalId : ProposalId
  fromStage : EvolutionRolloutStage
  toStage : Option EvolutionRolloutStage
  binding : EvolutionRolloutBinding
  scorecardDigest : RequestDigest
  approver : PrincipalId
  authority : EvolutionApprovalAuthority
  (approvedAt expiresAt : ℕ)
  approval_ok : isSha256Digest approvalId.text = true
  scorecard_ok : isSha256Digest scorecardDigest.text = true
  window : approvedAt < expiresAt
deriving DecidableEq

namespace EvolutionPromotionApproval

def new (approvalId : RequestDigest) (proposalId : ProposalId)
    (fromStage : EvolutionRolloutStage) (toStage : Option EvolutionRolloutStage)
    (binding : EvolutionRolloutBinding) (scorecardDigest : RequestDigest) (approver : PrincipalId)
    (authority : EvolutionApprovalAuthority) (approvedAt expiresAt : ℕ) :
    Except EvolutionContractError EvolutionPromotionApproval :=
  if hid : isSha256Digest approvalId.text = true then
    if hscorecard : isSha256Digest scorecardDigest.text = true then
      if hwindow : approvedAt < expiresAt then
        .ok ⟨approvalId, proposalId, fromStage, toStage, binding, scorecardDigest, approver,
          authority, approvedAt, expiresAt, hid, hscorecard, hwindow⟩
      else .error .approvalExpired
    else .error .invalidDigest
  else .error .invalidDigest

theorem new_self (approval : EvolutionPromotionApproval) :
    new approval.approvalId approval.proposalId approval.fromStage approval.toStage
      approval.binding approval.scorecardDigest approval.approver approval.authority
      approval.approvedAt approval.expiresAt = .ok approval := by
  unfold new
  rw [dif_pos approval.approval_ok, dif_pos approval.scorecard_ok, dif_pos approval.window]

end EvolutionPromotionApproval

structure EvolutionTransitionEvidence where
  (transitionId requestFingerprint : RequestDigest)
  action : String
  (fromStage toStage : EvolutionRolloutStage)
  (fromStatus toStatus : EvolutionRolloutStatus)
  actor : PrincipalId
  evidenceDigest : RequestDigest
  occurredAt : ℕ
  reason : String
deriving DecidableEq

namespace EvolutionTransitionEvidence

/-- The given fields checked, the texts trimmed. -/
def new (fields : EvolutionTransitionEvidence) :
    Except EvolutionContractError EvolutionTransitionEvidence := do
  validateSha256Digest fields.transitionId.text
  validateSha256Digest fields.requestFingerprint.text
  validateSha256Digest fields.evidenceDigest.text
  let action ← validateText "rollout transition action" fields.action 64
  let reason ← validateText "rollout transition reason" fields.reason 1024
  pure { fields with action, reason }

/-- What `new` checks. -/
structure Checked (fields : EvolutionTransitionEvidence) : Prop where
  transition : isSha256Digest fields.transitionId.text = true
  fingerprint : isSha256Digest fields.requestFingerprint.text = true
  evidence : isSha256Digest fields.evidenceDigest.text = true
  action : IsText 64 fields.action
  reason : IsText 1024 fields.reason

theorem new_eq_ok {fields event : EvolutionTransitionEvidence} :
    new fields = .ok event ↔ fields.Checked ∧
      event = { fields with action := trim fields.action, reason := trim fields.reason } := by
  simp only [new, validateSha256Digest, bind_eq_ok, ensure_eq_ok, validateText_eq_ok, pure_eq_ok,
    exists_const]
  constructor
  · rintro ⟨htransition, hfingerprint, hevidence, _, ⟨haction, rfl⟩, _, ⟨hreason, rfl⟩, rfl⟩
    exact ⟨⟨htransition, hfingerprint, hevidence, haction, hreason⟩, rfl⟩
  · rintro ⟨h, rfl⟩
    exact ⟨h.transition, h.fingerprint, h.evidence, _, ⟨h.action, rfl⟩, _, ⟨h.reason, rfl⟩, rfl⟩

/-- What `new` returns passes the checks again. -/
theorem checked_of_new {fields event : EvolutionTransitionEvidence}
    (h : new fields = .ok event) : event.Checked := by
  obtain ⟨hchecked, rfl⟩ := new_eq_ok.mp h
  exact ⟨hchecked.transition, hchecked.fingerprint, hchecked.evidence, hchecked.action.trim,
    hchecked.reason.trim⟩

end EvolutionTransitionEvidence

end Pandora.Evolution.Contracts
