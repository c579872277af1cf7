import Pandora.Evolution.Rollout

/-! # The validation of a stored rollout

`validate` checks the records of a rollout again and then interprets its transitions a second time:
`replayEvent` follows stage, status, retries, scorecards and approvals from one event to the next,
and `validateHistory` compares where this ends with the fields of the rollout. It is written
independently of the operations; the store refuses a rollout that it refuses. -/

namespace Pandora.Evolution.Rollout

open Text Ids Lib.Checked Evolution.Contracts

variable (sha : Sha256) (json : PayloadWriter)

/-- What `validate_history` has gathered from the events so far. -/
structure Gathered where
  stage : EvolutionRolloutStage
  status : EvolutionRolloutStatus
  (retryCount scorecardIndex : ℕ)
  (approvalEventIds consumedEventIds : Finset RequestDigest)
  previousTime : ℕ

namespace EvolutionRollout

variable (r : EvolutionRollout) (gathered : Gathered) (event : EvolutionTransitionEvidence)

/-- The limits of the stage reached. -/
def limitsOf (stage : EvolutionRolloutStage) : Option EvolutionStageLimits :=
  r.limits.find? fun limits => limits.stage = stage

def replayScorecard : Except EvolutionContractError Gathered := do
  let scorecard ← orError r.scorecards[gathered.scorecardIndex]? .invalidRolloutTransition
  let limits ← orError (r.limitsOf gathered.stage) .missingStageLimit
  ensure (gathered.status = .running ∧ scorecard.stage = gathered.stage ∧
    scorecard.evaluator = event.actor ∧ event.toStage = gathered.stage ∧
    event.toStatus = scorecardStatus (scorecard.passes limits) ∧
    event.evidenceDigest = scorecard.scorecardDigest ∧
    event.occurredAt = scorecard.recordedAt ∧
    event.requestFingerprint = transitionRequestFingerprint sha json .scorecard
      (.scorecard scorecard event.actor)) .invalidRolloutTransition
  pure { gathered with scorecardIndex := gathered.scorecardIndex + 1 }

def replayApprove : Except EvolutionContractError Gathered := do
  let scorecard ← orError r.scorecards[gathered.scorecardIndex - 1]? .invalidRolloutTransition
  ensure (gathered.status = .awaitingApproval ∧ event.toStage = gathered.stage ∧
    event.toStatus = gathered.status ∧ event.actor ≠ scorecard.evaluator ∧
    event.evidenceDigest ∉ gathered.approvalEventIds) .invalidRolloutTransition
  pure { gathered with approvalEventIds := insert event.evidenceDigest gathered.approvalEventIds }

def replayPromote : Except EvolutionContractError Gathered := do
  ensure (gathered.status = .awaitingApproval ∧
    event.toStage = gathered.stage.next.getD gathered.stage ∧
    event.toStatus = (if gathered.stage.next.isSome then .running else .complete) ∧
    event.requestFingerprint = transitionRequestFingerprint sha json .promote
      (.reason event.actor event.reason) ∧
    event.evidenceDigest ∈ gathered.approvalEventIds ∧
    event.evidenceDigest ∉ gathered.consumedEventIds) .invalidRolloutTransition
  pure { gathered with
    consumedEventIds := insert event.evidenceDigest gathered.consumedEventIds
    retryCount := if gathered.stage.next.isSome then 0 else gathered.retryCount }

def validateSimpleHistoryEvent (action : Action)
    (expectedStatus nextStatus : EvolutionRolloutStatus) :
    Except EvolutionContractError Gathered := do
  ensure (event.fromStatus = expectedStatus ∧ event.toStage = gathered.stage ∧
    event.toStatus = nextStatus ∧
    event.requestFingerprint = transitionRequestFingerprint sha json action
      (.reason event.actor event.reason) ∧
    event.evidenceDigest = r.binding.evidenceDigest) .invalidRolloutTransition
  pure gathered

/-- An event whose evidence is an approval consumes it. -/
def consumeEvidence : Except EvolutionContractError Gathered :=
  if event.evidenceDigest ∈ gathered.approvalEventIds then do
    ensure (event.evidenceDigest ∉ gathered.consumedEventIds) .invalidRolloutTransition
    pure { gathered with
      consumedEventIds := insert event.evidenceDigest gathered.consumedEventIds }
  else pure gathered

def replayReject : Except EvolutionContractError Gathered := do
  ensure (gathered.status = .awaitingApproval ∧ event.toStage = gathered.stage ∧
    event.toStatus = .rejected ∧
    event.requestFingerprint = transitionRequestFingerprint sha json .reject
      (.reason event.actor event.reason) ∧
    (event.evidenceDigest ∈ gathered.approvalEventIds ∨
      r.scorecards[gathered.scorecardIndex - 1]?.map (·.scorecardDigest) =
        some event.evidenceDigest)) .invalidRolloutTransition
  consumeEvidence gathered event

def replayRetry : Except EvolutionContractError Gathered := do
  ensure ((gathered.status = .failed ∨ gathered.status = .rejected) ∧
    event.toStage = gathered.stage ∧ event.toStatus = .running ∧
    event.requestFingerprint = transitionRequestFingerprint sha json .retry
      (.reason event.actor event.reason) ∧
    event.evidenceDigest = r.binding.evidenceDigest ∧
    gathered.retryCount < maxEvolutionRolloutRetries) .invalidRolloutTransition
  pure { gathered with retryCount := gathered.retryCount + 1 }

def replayRollback : Except EvolutionContractError Gathered := do
  ensure (gathered.status ≠ .rolledBack ∧ event.toStage = gathered.stage ∧
    event.toStatus = .rolledBack ∧
    event.requestFingerprint = transitionRequestFingerprint sha json .rollback
      (.reason event.actor event.reason) ∧
    (event.evidenceDigest ∈ gathered.approvalEventIds ∨
      event.evidenceDigest = r.binding.artifactDigest)) .invalidRolloutTransition
  consumeEvidence gathered event

def replayActivate : Except EvolutionContractError Gathered := do
  ensure (gathered.stage = .complete ∧ gathered.status = .complete ∧
    event.toStage = gathered.stage ∧ event.toStatus = gathered.status ∧
    event.requestFingerprint = transitionRequestFingerprint sha json .activate
      (.actor event.actor) ∧
    event.evidenceDigest = r.binding.artifactDigest) .invalidRolloutTransition
  pure gathered

/-- The match on the action of the event. -/
def replayAs : Option Action → Except EvolutionContractError Gathered
  | some .scorecard => r.replayScorecard sha json gathered event
  | some .approve => r.replayApprove gathered event
  | some .promote => replayPromote sha json gathered event
  | some .pause => r.validateSimpleHistoryEvent sha json gathered event .pause .running .paused
  | some .resume => r.validateSimpleHistoryEvent sha json gathered event .resume .paused .running
  | some .reject => r.replayReject sha json gathered event
  | some .retry => r.replayRetry sha json gathered event
  | some .rollback => r.replayRollback sha json gathered event
  | some .activate => r.replayActivate sha json gathered event
  | some .configure | none => .error .invalidRolloutTransition

def replayAction : Except EvolutionContractError Gathered :=
  r.replayAs sha json gathered event (Action.ofStr? event.action)

theorem replayAction_of {r : EvolutionRollout} {gathered : Gathered}
    {event : EvolutionTransitionEvidence} {action : Action} (h : event.action = action.asStr) :
    r.replayAction sha json gathered event = r.replayAs sha json gathered event (some action) := by
  unfold replayAction
  rw [h, Action.ofStr?_asStr]

def replayEvent : Except EvolutionContractError Gathered := do
  ensure (event.fromStage = gathered.stage ∧ event.fromStatus = gathered.status ∧
    gathered.previousTime ≤ event.occurredAt) .invalidRolloutTransition
  let gathered ← r.replayAction sha json gathered event
  pure { gathered with
    stage := event.toStage, status := event.toStatus, previousTime := event.occurredAt }

/-- What has been gathered when only the configuration has been read. -/
def gatheredFrom (first : EvolutionTransitionEvidence) : Gathered where
  stage := .canary
  status := .running
  retryCount := 0
  scorecardIndex := 0
  approvalEventIds := ∅
  consumedEventIds := ∅
  previousTime := first.occurredAt

def collectConsumed (ids : Finset RequestDigest) (id : RequestDigest) :
    Except EvolutionContractError (Finset RequestDigest) := do
  validateSha256Digest id.text
  ensure (id ∉ ids) .approvalMismatch
  pure (insert id ids)

/-- The identifiers of the approvals that are accounted for. -/
def accountApprovals (consumed : Finset RequestDigest) :
    Except EvolutionContractError (Finset RequestDigest) :=
  match r.pendingApproval with
  | none => pure consumed
  | some approval => do
    let scorecard ← orError r.scorecards.getLast? .approvalMismatch
    let reconstructed ← EvolutionPromotionApproval.new approval.approvalId approval.proposalId
      approval.fromStage approval.toStage approval.binding approval.scorecardDigest
      approval.approver approval.authority approval.approvedAt approval.expiresAt
    let approvalEvent := r.transitions.find? fun event =>
      event.action = Action.approve.asStr ∧ event.evidenceDigest = approval.approvalId
    ensure (reconstructed = approval ∧ gathered.status = .awaitingApproval ∧
      approval.authority = .human ∧ approval.fromStage = gathered.stage ∧
      approval.toStage = gathered.stage.next ∧ approval.binding = r.binding ∧
      approval.scorecardDigest = scorecard.scorecardDigest ∧
      approval.approver ≠ scorecard.evaluator ∧ scorecard.recordedAt ≤ approval.approvedAt ∧
      approval.approvalId ∉ consumed ∧
      ∃ event ∈ approvalEvent, event.actor = approval.approver ∧
        event.requestFingerprint = transitionRequestFingerprint sha json .approve
          (.approval approval)) .approvalMismatch
    pure (insert approval.approvalId consumed)

/-- The checks on the first event. -/
def Configures (first : EvolutionTransitionEvidence) : Prop :=
  first.action = Action.configure.asStr ∧
    first.requestFingerprint = transitionRequestFingerprint sha json .configure
      (.configuration r.binding r.limits first.actor first.occurredAt) ∧
    first.fromStage = .canary ∧ first.toStage = .canary ∧ first.fromStatus = .running ∧
    first.toStatus = .running ∧ first.evidenceDigest = r.binding.evidenceDigest

instance (first : EvolutionTransitionEvidence) : Decidable (r.Configures sha json first) :=
  inferInstanceAs (Decidable (_ ∧ _))

def validateHistory : Except EvolutionContractError Unit :=
  match r.transitions with
  | [] => .error .invalidRolloutTransition
  | first :: rest => do
    ensure (r.Configures sha json first) .invalidRolloutTransition
    let gathered ← rest.foldlM (r.replayEvent sha json) (gatheredFrom first)
    let consumed ← r.consumedApprovalIds.foldlM collectConsumed ∅
    ensure (consumed = gathered.consumedEventIds ∧
      gathered.scorecardIndex = r.scorecards.length ∧ gathered.retryCount = r.retryCount ∧
      gathered.stage = r.currentStage ∧ gathered.status = r.status) .invalidRolloutTransition
    let accounted ← r.accountApprovals sha json gathered consumed
    ensure (accounted = gathered.approvalEventIds) .approvalMismatch

def collectTransition (ids : Finset RequestDigest) (event : EvolutionTransitionEvidence) :
    Except EvolutionContractError (Finset RequestDigest) := do
  validateSha256Digest event.transitionId.text
  validateSha256Digest event.requestFingerprint.text
  validateSha256Digest event.evidenceDigest.text
  let _ ← validateText "rollout transition action" event.action 64
  let _ ← validateText "rollout transition reason" event.reason 1024
  ensure (event.transitionId ∉ ids) .transitionIdReused
  pure (insert event.transitionId ids)

def validate : Except EvolutionContractError Unit := do
  let binding ← EvolutionRolloutBinding.new r.binding.exactCommit r.binding.artifactDigest
    r.binding.channel r.binding.evidenceDigest
  ensure (binding = r.binding) .approvalMismatch
  let stages ← r.limits.mapM fun limits => EvolutionStageLimits.new limits.stage
    limits.maxCostMicros limits.maxDurationSeconds limits.maxFailureCount limits.minQualityScore
    limits.maxP95LatencyMillis limits.minStabilityScore
  ensure ((sortLimits stages).map (·.stage) = EvolutionRolloutStage.all) .missingStageLimit
  ensure (r.scorecards.length ≤ maxEvolutionRolloutScorecards) .tooManyRolloutScorecards
  let _ ← r.scorecards.mapM fun card => EvolutionScorecard.new card.stage card.qualityScore
    card.p95LatencyMillis card.stabilityScore card.costMicros card.durationSeconds
    card.failureCount card.evidenceDigest card.scorecardDigest card.evaluator card.recordedAt
  ensure (r.transitions ≠ [] ∧ r.transitions.length ≤ maxEvolutionRolloutTransitions)
    .tooManyRolloutTransitions
  let _ ← r.transitions.foldlM collectTransition ∅
  ensure (r.retryCount ≤ maxEvolutionRolloutRetries) .retryLimitExceeded
  ensure (¬ (r.status = .complete ∧ ¬ r.activationReady)) .invalidRolloutTransition
  r.validateHistory sha json

end EvolutionRollout

end Pandora.Evolution.Rollout
