import Pandora.Evolution.Contracts
import Pandora.Lib.Runs

/-! # Staged rollouts

`EvolutionRollout` of `evolution.rs`: a rollout passes the four stages in order. In each a scorecard
is recorded, a person approves the promotion, and the promotion consumes the approval.

`course` are the checks of an operation: it stops with an error, or finds the same request already
recorded, or says what it changes. `exec` then lets the changed rollout record the transition. The
source works on the rollout in place: where the transition is refused, the caller gets the error and
the rollout keeps the change (`settle`). The JSON text of a request is a parameter. -/

namespace Pandora.Evolution.Rollout

open Text Ids Lib.Checked Lib.Codes Lib.Runs
open Effect.Profile (digestText)
open Rollout.Records (isSha256Digest isSha256Digest_hex)
open Evolution.Contracts

def maxEvolutionRolloutTransitions : ℕ := 128
def maxEvolutionRolloutScorecards : ℕ := 32
def maxEvolutionRolloutRetries : ℕ := 3

/-! ## Requests and their fingerprints -/

inductive Action
  | configure | scorecard | approve | promote | pause | resume | reject | retry | activate
  | rollback
deriving DecidableEq

namespace Action

def asStr : Action → String
  | configure => "configure"
  | scorecard => "scorecard"
  | approve => "approve"
  | promote => "promote"
  | pause => "pause"
  | resume => "resume"
  | reject => "reject"
  | retry => "retry"
  | activate => "activate"
  | rollback => "rollback"

/-- The actions `validate_history` matches the text of an event against. -/
def ofStr? (text : String) : Option Action :=
  [configure, scorecard, approve, promote, pause, resume, reject, retry, activate, rollback].find?
    fun action => action.asStr = text

theorem ofStr?_asStr (action : Action) : ofStr? action.asStr = some action := by
  cases action <;> decide +kernel

theorem asStr_inj {a b : Action} (h : a.asStr = b.asStr) : a = b := by
  have ha := ofStr?_asStr a
  rw [h, ofStr?_asStr, Option.some.injEq] at ha
  exact ha.symm

end Action

/-- What a request is fingerprinted by. -/
inductive Payload
  | configuration (binding : EvolutionRolloutBinding) (limits : List EvolutionStageLimits)
    (actor : PrincipalId) (configuredAt : ℕ)
  | scorecard (scorecard : EvolutionScorecard) (actor : PrincipalId)
  | approval (approval : EvolutionPromotionApproval)
  | reason (actor : PrincipalId) (reason : String)
  | actor (actor : PrincipalId)

/-- `serde_json::to_vec` on a payload. -/
abbrev PayloadWriter := Payload → List UInt8

variable (sha : Sha256) (json : PayloadWriter)

/-- What is fed to the hash for a request. -/
def requestMessage (action : Action) (payload : Payload) : List UInt8 :=
  asBytes "pandora-evolution-rollout-transition-v1\x00" ++ digestText action.asStr ++
    lengthPrefixed 8 (json payload)

theorem hexDigit_not_white : ∀ n < 16, isWhitespace (hexDigit n) = false := by decide

theorem hashText_ok (hash : Bytes32) : ¬ (trim ("sha256:" ++ hex hash.bytes)).isEmpty ∧
    ("sha256:" ++ hex hash.bytes).utf8ByteSize ≤ 256 := by
  constructor
  · have hwhite : ∀ c ∈ ("sha256:" ++ hex hash.bytes).toList, isWhitespace c = false := by
      intro c hc
      rw [String.toList_append, List.mem_append] at hc
      rcases hc with hc | hc
      · have hfront : ∀ c ∈ ("sha256:" : String).toList, isWhitespace c = false :=
          List.all_iff_forall_prop.mp (by decide)
        exact hfront c hc
      · unfold hex at hc
        rw [String.toList_ofList] at hc
        obtain ⟨n, hn, rfl⟩ := mem_hexChars hc
        exact hexDigit_not_white n hn
    rw [trim_eq_self hwhite, String.isEmpty_iff, ← String.toList_inj, String.toList_append]
    simp
  · rw [String.utf8ByteSize_append, ← length_asBytes (hex hash.bytes), length_hex, hash.length_eq]
    decide

def transitionRequestFingerprint (action : Action) (payload : Payload) : RequestDigest :=
  ⟨"sha256:" ++ hex (sha (requestMessage json action payload)).bytes, (hashText_ok _).1,
    (hashText_ok _).2⟩

/-! ## The rollout -/

structure EvolutionRollout where
  binding : EvolutionRolloutBinding
  limits : List EvolutionStageLimits
  currentStage : EvolutionRolloutStage
  status : EvolutionRolloutStatus
  scorecards : List EvolutionScorecard
  pendingApproval : Option EvolutionPromotionApproval
  consumedApprovalIds : List RequestDigest
  retryCount : ℕ
  transitions : List EvolutionTransitionEvidence
deriving DecidableEq

/-- What an operation does when its checks have passed: the rollout as changed, the transition to
be recorded and the scorecards pushed after it. -/
structure Change where
  rollout : EvolutionRollout
  fields : EvolutionTransitionEvidence
  pushed : List EvolutionScorecard

/-- Where the checks of an operation lead. -/
inductive Course
  | replayed (answer : Bool)
  | changes (change : Change)

namespace EvolutionRollout

/-- The loop of `new` over the sorted limits. -/
def checkStages : Option EvolutionRolloutStage → List EvolutionStageLimits →
    List EvolutionRolloutStage → Except EvolutionContractError Unit
  | previous, limits :: rest, expected :: stages => do
    ensure (previous ≠ some limits.stage) .duplicateStageLimit
    ensure (limits.stage = expected) .missingStageLimit
    checkStages (some limits.stage) rest stages
  | _, _, _ => .ok ()

/-- `sort_by_key(EvolutionStageLimits::stage)`. -/
def sortLimits (limits : List EvolutionStageLimits) : List EvolutionStageLimits :=
  limits.insertionSort fun a b => a.stage.index ≤ b.stage.index

def configuredReason : String := "configured exact staged rollout binding and limits"

def new (binding : EvolutionRolloutBinding) (limits : List EvolutionStageLimits)
    (transitionId : RequestDigest) (actor : PrincipalId) (now : ℕ) :
    Except EvolutionContractError EvolutionRollout := do
  let limits := sortLimits limits
  ensure (limits.length = EvolutionRolloutStage.all.length) .missingStageLimit
  checkStages none limits EvolutionRolloutStage.all
  let initial ← EvolutionTransitionEvidence.new {
    transitionId
    requestFingerprint := transitionRequestFingerprint sha json .configure
      (.configuration binding limits actor now)
    action := Action.configure.asStr
    fromStage := .canary, toStage := .canary, fromStatus := .running, toStatus := .running
    actor, evidenceDigest := binding.evidenceDigest, occurredAt := now
    reason := configuredReason }
  pure {
    binding, limits, currentStage := .canary, status := .running, scorecards := []
    pendingApproval := none, consumedApprovalIds := [], retryCount := 0, transitions := [initial] }

variable (r : EvolutionRollout)

def activationReady : Bool := r.currentStage == .complete && r.status == .complete

def replay (transitionId : RequestDigest) (action : Action) (requestFingerprint : RequestDigest) :
    Except EvolutionContractError (Option Bool) :=
  match r.transitions.find? fun event => event.transitionId = transitionId with
  | some event =>
    if event.action = action.asStr ∧ event.requestFingerprint = requestFingerprint then
      .ok (some false)
    else .error .transitionIdReused
  | none => .ok none

def appendTransition (transition : EvolutionTransitionEvidence) :
    Except EvolutionContractError EvolutionRollout := do
  ensure (r.transitions.length < maxEvolutionRolloutTransitions) .tooManyRolloutTransitions
  ensure (∀ previous ∈ r.transitions.getLast?, previous.occurredAt ≤ transition.occurredAt)
    .invalidRolloutTransition
  pure { r with transitions := r.transitions ++ [transition] }

/-- The transition from `r` to `changed`. -/
def transitionTo (changed : EvolutionRollout) (transitionId : RequestDigest) (action : Action)
    (payload : Payload) (actor : PrincipalId) (evidenceDigest : RequestDigest) (occurredAt : ℕ)
    (reason : String) : EvolutionTransitionEvidence where
  transitionId := transitionId
  requestFingerprint := transitionRequestFingerprint sha json action payload
  action := action.asStr
  fromStage := r.currentStage
  toStage := changed.currentStage
  fromStatus := r.status
  toStatus := changed.status
  actor := actor
  evidenceDigest := evidenceDigest
  occurredAt := occurredAt
  reason := reason

/-- Every operation first looks whether its transition is recorded already. -/
def unlessReplayed (transitionId : RequestDigest) (action : Action) (payload : Payload)
    (change : Except EvolutionContractError Change) : Except EvolutionContractError Course :=
  match r.replay transitionId action (transitionRequestFingerprint sha json action payload) with
  | .error e => .error e
  | .ok (some answer) => .ok (.replayed answer)
  | .ok none => change.map .changes

/-! ### What the operations change -/

def scorecardReason (passed : Bool) : String :=
  if passed then "stage scorecard passed all configured limits"
  else "stage scorecard exceeded one or more configured limits"

def scorecardStatus (passed : Bool) : EvolutionRolloutStatus :=
  if passed then .awaitingApproval else .failed

def scorecardChange (scorecard : EvolutionScorecard) (transitionId : RequestDigest)
    (actor : PrincipalId) (passed : Bool) : Change :=
  let changed := { r with status := scorecardStatus passed }
  { rollout := changed
    fields := r.transitionTo sha json changed transitionId .scorecard (.scorecard scorecard actor)
      actor scorecard.scorecardDigest scorecard.recordedAt (scorecardReason passed)
    pushed := [scorecard] }

def approvedReason : String :=
  "human promotion approval bound to exact commit, artifact, channel, evidence, and scorecard"

def approveChange (approval : EvolutionPromotionApproval) (transitionId : RequestDigest)
    (now : ℕ) : Change :=
  let changed := { r with pendingApproval := some approval }
  { rollout := changed
    fields := r.transitionTo sha json changed transitionId .approve (.approval approval)
      approval.approver approval.approvalId now approvedReason
    pushed := [] }

/-- The rollout after the promotion that consumes the approval. -/
def promoted (approval : EvolutionPromotionApproval) : EvolutionRollout :=
  let consumed := { r with
    pendingApproval := none
    consumedApprovalIds := r.consumedApprovalIds ++ [approval.approvalId] }
  match approval.toStage with
  | some next => { consumed with currentStage := next, status := .running, retryCount := 0 }
  | none => { consumed with status := .complete }

def promoteChange (approval : EvolutionPromotionApproval) (transitionId : RequestDigest)
    (actor : PrincipalId) (now : ℕ) (reason : String) : Change where
  rollout := r.promoted approval
  fields := r.transitionTo sha json (r.promoted approval) transitionId .promote
    (.reason actor reason) actor approval.approvalId now reason
  pushed := []

def simpleChange (transitionId : RequestDigest) (action : Action) (next : EvolutionRolloutStatus)
    (actor : PrincipalId) (now : ℕ) (reason : String) : Change :=
  let changed := { r with status := next }
  { rollout := changed
    fields := r.transitionTo sha json changed transitionId action (.reason actor reason) actor
      r.binding.evidenceDigest now reason
    pushed := [] }

/-- `pending_approval.take()`, with the identifier of what was taken consumed. -/
def consumePending (status : EvolutionRolloutStatus) : EvolutionRollout :=
  { r with
    status
    pendingApproval := none
    consumedApprovalIds := r.consumedApprovalIds ++
      (r.pendingApproval.map (·.approvalId)).toList }

def rejectEvidence : RequestDigest :=
  match r.pendingApproval with
  | some approval => approval.approvalId
  | none => (r.scorecards.getLast?.map (·.scorecardDigest)).getD r.binding.evidenceDigest

def rejectChange (transitionId : RequestDigest) (actor : PrincipalId) (now : ℕ)
    (reason : String) : Change where
  rollout := r.consumePending .rejected
  fields := r.transitionTo sha json (r.consumePending .rejected) transitionId .reject
    (.reason actor reason) actor r.rejectEvidence now reason
  pushed := []

def retryChange (transitionId : RequestDigest) (actor : PrincipalId) (now : ℕ)
    (reason : String) : Change :=
  let changed := { r with
    status := .running, pendingApproval := none, retryCount := r.retryCount + 1 }
  { rollout := changed
    fields := r.transitionTo sha json changed transitionId .retry (.reason actor reason) actor
      r.binding.evidenceDigest now reason
    pushed := [] }

def activatedReason : String :=
  "used the existing artifact activation path after governed rollout completion"

def activateChange (transitionId : RequestDigest) (actor : PrincipalId) (now : ℕ) : Change where
  rollout := r
  fields := r.transitionTo sha json r transitionId .activate (.actor actor) actor
    r.binding.artifactDigest now activatedReason
  pushed := []

def rollbackEvidence : RequestDigest :=
  match r.pendingApproval with
  | some approval => approval.approvalId
  | none => r.binding.artifactDigest

def rollbackChange (transitionId : RequestDigest) (actor : PrincipalId) (now : ℕ)
    (reason : String) : Change where
  rollout := r.consumePending .rolledBack
  fields := r.transitionTo sha json (r.consumePending .rolledBack) transitionId .rollback
    (.reason actor reason) actor r.rollbackEvidence now reason
  pushed := []

/-! ### The operations -/

def recordScorecard (scorecard : EvolutionScorecard) (transitionId : RequestDigest)
    (actor : PrincipalId) : Except EvolutionContractError Course :=
  r.unlessReplayed sha json transitionId .scorecard (.scorecard scorecard actor) do
    ensure (scorecard.evaluator = actor) .evaluatorMismatch
    ensure (r.status = .running ∧ scorecard.stage = r.currentStage) .invalidRolloutTransition
    ensure (r.scorecards.length < maxEvolutionRolloutScorecards) .tooManyRolloutScorecards
    let limits ← orError (r.limits.find? fun limits => limits.stage = r.currentStage)
      .missingStageLimit
    pure (r.scorecardChange sha json scorecard transitionId actor (scorecard.passes limits))

def approve (proposalId : ProposalId) (approval : EvolutionPromotionApproval)
    (transitionId : RequestDigest) (now : ℕ) : Except EvolutionContractError Course :=
  r.unlessReplayed sha json transitionId .approve (.approval approval) do
    ensure (r.status = .awaitingApproval) .invalidRolloutTransition
    ensure (r.pendingApproval = none) .approvalAlreadyPending
    let scorecard ← orError r.scorecards.getLast? .approvalMismatch
    ensure (approval.authority = .human) .humanApprovalRequired
    ensure (approval.approver ≠ scorecard.evaluator) .selfApproval
    ensure (approval.proposalId = proposalId ∧ approval.fromStage = r.currentStage ∧
      approval.toStage = r.currentStage.next ∧ approval.binding = r.binding ∧
      approval.scorecardDigest = scorecard.scorecardDigest) .approvalMismatch
    ensure (scorecard.recordedAt ≤ approval.approvedAt ∧ approval.approvedAt ≤ now ∧
      now ≤ approval.expiresAt) .approvalExpired
    ensure (approval.approvalId ∉ r.consumedApprovalIds) .approvalMismatch
    pure (r.approveChange sha json approval transitionId now)

def promote (transitionId : RequestDigest) (actor : PrincipalId) (now : ℕ) (reason : String) :
    Except EvolutionContractError Course :=
  r.unlessReplayed sha json transitionId .promote (.reason actor reason) do
    ensure (r.status = .awaitingApproval) .invalidRolloutTransition
    let approval ← orError r.pendingApproval .humanApprovalRequired
    ensure (now ≤ approval.expiresAt ∧ approval.fromStage = r.currentStage ∧
      approval.approver = actor) .approvalMismatch
    pure (r.promoteChange sha json approval transitionId actor now reason)

def simpleTransition (transitionId : RequestDigest) (action : Action)
    (expected next : EvolutionRolloutStatus) (actor : PrincipalId) (now : ℕ) (reason : String) :
    Except EvolutionContractError Course :=
  r.unlessReplayed sha json transitionId action (.reason actor reason) do
    ensure (r.status = expected) .invalidRolloutTransition
    pure (r.simpleChange sha json transitionId action next actor now reason)

def pause (transitionId : RequestDigest) (actor : PrincipalId) (now : ℕ) (reason : String) :
    Except EvolutionContractError Course :=
  r.simpleTransition sha json transitionId .pause .running .paused actor now reason

def resume (transitionId : RequestDigest) (actor : PrincipalId) (now : ℕ) (reason : String) :
    Except EvolutionContractError Course :=
  r.simpleTransition sha json transitionId .resume .paused .running actor now reason

def reject (transitionId : RequestDigest) (actor : PrincipalId) (now : ℕ) (reason : String) :
    Except EvolutionContractError Course :=
  r.unlessReplayed sha json transitionId .reject (.reason actor reason) do
    ensure (r.status = .awaitingApproval) .invalidRolloutTransition
    pure (r.rejectChange sha json transitionId actor now reason)

def retry (transitionId : RequestDigest) (actor : PrincipalId) (now : ℕ) (reason : String) :
    Except EvolutionContractError Course :=
  r.unlessReplayed sha json transitionId .retry (.reason actor reason) do
    ensure (r.status = .failed ∨ r.status = .rejected) .invalidRolloutTransition
    ensure (r.retryCount < maxEvolutionRolloutRetries) .retryLimitExceeded
    pure (r.retryChange sha json transitionId actor now reason)

/-- Unlike the others it checks the state before it looks for a replay. -/
def markActivated (transitionId : RequestDigest) (actor : PrincipalId) (now : ℕ) :
    Except EvolutionContractError Course := do
  ensure r.activationReady .invalidRolloutTransition
  r.unlessReplayed sha json transitionId .activate (.actor actor) do
    pure (r.activateChange sha json transitionId actor now)

def markRolledBack (transitionId : RequestDigest) (actor : PrincipalId) (now : ℕ)
    (reason : String) : Except EvolutionContractError Course :=
  r.unlessReplayed sha json transitionId .rollback (.reason actor reason) do
    ensure (r.status ≠ .rolledBack) .invalidRolloutTransition
    pure (r.rollbackChange sha json transitionId actor now reason)

end EvolutionRollout

/-! ## Calls -/

inductive Call
  | recordScorecard (scorecard : EvolutionScorecard) (transitionId : RequestDigest)
    (actor : PrincipalId)
  | approve (proposalId : ProposalId) (approval : EvolutionPromotionApproval)
    (transitionId : RequestDigest) (now : ℕ)
  | promote (transitionId : RequestDigest) (actor : PrincipalId) (now : ℕ) (reason : String)
  | pause (transitionId : RequestDigest) (actor : PrincipalId) (now : ℕ) (reason : String)
  | resume (transitionId : RequestDigest) (actor : PrincipalId) (now : ℕ) (reason : String)
  | reject (transitionId : RequestDigest) (actor : PrincipalId) (now : ℕ) (reason : String)
  | retry (transitionId : RequestDigest) (actor : PrincipalId) (now : ℕ) (reason : String)
  | markActivated (transitionId : RequestDigest) (actor : PrincipalId) (now : ℕ)
  | markRolledBack (transitionId : RequestDigest) (actor : PrincipalId) (now : ℕ)
    (reason : String)

namespace EvolutionRollout

def course (r : EvolutionRollout) : Call → Except EvolutionContractError Course
  | .recordScorecard card id actor => r.recordScorecard sha json card id actor
  | .approve proposalId approval id now => r.approve sha json proposalId approval id now
  | .promote id actor now reason => r.promote sha json id actor now reason
  | .pause id actor now reason => r.pause sha json id actor now reason
  | .resume id actor now reason => r.resume sha json id actor now reason
  | .reject id actor now reason => r.reject sha json id actor now reason
  | .retry id actor now reason => r.retry sha json id actor now reason
  | .markActivated id actor now => r.markActivated sha json id actor now
  | .markRolledBack id actor now reason => r.markRolledBack sha json id actor now reason

end EvolutionRollout

/-- The changed rollout records the transition, then takes the scorecards. -/
def Change.record (change : Change) : Except EvolutionContractError EvolutionRollout := do
  let event ← EvolutionTransitionEvidence.new change.fields
  let rollout ← change.rollout.appendTransition event
  pure { rollout with scorecards := rollout.scorecards ++ change.pushed }

namespace EvolutionRollout

/-- What a call leaves behind and answers. A refused transition leaves the changed rollout. -/
def settle (r : EvolutionRollout) :
    Except EvolutionContractError Course → EvolutionRollout × Except EvolutionContractError Bool
  | .error e => (r, .error e)
  | .ok (.replayed answer) => (r, .ok answer)
  | .ok (.changes change) =>
    match change.record with
    | .ok rollout => (rollout, .ok true)
    | .error e => (change.rollout, .error e)

def exec (r : EvolutionRollout) (call : Call) :
    EvolutionRollout × Except EvolutionContractError Bool :=
  r.settle (r.course sha json call)

end EvolutionRollout

/-- The rollout under its calls. -/
def machine : Machine EvolutionRollout Call (Except EvolutionContractError Bool) where
  step r call := r.exec sha json call

end Pandora.Evolution.Rollout
