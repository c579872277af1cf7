import Pandora.Evolution.Promotions
import Pandora.Evolution.Validation

/-! # The history of a rollout replays

Every rollout reached by accepted calls passes `validate`: the second interpreter reads back from
the transitions what the operations have done (`History`). It does not when a text or a digest is
read back as another one: the fingerprint of a request is taken before the reason is trimmed
(`padded_reason_refused`), and a digest that is the identifier of a consumed approval is taken for
that approval. `ReadsBack` excludes these calls.

A request that is repeated finds its transition and changes nothing; `mark_activated` alone asks for
the completed rollout first. -/

namespace Pandora.Evolution.History

open Text Ids Lib.Checked List
open Rollout.Records (isSha256Digest isSha256Digest_hex)
open Evolution.Contracts Evolution.Rollout Evolution.Promotions EvolutionRollout

variable (sha : Sha256) (json : PayloadWriter)

def Accepted (r : EvolutionRollout) (call : Call) : Prop :=
  ∃ answer, (r.exec sha json call).2 = .ok answer

/-- The digest is not the identifier of an approval that was consumed. -/
def Apart (r : EvolutionRollout) (digest : RequestDigest) : Prop :=
  r.pendingApproval = none → digest ∉ r.consumedApprovalIds

/-- What the call stores is read back as it was applied. -/
structure ReadsBack (r : EvolutionRollout) (call : Call) : Prop where
  reason : ∀ reason ∈ call.reason?, trim reason = reason
  rejected : call.action = .reject → Apart r r.rejectEvidence
  rolledBack : call.action = .rollback → Apart r r.rollbackEvidence

/-- The condition on a call: a request that is not recorded yet is read back. -/
def Readable (r : EvolutionRollout) (call : Call) : Prop :=
  Fresh r call.transitionId → ReadsBack r call

/-! ## The invariant -/

/-- The identifiers of the approvals given so far. -/
def approvedIds (r : EvolutionRollout) : Finset RequestDigest :=
  (r.consumedApprovalIds ++ (r.pendingApproval.map (·.approvalId)).toList).toFinset

/-- What was gathered from the transitions is the state of the rollout. -/
structure Agrees (r : EvolutionRollout) (gathered : Gathered) : Prop where
  stage : gathered.stage = r.currentStage
  status : gathered.status = r.status
  retries : gathered.retryCount = r.retryCount
  cards : gathered.scorecardIndex = r.scorecards.length
  consumed : gathered.consumedEventIds = r.consumedApprovalIds.toFinset
  approved : gathered.approvalEventIds = approvedIds r
  time : ∃ event, r.transitions.getLast? = some event ∧ gathered.previousTime = event.occurredAt

/-- The transitions replay to the state. -/
def Replays (r : EvolutionRollout) : Prop :=
  ∃ first rest gathered, r.transitions = first :: rest ∧ r.Configures sha json first ∧
    rest.foldlM (r.replayEvent sha json) (gatheredFrom first) = .ok gathered ∧
    Agrees r gathered

/-- The event that gave the pending approval. -/
def GivenBy (r : EvolutionRollout) (approval : EvolutionPromotionApproval) : Prop :=
  ∃ event, (r.transitions.find? fun event =>
      event.action = Action.approve.asStr ∧ event.evidenceDigest = approval.approvalId) =
        some event ∧ event.actor = approval.approver ∧
    event.requestFingerprint = transitionRequestFingerprint sha json .approve (.approval approval)

/-- The stored records pass their checks. -/
structure Stored (r : EvolutionRollout) : Prop where
  limits : r.limits.map (·.stage) = EvolutionRolloutStage.all
  cards : r.scorecards.length ≤ maxEvolutionRolloutScorecards
  room : r.transitions.length ≤ maxEvolutionRolloutTransitions
  checked : ∀ event ∈ r.transitions, event.Checked
  ids : (r.transitions.map (·.transitionId)).Nodup
  consumed : ∀ id ∈ r.consumedApprovalIds, isSha256Digest id.text = true
  approvals : ∀ event ∈ r.transitions, event.action = Action.approve.asStr →
    event.evidenceDigest ∈ approvedIds r
  pending : ∀ approval, r.pendingApproval = some approval → GivenBy sha json r approval ∧
    ∃ card, r.scorecards.getLast? = some card ∧ card.recordedAt ≤ approval.approvedAt

variable {sha json} {r₀ r : EvolutionRollout} {call : Call} {change : Change}

/-! ## Accepted calls -/

/-- An accepted call leaves the rollout as it is, or records its transition. -/
theorem exec_accepted (h : Accepted sha json r call) : (r.exec sha json call).1 = r ∨
    ∃ change, Fresh r call.transitionId ∧ Passes sha json r call change ∧ Recordable r call ∧
      (r.exec sha json call).1 = change.recorded := by
  rcases exec_cases sha json r call with ⟨hsame, -⟩ |
    ⟨change, hfresh, hpasses, hrecordable, hexec⟩ |
    ⟨change, e, -, -, -, hexec⟩
  · exact Or.inl hsame
  · exact Or.inr ⟨change, hfresh, hpasses, hrecordable, by rw [hexec]⟩
  · obtain ⟨answer, hanswer⟩ := h
    rw [hexec] at hanswer
    cases hanswer

theorem untorn_of_accepted (h : Accepted sha json r call) : Untorn sha json r call := by
  intro _ change hfresh hpasses
  by_contra hrefused
  obtain ⟨answer, hanswer⟩ := h
  have hcourse := course_of_passes hfresh hpasses
  unfold exec settle at hanswer
  rw [hcourse] at hanswer
  dsimp only at hanswer
  split at hanswer
  · rename_i next hrecord
    exact hrefused (hpasses.record_eq_ok.mp hrecord).1
  · cases hanswer

/-! ## Replaying under more scorecards -/

theorem getElem?_of_initial {α : Type} {l l' : List α} (h : l <+: l') {i : ℕ} {a : α}
    (hget : l[i]? = some a) : l'[i]? = some a := by
  obtain ⟨hi, rfl⟩ := List.getElem?_eq_some_iff.mp hget
  exact prefix_iff_getElem?.mp h i hi

variable {gathered : Gathered}

/-- An event is replayed alike when more scorecards have been recorded since. -/
theorem replayEvent_mono {next : EvolutionRollout} (hbinding : next.binding = r.binding)
    (hlimits : next.limits = r.limits) (hcards : r.scorecards <+: next.scorecards)
    {gathered' : Gathered} {event : EvolutionTransitionEvidence}
    (h : r.replayEvent sha json gathered event = .ok gathered') :
    next.replayEvent sha json gathered event = .ok gathered' := by
  simp only [replayEvent, bind_eq_ok, ensure_eq_ok, exists_const] at h ⊢
  obtain ⟨hfrom, replayed, hreplay, hdone⟩ := h
  refine ⟨hfrom, replayed, ?_, hdone⟩
  unfold replayAction replayAs at hreplay ⊢
  split at hreplay
  · simp only [replayScorecard, bind_eq_ok, ensure_eq_ok, orError_eq_ok, exists_const] at hreplay ⊢
    obtain ⟨card, hcard, limits, hfind, hrest⟩ := hreplay
    refine ⟨card, getElem?_of_initial hcards hcard, limits, ?_, hrest⟩
    unfold limitsOf at hfind ⊢
    rw [hlimits]
    exact hfind
  · simp only [replayApprove, bind_eq_ok, ensure_eq_ok, orError_eq_ok, exists_const] at hreplay ⊢
    obtain ⟨card, hcard, hrest⟩ := hreplay
    exact ⟨card, getElem?_of_initial hcards hcard, hrest⟩
  · exact hreplay
  · unfold validateSimpleHistoryEvent at hreplay ⊢
    rw [hbinding]
    exact hreplay
  · unfold validateSimpleHistoryEvent at hreplay ⊢
    rw [hbinding]
    exact hreplay
  · simp only [replayReject, bind_eq_ok, ensure_eq_ok, exists_const] at hreplay ⊢
    obtain ⟨⟨hstatus, hstage, hto, hfingerprint, hevidence⟩, hrest⟩ := hreplay
    refine ⟨⟨hstatus, hstage, hto, hfingerprint, hevidence.imp_right fun hcard => ?_⟩, hrest⟩
    obtain ⟨card, hget, hdigest⟩ := Option.map_eq_some_iff.mp hcard
    rw [getElem?_of_initial hcards hget, Option.map_some, hdigest]
  · unfold replayRetry at hreplay ⊢
    rw [hbinding]
    exact hreplay
  · unfold replayRollback at hreplay ⊢
    rw [hbinding]
    exact hreplay
  · unfold replayActivate at hreplay ⊢
    rw [hbinding]
    exact hreplay
  · cases hreplay
  · cases hreplay

theorem replay_mono {next : EvolutionRollout} (hbinding : next.binding = r.binding)
    (hlimits : next.limits = r.limits) (hcards : r.scorecards <+: next.scorecards) :
    ∀ {events : List EvolutionTransitionEvidence} {gathered gathered' : Gathered},
      events.foldlM (r.replayEvent sha json) gathered = .ok gathered' →
        events.foldlM (next.replayEvent sha json) gathered = .ok gathered'
  | [], _, _, h => h
  | event :: events, gathered, gathered', h => by
    rw [foldlM_cons, bind_eq_ok] at h ⊢
    obtain ⟨between, hfirst, hrest⟩ := h
    exact ⟨between, replayEvent_mono hbinding hlimits hcards hfirst,
      replay_mono hbinding hlimits hcards hrest⟩

/-! ## One more transition -/

/-- The event of a recorded call is replayed as the action it is, and what has been gathered after
it, up to stage, status and time, is the state of the rollout. -/
structure Follows (sha : Sha256) (json : PayloadWriter) (action : Action) (change : Change)
    (gathered gathered' : Gathered) : Prop where
  replays : change.recorded.replayAs sha json gathered change.event (some action) = .ok gathered'
  retries : gathered'.retryCount = change.recorded.retryCount
  cards : gathered'.scorecardIndex = change.recorded.scorecards.length
  consumed : gathered'.consumedEventIds = change.recorded.consumedApprovalIds.toFinset
  approved : gathered'.approvalEventIds = approvedIds change.recorded

variable {card : EvolutionScorecard} {id : RequestDigest}

theorem follows_scorecard (hagrees : Agrees r gathered) {limits : EvolutionStageLimits}
    (hrunning : r.status = .running) (hstage : card.stage = r.currentStage)
    (hlimits : r.limits.find? (fun limits => limits.stage = r.currentStage) = some limits) :
    ∃ gathered', Follows sha json .scorecard
      (r.scorecardChange sha json card id card.evaluator (card.passes limits)) gathered
      gathered' := by
  have hcard : (r.scorecards ++ [card])[gathered.scorecardIndex]? = some card := by
    rw [hagrees.cards]
    exact List.getElem?_concat_length
  have hfind : r.limitsOf gathered.stage = some limits := by
    unfold limitsOf
    rw [hagrees.stage]
    exact hlimits
  refine ⟨{ gathered with scorecardIndex := gathered.scorecardIndex + 1 }, ?_, hagrees.retries, ?_,
    hagrees.consumed, hagrees.approved⟩
  · unfold replayAs replayScorecard
    refine bind_eq_ok.mpr ⟨card, orError_eq_ok.mpr hcard, bind_eq_ok.mpr ⟨limits,
      orError_eq_ok.mpr hfind, bind_eq_ok.mpr ⟨(), ensure_eq_ok.mpr ?_, rfl⟩⟩⟩
    rw [hagrees.status, hagrees.stage]
    exact ⟨hrunning, hstage, rfl, rfl, rfl, rfl, rfl, rfl⟩
  · show gathered.scorecardIndex + 1 = (r.scorecards ++ [card]).length
    rw [hagrees.cards, length_append]
    rfl

/-- The last scorecard is the one the second interpreter looks at. -/
theorem last_gathered (hagrees : Agrees r gathered) (hlast : r.scorecards.getLast? = some card) :
    (r.scorecards ++ [])[gathered.scorecardIndex - 1]? = some card := by
  rw [append_nil, hagrees.cards, ← List.getLast?_eq_getElem?]
  exact hlast

theorem length_gathered (hagrees : Agrees r gathered) :
    gathered.scorecardIndex = (r.scorecards ++ []).length := by
  rw [append_nil]
  exact hagrees.cards

/-- Nothing pending: the approvals given are the approvals consumed. -/
theorem approvedIds_idle (h : r.pendingApproval = none) :
    approvedIds r = r.consumedApprovalIds.toFinset := by
  unfold approvedIds
  rw [h, Option.map_none, Option.toList_none, append_nil]

variable {approval : EvolutionPromotionApproval}

theorem approvedIds_pending (h : r.pendingApproval = some approval) :
    approvedIds r = insert approval.approvalId r.consumedApprovalIds.toFinset := by
  unfold approvedIds
  rw [h, Option.map_some, Option.toList_some]
  ext id
  simp

theorem toFinset_snoc (ids : List RequestDigest) (id : RequestDigest) :
    (ids ++ [id]).toFinset = insert id ids.toFinset := by
  ext other
  simp

variable {now : ℕ}

theorem follows_approve (hagrees : Agrees r gathered) (hawaiting : r.status = .awaitingApproval)
    (hfree : r.pendingApproval = none) (hlast : r.scorecards.getLast? = some card)
    (hother : approval.approver ≠ card.evaluator)
    (hunused : approval.approvalId ∉ r.consumedApprovalIds) :
    ∃ gathered', Follows sha json .approve (r.approveChange sha json approval id now) gathered
      gathered' := by
  have hnew : approval.approvalId ∉ gathered.approvalEventIds := by
    rw [hagrees.approved, approvedIds_idle hfree, mem_toFinset]
    exact hunused
  refine ⟨{ gathered with
    approvalEventIds := insert approval.approvalId gathered.approvalEventIds }, ?_,
    hagrees.retries, ?_, hagrees.consumed, ?_⟩
  · unfold replayAs replayApprove
    refine bind_eq_ok.mpr ⟨card, orError_eq_ok.mpr (last_gathered (r := r) hagrees hlast),
      bind_eq_ok.mpr ⟨(), ensure_eq_ok.mpr ?_, rfl⟩⟩
    rw [hagrees.status, hagrees.stage]
    exact ⟨hawaiting, rfl, rfl, hother, hnew⟩
  · show gathered.scorecardIndex = (r.scorecards ++ []).length
    exact length_gathered hagrees
  · show insert approval.approvalId gathered.approvalEventIds = _
    rw [hagrees.approved, approvedIds_idle hfree]
    exact (approvedIds_pending (r := (r.approveChange sha json approval id now).recorded) rfl).symm

variable {actor : PrincipalId} {reason : String}

theorem fingerprint_trim {action : Action} (h : trim reason = reason) :
    transitionRequestFingerprint sha json action (.reason actor reason) =
      transitionRequestFingerprint sha json action (.reason actor (trim reason)) := by
  rw [h]

theorem Agrees.pending_given (hagrees : Agrees r gathered)
    (hpending : r.pendingApproval = some approval) :
    approval.approvalId ∈ gathered.approvalEventIds := by
  rw [hagrees.approved, approvedIds_pending hpending]
  exact Finset.mem_insert_self _ _

theorem follows_promote (hagrees : Agrees r gathered)
    (hawaiting : r.status = .awaitingApproval) (hpending : r.pendingApproval = some approval)
    (hnext : approval.toStage = r.currentStage.next)
    (hunused : approval.approvalId ∉ r.consumedApprovalIds) (hreason : trim reason = reason) :
    ∃ gathered', Follows sha json .promote
      (r.promoteChange sha json approval id approval.approver now reason) gathered gathered' := by
  obtain ⟨-, -, hcards, -, hnone, hconsumed⟩ := promoted_frame (r := r) approval
  have hgiven := hagrees.pending_given hpending
  have hfresh : approval.approvalId ∉ gathered.consumedEventIds := by
    rw [hagrees.consumed, mem_toFinset]
    exact hunused
  have hends : (r.promoted approval).currentStage = r.currentStage.next.getD r.currentStage ∧
      (r.promoted approval).status = (if r.currentStage.next.isSome then .running else .complete) ∧
      (r.promoted approval).retryCount =
        if r.currentStage.next.isSome then 0 else r.retryCount := by
    rcases promoted_cases hnext with ⟨next, hsome, hmoved, hrunning, hzero⟩ | ⟨hend, hsame,
      hcomplete, hkept⟩
    · rw [hmoved, hrunning, hzero, hsome]
      exact ⟨rfl, rfl, rfl⟩
    · rw [hsame, hcomplete, hkept, hend]
      exact ⟨rfl, rfl, rfl⟩
  refine ⟨{ gathered with
    consumedEventIds := insert approval.approvalId gathered.consumedEventIds
    retryCount := if gathered.stage.next.isSome then 0 else gathered.retryCount }, ?_, ?_, ?_, ?_,
    ?_⟩
  · unfold replayAs replayPromote
    refine bind_eq_ok.mpr ⟨(), ensure_eq_ok.mpr ?_, rfl⟩
    rw [hagrees.status, hagrees.stage]
    refine ⟨hawaiting, hends.1, hends.2.1, ?_, hgiven, hfresh⟩
    exact fingerprint_trim hreason
  · show (if gathered.stage.next.isSome then 0 else gathered.retryCount) = _
    rw [hagrees.stage, hagrees.retries]
    exact hends.2.2.symm
  · show gathered.scorecardIndex = ((r.promoted approval).scorecards ++ []).length
    rw [hcards]
    exact length_gathered hagrees
  · show insert approval.approvalId gathered.consumedEventIds =
      (r.promoted approval).consumedApprovalIds.toFinset
    rw [hconsumed, hagrees.consumed, toFinset_snoc]
  · show gathered.approvalEventIds = approvedIds (r.promoteChange sha json approval id
      approval.approver now reason).recorded
    rw [hagrees.approved, approvedIds_pending hpending, approvedIds_idle]
    · show _ = (r.promoted approval).consumedApprovalIds.toFinset
      rw [hconsumed, toFinset_snoc]
    · exact hnone

theorem follows_simple (hagrees : Agrees r gathered) {action : Action}
    {expected next : EvolutionRolloutStatus} (hstatus : r.status = expected)
    (hreason : trim reason = reason)
    (haction : ∀ (r : EvolutionRollout) event, r.replayAs sha json gathered event (some action) =
      r.validateSimpleHistoryEvent sha json gathered event action expected next) :
    ∃ gathered', Follows sha json action
      (r.simpleChange sha json id action next actor now reason) gathered gathered' := by
  have hcards : gathered.scorecardIndex = (r.scorecards ++ []).length := length_gathered hagrees
  refine ⟨gathered, ?_, hagrees.retries, hcards, hagrees.consumed, hagrees.approved⟩
  rw [haction]
  unfold validateSimpleHistoryEvent
  refine bind_eq_ok.mpr ⟨(), ensure_eq_ok.mpr ⟨hstatus, ?_, rfl, ?_, rfl⟩, rfl⟩
  · rw [hagrees.stage]
    rfl
  · exact fingerprint_trim hreason

/-- The evidence of a rejection or a rollback consumes the approval exactly if one is pending. -/
theorem consumeEvidence_eq (hagrees : Agrees r gathered) (change : Change)
    {status : EvolutionRolloutStatus} {evidence : RequestDigest}
    (hpending : ∀ approval, r.pendingApproval = some approval →
      evidence = approval.approvalId ∧ approval.approvalId ∉ r.consumedApprovalIds)
    (hidle : r.pendingApproval = none → evidence ∉ r.consumedApprovalIds)
    (hrollout : change.rollout = r.consumePending status)
    (hevidence : change.fields.evidenceDigest = evidence) (hpushed : change.pushed = []) :
    ∃ gathered', consumeEvidence gathered change.event = .ok gathered' ∧
      gathered'.retryCount = change.recorded.retryCount ∧
      gathered'.scorecardIndex = change.recorded.scorecards.length ∧
      gathered'.consumedEventIds = change.recorded.consumedApprovalIds.toFinset ∧
      gathered'.approvalEventIds = approvedIds change.recorded := by
  have hcards : change.recorded.scorecards = r.scorecards ++ [] := by
    show change.rollout.scorecards ++ change.pushed = _
    rw [hrollout, hpushed]
    rfl
  have hretries : change.recorded.retryCount = r.retryCount := by
    show change.rollout.retryCount = _
    rw [hrollout]
    rfl
  have hnone : change.recorded.pendingApproval = none := by
    show change.rollout.pendingApproval = _
    rw [hrollout]
    rfl
  have hconsumed : change.recorded.consumedApprovalIds =
      r.consumedApprovalIds ++ (r.pendingApproval.map (·.approvalId)).toList := by
    show change.rollout.consumedApprovalIds = _
    rw [hrollout]
    rfl
  have hgiven : change.event.evidenceDigest = evidence := hevidence
  rw [hcards, hretries, approvedIds_idle hnone, hconsumed]
  unfold consumeEvidence
  rw [hgiven]
  rcases hsome : r.pendingApproval with _ | approval
  · have hnew : evidence ∉ gathered.approvalEventIds := by
      rw [hagrees.approved, approvedIds_idle hsome, mem_toFinset]
      exact hidle hsome
    rw [if_neg hnew]
    refine ⟨gathered, rfl, hagrees.retries, length_gathered hagrees, ?_, ?_⟩
    · simpa using hagrees.consumed
    · rw [hagrees.approved, approvedIds_idle hsome]
      simp
  · obtain ⟨rfl, hunused⟩ := hpending approval hsome
    have hmem := hagrees.pending_given hsome
    have hfresh : approval.approvalId ∉ gathered.consumedEventIds := by
      rw [hagrees.consumed, mem_toFinset]
      exact hunused
    rw [if_pos hmem]
    refine ⟨{ gathered with
      consumedEventIds := insert approval.approvalId gathered.consumedEventIds },
      bind_eq_ok.mpr ⟨(), ensure_eq_ok.mpr hfresh, rfl⟩, hagrees.retries, ?_, ?_, ?_⟩
    · show gathered.scorecardIndex = (r.scorecards ++ []).length
      exact length_gathered hagrees
    · show insert approval.approvalId gathered.consumedEventIds =
        (r.consumedApprovalIds ++ [approval.approvalId]).toFinset
      rw [hagrees.consumed, toFinset_snoc]
    · show gathered.approvalEventIds = (r.consumedApprovalIds ++ [approval.approvalId]).toFinset
      rw [hagrees.approved, approvedIds_pending hsome, toFinset_snoc]

theorem follows_reject (hagrees : Agrees r gathered)
    (hawaiting : r.status = .awaitingApproval) (hlast : r.scorecards.getLast? = some card)
    (hunused : ∀ approval, r.pendingApproval = some approval →
      approval.approvalId ∉ r.consumedApprovalIds)
    (hapart : Apart r r.rejectEvidence) (hreason : trim reason = reason) :
    ∃ gathered', Follows sha json .reject (r.rejectChange sha json id actor now reason) gathered
      gathered' := by
  have hpending : ∀ approval, r.pendingApproval = some approval →
      r.rejectEvidence = approval.approvalId ∧ approval.approvalId ∉ r.consumedApprovalIds := by
    intro approval hsome
    refine ⟨?_, hunused approval hsome⟩
    unfold rejectEvidence
    rw [hsome]
  have hevidence : r.rejectEvidence ∈ gathered.approvalEventIds ∨
      ((r.scorecards ++ [])[gathered.scorecardIndex - 1]?).map (·.scorecardDigest) =
        some r.rejectEvidence := by
    rw [last_gathered hagrees hlast, hagrees.approved]
    rcases hsome : r.pendingApproval with _ | approval
    · right
      unfold rejectEvidence
      rw [hsome, hlast]
      rfl
    · left
      rw [(hpending approval hsome).1, ← hagrees.approved]
      exact hagrees.pending_given hsome
  obtain ⟨gathered', hconsume, hretries, hcards, hconsumed, happroved⟩ := consumeEvidence_eq hagrees
    (r.rejectChange sha json id actor now reason) hpending hapart rfl rfl rfl
  refine ⟨gathered', ?_, hretries, hcards, hconsumed, happroved⟩
  unfold replayAs replayReject
  refine bind_eq_ok.mpr ⟨(), ensure_eq_ok.mpr ?_, hconsume⟩
  rw [hagrees.status, hagrees.stage]
  refine ⟨hawaiting, rfl, rfl, ?_, hevidence⟩
  exact fingerprint_trim hreason

theorem follows_retry (hagrees : Agrees r gathered)
    (hstopped : r.status = .failed ∨ r.status = .rejected)
    (hroom : r.retryCount < maxEvolutionRolloutRetries) (hidle : r.pendingApproval = none)
    (hreason : trim reason = reason) :
    ∃ gathered', Follows sha json .retry (r.retryChange sha json id actor now reason) gathered
      gathered' := by
  have hcards : gathered.scorecardIndex = (r.scorecards ++ []).length := length_gathered hagrees
  refine ⟨{ gathered with retryCount := gathered.retryCount + 1 }, ?_, ?_, hcards,
    hagrees.consumed, ?_⟩
  · unfold replayAs replayRetry
    refine bind_eq_ok.mpr ⟨(), ensure_eq_ok.mpr ?_, rfl⟩
    rw [hagrees.status, hagrees.stage, hagrees.retries]
    refine ⟨hstopped, rfl, rfl, ?_, rfl, hroom⟩
    exact fingerprint_trim hreason
  · show gathered.retryCount + 1 = r.retryCount + 1
    rw [hagrees.retries]
  · show gathered.approvalEventIds = _
    rw [hagrees.approved, approvedIds_idle hidle]
    exact (approvedIds_idle (r := (r.retryChange sha json id actor now reason).recorded) rfl).symm

theorem follows_rollback (hagrees : Agrees r gathered) (hlive : r.status ≠ .rolledBack)
    (hunused : ∀ approval, r.pendingApproval = some approval →
      approval.approvalId ∉ r.consumedApprovalIds)
    (hapart : Apart r r.rollbackEvidence) (hreason : trim reason = reason) :
    ∃ gathered', Follows sha json .rollback (r.rollbackChange sha json id actor now reason)
      gathered gathered' := by
  have hpending : ∀ approval, r.pendingApproval = some approval →
      r.rollbackEvidence = approval.approvalId ∧ approval.approvalId ∉ r.consumedApprovalIds := by
    intro approval hsome
    refine ⟨?_, hunused approval hsome⟩
    unfold rollbackEvidence
    rw [hsome]
  have hevidence : r.rollbackEvidence ∈ gathered.approvalEventIds ∨
      r.rollbackEvidence = r.binding.artifactDigest := by
    rw [hagrees.approved]
    rcases hsome : r.pendingApproval with _ | approval
    · right
      unfold rollbackEvidence
      rw [hsome]
    · left
      rw [(hpending approval hsome).1, ← hagrees.approved]
      exact hagrees.pending_given hsome
  obtain ⟨gathered', hconsume, hretries, hcards, hconsumed, happroved⟩ := consumeEvidence_eq hagrees
    (r.rollbackChange sha json id actor now reason) hpending hapart rfl rfl rfl
  refine ⟨gathered', ?_, hretries, hcards, hconsumed, happroved⟩
  unfold replayAs replayRollback
  refine bind_eq_ok.mpr ⟨(), ensure_eq_ok.mpr ?_, hconsume⟩
  rw [hagrees.status, hagrees.stage]
  refine ⟨hlive, rfl, rfl, ?_, hevidence⟩
  exact fingerprint_trim hreason

theorem follows_activate (hagrees : Agrees r gathered) (hstage : r.currentStage = .complete)
    (hstatus : r.status = .complete) :
    ∃ gathered', Follows sha json .activate (r.activateChange sha json id actor now) gathered
      gathered' := by
  have hcards : gathered.scorecardIndex = (r.scorecards ++ []).length := length_gathered hagrees
  refine ⟨gathered, ?_, hagrees.retries, hcards, hagrees.consumed, hagrees.approved⟩
  unfold replayAs replayActivate
  refine bind_eq_ok.mpr ⟨(), ensure_eq_ok.mpr ?_, rfl⟩
  rw [hagrees.status, hagrees.stage]
  exact ⟨hstage, hstatus, rfl, rfl, rfl, rfl⟩

theorem follows_of_passes (hsound : Sound r₀ r) (hagrees : Agrees r gathered)
    (hpasses : Passes sha json r call change) (hreads : ReadsBack r call) :
    ∃ gathered', Follows sha json call.action change gathered gathered' := by
  have hunused : ∀ approval, r.pendingApproval = some approval →
      approval.approvalId ∉ r.consumedApprovalIds := by
    intro approval hsome
    obtain ⟨hawaiting, happroves, -⟩ := hsound.pending approval hsome
    obtain ⟨card, hscored⟩ := hsound.scored hawaiting
    exact (happroves card hscored).unused
  cases hpasses with
  | recordScorecard hrunning hstage hroom hlimits =>
    exact follows_scorecard hagrees hrunning hstage hlimits
  | approve hawaiting hfree hlast hhuman hother hstage hnext hbinding hdigest hrecorded happroved
      hunexpired hunused =>
    exact follows_approve hagrees hawaiting hfree hlast hother hunused
  | @promote approval id now reason hawaiting hpending hunexpired hstage =>
    obtain ⟨-, happroves, -⟩ := hsound.pending approval hpending
    obtain ⟨card, hscored⟩ := hsound.scored hawaiting
    exact follows_promote hagrees hawaiting hpending (happroves card hscored).next
      (hunused approval hpending) (hreads.reason reason rfl)
  | @pause id actor now reason hrunning =>
    exact follows_simple hagrees hrunning (hreads.reason reason rfl) fun _ _ => rfl
  | @resume id actor now reason hpaused =>
    exact follows_simple hagrees hpaused (hreads.reason reason rfl) fun _ _ => rfl
  | @reject id actor now reason hawaiting =>
    obtain ⟨card, hscored⟩ := hsound.scored hawaiting
    exact follows_reject hagrees hawaiting hscored.last hunused (hreads.rejected rfl)
      (hreads.reason reason rfl)
  | @retry id actor now reason hstopped hroom =>
    have hidle : r.pendingApproval = none := by
      refine hsound.idle ?_
      rcases hstopped with hstatus | hstatus <;> rw [hstatus] <;> decide
    exact follows_retry hagrees hstopped hroom hidle (hreads.reason reason rfl)
  | markActivated hstage hstatus => exact follows_activate hagrees hstage hstatus
  | @markRolledBack id actor now reason hlive =>
    exact follows_rollback hagrees hlive hunused (hreads.rolledBack rfl) (hreads.reason reason rfl)

end Pandora.Evolution.History
