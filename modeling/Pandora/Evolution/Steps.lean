import Pandora.Evolution.Rollout

/-! # What a call on a rollout can do

`Passes r call change` lists, operation by operation, the checks that have passed and the change
they lead to. Every proof about the operations starts from `exec_cases`: a call leaves the rollout
as it was, or records its transition and answers `true`, or leaves a change behind whose transition
was refused. -/

namespace Pandora.Evolution.Rollout

open Text Ids Lib.Checked
open Rollout.Records (isSha256Digest isSha256Digest_hex)
open Evolution.Contracts EvolutionRollout

variable (sha : Sha256) (json : PayloadWriter)

inductive Passes (r : EvolutionRollout) : Call → Change → Prop
  | recordScorecard {card : EvolutionScorecard} {id : RequestDigest}
      {limits : EvolutionStageLimits} (running : r.status = .running)
      (stage : card.stage = r.currentStage)
      (room : r.scorecards.length < maxEvolutionRolloutScorecards)
      (limits_eq : r.limits.find? (fun limits => limits.stage = r.currentStage) = some limits) :
      Passes r (.recordScorecard card id card.evaluator)
        (r.scorecardChange sha json card id card.evaluator (card.passes limits))
  | approve {approval : EvolutionPromotionApproval} {id : RequestDigest} {now : ℕ}
      {card : EvolutionScorecard} (awaiting : r.status = .awaitingApproval)
      (free : r.pendingApproval = none) (last : r.scorecards.getLast? = some card)
      (human : approval.authority = .human) (other : approval.approver ≠ card.evaluator)
      (stage : approval.fromStage = r.currentStage)
      (next : approval.toStage = r.currentStage.next) (binding : approval.binding = r.binding)
      (digest : approval.scorecardDigest = card.scorecardDigest)
      (recorded : card.recordedAt ≤ approval.approvedAt) (approved : approval.approvedAt ≤ now)
      (unexpired : now ≤ approval.expiresAt)
      (unused : approval.approvalId ∉ r.consumedApprovalIds) :
      Passes r (.approve approval.proposalId approval id now)
        (r.approveChange sha json approval id now)
  | promote {approval : EvolutionPromotionApproval} {id : RequestDigest} {now : ℕ}
      {reason : String} (awaiting : r.status = .awaitingApproval)
      (pending : r.pendingApproval = some approval) (unexpired : now ≤ approval.expiresAt)
      (stage : approval.fromStage = r.currentStage) :
      Passes r (.promote id approval.approver now reason)
        (r.promoteChange sha json approval id approval.approver now reason)
  | pause {id : RequestDigest} {actor : PrincipalId} {now : ℕ} {reason : String}
      (running : r.status = .running) :
      Passes r (.pause id actor now reason)
        (r.simpleChange sha json id .pause .paused actor now reason)
  | resume {id : RequestDigest} {actor : PrincipalId} {now : ℕ} {reason : String}
      (paused : r.status = .paused) :
      Passes r (.resume id actor now reason)
        (r.simpleChange sha json id .resume .running actor now reason)
  | reject {id : RequestDigest} {actor : PrincipalId} {now : ℕ} {reason : String}
      (awaiting : r.status = .awaitingApproval) :
      Passes r (.reject id actor now reason) (r.rejectChange sha json id actor now reason)
  | retry {id : RequestDigest} {actor : PrincipalId} {now : ℕ} {reason : String}
      (stopped : r.status = .failed ∨ r.status = .rejected)
      (room : r.retryCount < maxEvolutionRolloutRetries) :
      Passes r (.retry id actor now reason) (r.retryChange sha json id actor now reason)
  | markActivated {id : RequestDigest} {actor : PrincipalId} {now : ℕ}
      (stage : r.currentStage = .complete) (status : r.status = .complete) :
      Passes r (.markActivated id actor now) (r.activateChange sha json id actor now)
  | markRolledBack {id : RequestDigest} {actor : PrincipalId} {now : ℕ} {reason : String}
      (live : r.status ≠ .rolledBack) :
      Passes r (.markRolledBack id actor now reason) (r.rollbackChange sha json id actor now reason)

variable {sha json} {r : EvolutionRollout}

/-! ## Replays -/

namespace Call

def transitionId : Call → RequestDigest
  | recordScorecard _ id _ => id
  | approve _ _ id _ => id
  | promote id .. => id
  | pause id .. => id
  | resume id .. => id
  | reject id .. => id
  | retry id .. => id
  | markActivated id .. => id
  | markRolledBack id .. => id

def action : Call → Action
  | recordScorecard .. => .scorecard
  | approve .. => .approve
  | promote .. => .promote
  | pause .. => .pause
  | resume .. => .resume
  | reject .. => .reject
  | retry .. => .retry
  | markActivated .. => .activate
  | markRolledBack .. => .rollback

/-- When the call takes place. -/
def time : Call → ℕ
  | recordScorecard card _ _ => card.recordedAt
  | approve _ _ _ now => now
  | promote _ _ now _ => now
  | pause _ _ now _ => now
  | resume _ _ now _ => now
  | reject _ _ now _ => now
  | retry _ _ now _ => now
  | markActivated _ _ now => now
  | markRolledBack _ _ now _ => now

/-- The reason the caller gives. -/
def reason? : Call → Option String
  | promote _ _ _ reason => some reason
  | pause _ _ _ reason => some reason
  | resume _ _ _ reason => some reason
  | reject _ _ _ reason => some reason
  | retry _ _ _ reason => some reason
  | markRolledBack _ _ _ reason => some reason
  | _ => none

/-- What the call is fingerprinted by. -/
def payload : Call → Payload
  | recordScorecard card _ actor => .scorecard card actor
  | approve _ approval _ _ => .approval approval
  | promote _ actor _ reason => .reason actor reason
  | pause _ actor _ reason => .reason actor reason
  | resume _ actor _ reason => .reason actor reason
  | reject _ actor _ reason => .reason actor reason
  | retry _ actor _ reason => .reason actor reason
  | markActivated _ actor _ => .actor actor
  | markRolledBack _ actor _ reason => .reason actor reason

end Call

/-- No transition has the identifier yet. -/
def Fresh (r : EvolutionRollout) (id : RequestDigest) : Prop :=
  ∀ event ∈ r.transitions, event.transitionId ≠ id

variable {id : RequestDigest} {action : Action}

theorem replay_eq_none {fingerprint : RequestDigest} :
    r.replay id action fingerprint = .ok none ↔ Fresh r id := by
  unfold replay Fresh
  split
  · rename_i event hfind
    have hid := List.find?_some hfind
    have hmem := List.mem_of_find?_eq_some hfind
    rw [decide_eq_true_eq] at hid
    constructor
    · intro h
      split_ifs at h
      cases h
    · intro hfresh
      exact absurd hid (hfresh event hmem)
  · rename_i hfind
    simpa using hfind

variable {change : Change}

theorem unlessReplayed_eq_changes {payload : Payload}
    {result : Except EvolutionContractError Change} :
    r.unlessReplayed sha json id action payload result = .ok (.changes change) ↔
      Fresh r id ∧ result = .ok change := by
  unfold unlessReplayed
  have hnone : r.replay id action (transitionRequestFingerprint sha json action payload) =
    .ok none ↔ Fresh r id := replay_eq_none
  rw [← hnone]
  rcases r.replay id action (transitionRequestFingerprint sha json action payload) with
    _ | (_ | _)
  · simp
  · rcases result with _ | c <;> simp [Except.map]
  · simp

variable {call : Call}

theorem course_eq_changes (h : r.course sha json call = .ok (.changes change)) :
    Fresh r call.transitionId ∧ Passes sha json r call change := by
  cases call with
  | recordScorecard card id actor =>
    simp only [course, recordScorecard, unlessReplayed_eq_changes,
      bind_eq_ok, ensure_eq_ok, orError_eq_ok, pure_eq_ok, exists_const] at h
    obtain ⟨hfresh, rfl, ⟨hrunning, hstage⟩, hroom, limits, hlimits, rfl⟩ := h
    exact ⟨hfresh, .recordScorecard hrunning hstage hroom hlimits⟩
  | approve proposalId approval id now =>
    simp only [course, approve, unlessReplayed_eq_changes,
      bind_eq_ok, ensure_eq_ok, orError_eq_ok, pure_eq_ok, exists_const] at h
    obtain ⟨hfresh, hawaiting, hfree, card, hlast, hhuman, hother,
      ⟨rfl, hstage, hnext, hbinding, hdigest⟩, ⟨hrecorded, happroved, hunexpired⟩, hunused,
      rfl⟩ := h
    exact ⟨hfresh, .approve hawaiting hfree hlast hhuman hother hstage hnext hbinding hdigest
      hrecorded happroved hunexpired hunused⟩
  | promote id actor now reason =>
    simp only [course, promote, unlessReplayed_eq_changes,
      bind_eq_ok, ensure_eq_ok, orError_eq_ok, pure_eq_ok, exists_const] at h
    obtain ⟨hfresh, hawaiting, approval, hpending, ⟨hunexpired, hstage, rfl⟩, rfl⟩ := h
    exact ⟨hfresh, .promote hawaiting hpending hunexpired hstage⟩
  | pause id actor now reason =>
    simp only [course, pause, simpleTransition,
      unlessReplayed_eq_changes, bind_eq_ok, ensure_eq_ok, pure_eq_ok, exists_const] at h
    obtain ⟨hfresh, hrunning, rfl⟩ := h
    exact ⟨hfresh, .pause hrunning⟩
  | resume id actor now reason =>
    simp only [course, resume, simpleTransition,
      unlessReplayed_eq_changes, bind_eq_ok, ensure_eq_ok, pure_eq_ok, exists_const] at h
    obtain ⟨hfresh, hpaused, rfl⟩ := h
    exact ⟨hfresh, .resume hpaused⟩
  | reject id actor now reason =>
    simp only [course, reject, unlessReplayed_eq_changes,
      bind_eq_ok, ensure_eq_ok, pure_eq_ok, exists_const] at h
    obtain ⟨hfresh, hawaiting, rfl⟩ := h
    exact ⟨hfresh, .reject hawaiting⟩
  | retry id actor now reason =>
    simp only [course, retry, unlessReplayed_eq_changes,
      bind_eq_ok, ensure_eq_ok, pure_eq_ok, exists_const] at h
    obtain ⟨hfresh, hstopped, hroom, rfl⟩ := h
    exact ⟨hfresh, .retry hstopped hroom⟩
  | markActivated id actor now =>
    simp only [course, markActivated, unlessReplayed_eq_changes,
      bind_eq_ok, ensure_eq_ok, pure_eq_ok, exists_const, activationReady,
      Bool.and_eq_true, beq_iff_eq] at h
    obtain ⟨⟨hstage, hstatus⟩, hfresh, h⟩ := h
    cases h
    exact ⟨hfresh, .markActivated hstage hstatus⟩
  | markRolledBack id actor now reason =>
    simp only [course, markRolledBack, unlessReplayed_eq_changes,
      bind_eq_ok, ensure_eq_ok, pure_eq_ok, exists_const] at h
    obtain ⟨hfresh, hlive, rfl⟩ := h
    exact ⟨hfresh, .markRolledBack hlive⟩

theorem course_of_passes (hfresh : Fresh r call.transitionId)
    (h : Passes sha json r call change) : r.course sha json call = .ok (.changes change) := by
  cases h with
  | recordScorecard hrunning hstage hroom hlimits =>
    refine unlessReplayed_eq_changes.mpr ⟨hfresh, ?_⟩
    simp only [bind_eq_ok, ensure_eq_ok, orError_eq_ok, pure_eq_ok, exists_const]
    exact ⟨trivial, ⟨hrunning, hstage⟩, hroom, _, hlimits, rfl⟩
  | approve hawaiting hfree hlast hhuman hother hstage hnext hbinding hdigest hrecorded happroved
      hunexpired hunused =>
    refine unlessReplayed_eq_changes.mpr ⟨hfresh, ?_⟩
    simp only [bind_eq_ok, ensure_eq_ok, orError_eq_ok, pure_eq_ok, exists_const]
    exact ⟨hawaiting, hfree, _, hlast, hhuman, hother, ⟨trivial, hstage, hnext, hbinding, hdigest⟩,
      ⟨hrecorded, happroved, hunexpired⟩, hunused, trivial⟩
  | promote hawaiting hpending hunexpired hstage =>
    refine unlessReplayed_eq_changes.mpr ⟨hfresh, ?_⟩
    simp only [bind_eq_ok, ensure_eq_ok, orError_eq_ok, pure_eq_ok, exists_const]
    exact ⟨hawaiting, _, hpending, ⟨hunexpired, hstage, rfl⟩, rfl⟩
  | pause hstatus | resume hstatus | reject hstatus | markRolledBack hstatus =>
    refine unlessReplayed_eq_changes.mpr ⟨hfresh, ?_⟩
    simp only [bind_eq_ok, ensure_eq_ok, pure_eq_ok, exists_const]
    exact ⟨hstatus, trivial⟩
  | retry hstopped hroom =>
    refine unlessReplayed_eq_changes.mpr ⟨hfresh, ?_⟩
    simp only [bind_eq_ok, ensure_eq_ok, pure_eq_ok, exists_const]
    exact ⟨hstopped, hroom, trivial⟩
  | markActivated hstage hstatus =>
    have hready : r.activationReady = true := by
      unfold activationReady
      rw [hstage, hstatus]
      rfl
    unfold course markActivated
    rw [bind_eq_ok]
    exact ⟨(), ensure_eq_ok.mpr hready, unlessReplayed_eq_changes.mpr ⟨hfresh, rfl⟩⟩

/-! ## Recording the transition -/

/-- The transition of a call is accepted: the identifier is a digest, the reason is a text, there
is room, and the call is not older than the last transition. -/
structure Recordable (r : EvolutionRollout) (call : Call) : Prop where
  digest : isSha256Digest call.transitionId.text = true
  reason : ∀ reason ∈ call.reason?, IsText 1024 reason
  room : r.transitions.length < maxEvolutionRolloutTransitions
  ordered : ∀ previous ∈ r.transitions.getLast?, previous.occurredAt ≤ call.time

/-- The transition as it is stored. -/
def Change.event (change : Change) : EvolutionTransitionEvidence :=
  { change.fields with reason := trim change.fields.reason }

/-- The rollout after the transition is recorded. -/
def Change.recorded (change : Change) : EvolutionRollout :=
  { change.rollout with
    transitions := change.rollout.transitions ++ [change.event]
    scorecards := change.rollout.scorecards ++ change.pushed }

theorem trim_asStr (action : Action) : trim action.asStr = action.asStr := by
  cases action <;> decide +kernel

theorem isText_asStr (action : Action) : IsText 64 action.asStr := by
  cases action <;> decide +kernel

theorem isText_scorecardReason (passed : Bool) :
    IsText 1024 (scorecardReason passed) := by
  cases passed <;> decide +kernel

theorem isText_approvedReason : IsText 1024 approvedReason := by decide +kernel

theorem isText_activatedReason : IsText 1024 activatedReason := by decide +kernel

theorem fingerprint_ok (action : Action) (payload : Payload) :
    isSha256Digest (transitionRequestFingerprint sha json action payload).text = true :=
  isSha256Digest_hex _

theorem rejectEvidence_ok (r : EvolutionRollout) : isSha256Digest r.rejectEvidence.text = true := by
  unfold rejectEvidence
  rcases r.pendingApproval with _ | approval
  · rcases r.scorecards.getLast? with _ | card
    · exact r.binding.evidence_ok
    · exact card.scorecard_ok
  · exact approval.approval_ok

theorem rollbackEvidence_ok (r : EvolutionRollout) :
    isSha256Digest r.rollbackEvidence.text = true := by
  unfold rollbackEvidence
  rcases r.pendingApproval with _ | approval
  · exact r.binding.artifact_ok
  · exact approval.approval_ok

/-- The promotion changes only stage, status, retries and what is pending or consumed. -/
theorem promoted_frame (approval : EvolutionPromotionApproval) :
    (r.promoted approval).binding = r.binding ∧ (r.promoted approval).limits = r.limits ∧
      (r.promoted approval).scorecards = r.scorecards ∧
      (r.promoted approval).transitions = r.transitions ∧
      (r.promoted approval).pendingApproval = none ∧
      (r.promoted approval).consumedApprovalIds =
        r.consumedApprovalIds ++ [approval.approvalId] := by
  unfold promoted
  rcases approval.toStage with _ | next <;> exact ⟨rfl, rfl, rfl, rfl, rfl, rfl⟩

namespace Passes

variable {call : Call} {change : Change}

/-- Binding, limits, transitions and scorecards stay as they are until the transition is
recorded. -/
theorem frame (h : Passes sha json r call change) :
    change.rollout.binding = r.binding ∧ change.rollout.limits = r.limits ∧
      change.rollout.scorecards = r.scorecards ∧
      change.rollout.transitions = r.transitions := by
  cases h with
  | @promote approval =>
    have hframe := promoted_frame (r := r) approval
    exact ⟨hframe.1, hframe.2.1, hframe.2.2.1, hframe.2.2.2.1⟩
  | _ => exact ⟨rfl, rfl, rfl, rfl⟩

theorem fields_eq (h : Passes sha json r call change) :
    change.fields.transitionId = call.transitionId ∧ change.fields.action = call.action.asStr ∧
      change.fields.requestFingerprint =
        transitionRequestFingerprint sha json call.action call.payload ∧
      change.fields.occurredAt = call.time := by
  cases h <;> exact ⟨rfl, rfl, rfl, rfl⟩

theorem evidence_ok (h : Passes sha json r call change) :
    isSha256Digest change.fields.evidenceDigest.text = true := by
  cases h with
  | @recordScorecard card => exact card.scorecard_ok
  | @approve approval => exact approval.approval_ok
  | @promote approval => exact approval.approval_ok
  | reject => exact rejectEvidence_ok r
  | markActivated => exact r.binding.artifact_ok
  | markRolledBack => exact rollbackEvidence_ok r
  | _ => exact r.binding.evidence_ok

theorem reason_iff (h : Passes sha json r call change) :
    IsText 1024 change.fields.reason ↔ ∀ reason ∈ call.reason?, IsText 1024 reason := by
  have hgiven : ∀ reason : String, IsText 1024 reason ↔
      ∀ given ∈ some reason, IsText 1024 given := by
    intro reason
    simp
  have hfixed : ∀ {reason : String}, IsText 1024 reason →
      (IsText 1024 reason ↔ ∀ given ∈ (none : Option String), IsText 1024 given) := by
    intro reason hreason
    simp [hreason]
  cases h with
  | @recordScorecard card id limits => exact hfixed (isText_scorecardReason (card.passes limits))
  | approve => exact hfixed isText_approvedReason
  | markActivated => exact hfixed isText_activatedReason
  | @promote _ _ _ reason => exact hgiven reason
  | @pause _ _ _ reason => exact hgiven reason
  | @resume _ _ _ reason => exact hgiven reason
  | @reject _ _ _ reason => exact hgiven reason
  | @retry _ _ _ reason => exact hgiven reason
  | @markRolledBack _ _ _ reason => exact hgiven reason

theorem checked_iff (h : Passes sha json r call change) :
    change.fields.Checked ↔ isSha256Digest call.transitionId.text = true ∧
      ∀ reason ∈ call.reason?, IsText 1024 reason := by
  obtain ⟨hid, haction, hfingerprint, -⟩ := h.fields_eq
  rw [← h.reason_iff, ← hid]
  constructor
  · intro hchecked
    exact ⟨hchecked.transition, hchecked.reason⟩
  · rintro ⟨htransition, hreason⟩
    refine ⟨htransition, ?_, h.evidence_ok, ?_, hreason⟩
    · rw [hfingerprint]
      exact fingerprint_ok call.action call.payload
    · rw [haction]
      exact isText_asStr call.action

theorem trimmed_eq (h : Passes sha json r call change) :
    ({ change.fields with
      action := trim change.fields.action, reason := trim change.fields.reason } :
        EvolutionTransitionEvidence) = change.event := by
  obtain ⟨-, haction, -, -⟩ := h.fields_eq
  rw [haction, trim_asStr, ← haction]
  rfl

theorem event_checked (h : Passes sha json r call change) (hrecordable : Recordable r call) :
    change.event.Checked := by
  rw [← h.trimmed_eq]
  exact EvolutionTransitionEvidence.checked_of_new (EvolutionTransitionEvidence.new_eq_ok.mpr
    ⟨h.checked_iff.mpr ⟨hrecordable.digest, hrecordable.reason⟩, rfl⟩)

theorem stages_eq (h : Passes sha json r call change) :
    change.fields.fromStage = r.currentStage ∧ change.fields.fromStatus = r.status ∧
      change.fields.toStage = change.rollout.currentStage ∧
      change.fields.toStatus = change.rollout.status := by
  cases h <;> exact ⟨rfl, rfl, rfl, rfl⟩

theorem record_eq_ok (h : Passes sha json r call change) {next : EvolutionRollout} :
    change.record = .ok next ↔ Recordable r call ∧ next = change.recorded := by
  obtain ⟨-, -, -, htransitions⟩ := h.frame
  obtain ⟨-, -, -, htime⟩ := h.fields_eq
  simp only [Change.record, appendTransition, bind_eq_ok, ensure_eq_ok,
    pure_eq_ok, exists_const, EvolutionTransitionEvidence.new_eq_ok, h.checked_iff,
    h.trimmed_eq, htransitions]
  constructor
  · rintro ⟨_, ⟨⟨hid, hreason⟩, rfl⟩, _, ⟨hroom, hordered, rfl⟩, rfl⟩
    refine ⟨⟨hid, hreason, hroom, fun previous hprevious => ?_⟩, ?_⟩
    · rw [← htime]
      exact hordered previous hprevious
    · unfold Change.recorded
      rw [htransitions]
  · rintro ⟨hrecordable, rfl⟩
    refine ⟨_, ⟨⟨hrecordable.digest, hrecordable.reason⟩, rfl⟩, _,
      ⟨hrecordable.room, fun previous hprevious => ?_, rfl⟩, ?_⟩
    · show previous.occurredAt ≤ change.fields.occurredAt
      rw [htime]
      exact hrecordable.ordered previous hprevious
    · unfold Change.recorded
      rw [htransitions]

end Passes

theorem exec_recorded (hfresh : Fresh r call.transitionId)
    (h : Passes sha json r call change) (hrecordable : Recordable r call) :
    r.exec sha json call = (change.recorded, .ok true) := by
  unfold exec settle
  rw [course_of_passes hfresh h]
  dsimp only
  rw [h.record_eq_ok.mpr ⟨hrecordable, rfl⟩]

theorem exec_torn (hfresh : Fresh r call.transitionId)
    (h : Passes sha json r call change) (hrefused : ¬ Recordable r call) :
    (r.exec sha json call).1 = change.rollout := by
  unfold exec settle
  rw [course_of_passes hfresh h]
  dsimp only
  rcases hrecord : change.record with e | next
  · rfl
  · exact absurd (h.record_eq_ok.mp hrecord).1 hrefused

/-! ## The three outcomes of a call -/

theorem unlessReplayed_eq_replayed {payload : Payload}
    {result : Except EvolutionContractError Change} {answer : Bool}
    (h : r.unlessReplayed sha json id action payload result = .ok (.replayed answer)) :
    answer = false := by
  unfold unlessReplayed replay at h
  split at h
  · cases h
  · rename_i given hreplay
    split at hreplay
    · split_ifs at hreplay
      cases hreplay
      cases h
      rfl
    · cases hreplay
  · rcases result with _ | _ <;> cases h

theorem course_eq_replayed {answer : Bool}
    (h : r.course sha json call = .ok (.replayed answer)) : answer = false := by
  cases call with
  | markActivated id actor now =>
    simp only [course, markActivated, bind_eq_ok, ensure_eq_ok] at h
    obtain ⟨-, -, h⟩ := h
    exact unlessReplayed_eq_replayed h
  | _ => exact unlessReplayed_eq_replayed h

/-- A call leaves the rollout as it is, or records its transition and answers `true`, or leaves a
change whose transition is refused. -/
theorem exec_cases (sha : Sha256) (json : PayloadWriter) (r : EvolutionRollout) (call : Call) :
    ((r.exec sha json call).1 = r ∧ (r.exec sha json call).2 ≠ .ok true) ∨
      (∃ change, Fresh r call.transitionId ∧ Passes sha json r call change ∧ Recordable r call ∧
        r.exec sha json call = (change.recorded, .ok true)) ∨
      ∃ change e, Fresh r call.transitionId ∧ Passes sha json r call change ∧
        ¬ Recordable r call ∧ r.exec sha json call = (change.rollout, .error e) := by
  unfold exec settle
  rcases hcourse : r.course sha json call with e | (answer | change)
  · exact Or.inl ⟨rfl, nofun⟩
  · rw [course_eq_replayed hcourse]
    exact Or.inl ⟨rfl, by simp⟩
  · obtain ⟨hfresh, hpasses⟩ := course_eq_changes hcourse
    right
    dsimp only
    rcases hrecord : change.record with e | next
    · refine Or.inr ⟨change, e, hfresh, hpasses, fun hrecordable => ?_, rfl⟩
      have hok := hpasses.record_eq_ok.mpr ⟨hrecordable, rfl⟩
      rw [hrecord] at hok
      cases hok
    · obtain ⟨hrecordable, rfl⟩ := hpasses.record_eq_ok.mp hrecord
      exact Or.inl ⟨change, hfresh, hpasses, hrecordable, rfl⟩

end Pandora.Evolution.Rollout
