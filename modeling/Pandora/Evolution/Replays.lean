import Pandora.Evolution.History

/-! # Reached rollouts are valid

The invariant of `History` is kept by every call that is read back, so `validate` succeeds in every
state reached; the transitions only grow, so a request given again finds its transition. -/

namespace Pandora.Evolution.Replays

open Text Ids Lib.Checked List
open Rollout.Records (isSha256Digest isSha256Digest_hex)
open Evolution.Contracts Evolution.Rollout Evolution.Promotions Evolution.History EvolutionRollout

variable {sha : Sha256} {json : PayloadWriter} {r₀ r : EvolutionRollout} {call : Call}
  {change : Change}

/-! ## The stored records -/

/-- At most one scorecard is pushed, and only where there is room. -/
theorem length_recorded (hpasses : Passes sha json r call change)
    (h : r.scorecards.length ≤ maxEvolutionRolloutScorecards) :
    change.recorded.scorecards.length ≤ maxEvolutionRolloutScorecards := by
  obtain ⟨-, -, hcards, -⟩ := hpasses.frame
  show (change.rollout.scorecards ++ change.pushed).length ≤ _
  rw [hcards, length_append]
  cases hpasses with
  | recordScorecard hrunning hstage hroom hlimits =>
    show r.scorecards.length + 1 ≤ _
    omega
  | _ => exact h

theorem consumed_recorded (hpasses : Passes sha json r call change) {id : RequestDigest}
    (hid : id ∈ change.recorded.consumedApprovalIds) :
    id ∈ r.consumedApprovalIds ∨ ∃ approval, r.pendingApproval = some approval ∧
      id = approval.approvalId := by
  have htake : ∀ status, id ∈ (r.consumePending status).consumedApprovalIds →
      id ∈ r.consumedApprovalIds ∨ ∃ approval, r.pendingApproval = some approval ∧
        id = approval.approvalId := by
    intro status hmem
    rcases mem_append.mp hmem with hmem | hmem
    · exact Or.inl hmem
    · right
      rcases hsome : r.pendingApproval with _ | approval
      · rw [hsome] at hmem
        cases hmem
      · rw [hsome] at hmem
        exact ⟨approval, rfl, mem_singleton.mp hmem⟩
  cases hpasses with
  | @promote approval _ _ _ hawaiting hpending =>
    have hmem : id ∈ (r.promoted approval).consumedApprovalIds := hid
    rw [(promoted_frame (r := r) approval).2.2.2.2.2] at hmem
    rcases mem_append.mp hmem with hmem | hmem
    · exact Or.inl hmem
    · exact Or.inr ⟨approval, hpending, mem_singleton.mp hmem⟩
  | reject => exact htake .rejected hid
  | markRolledBack => exact htake .rolledBack hid
  | _ => exact Or.inl hid

theorem approvedIds_recorded (hsound : Sound r₀ r) (hpasses : Passes sha json r call change) :
    approvedIds r ⊆ approvedIds change.recorded := by
  cases hpasses with
  | @approve approval id now _ hawaiting hfree =>
    have hgiven : (r.approveChange sha json approval id now).recorded.pendingApproval =
        some approval := rfl
    rw [approvedIds_idle hfree, approvedIds_pending hgiven]
    exact Finset.subset_insert _ _
  | @promote approval id now reason hawaiting hpending =>
    obtain ⟨-, -, -, -, hnone, hconsumed⟩ := promoted_frame (r := r) approval
    have hnext :
        approvedIds (r.promoteChange sha json approval id approval.approver now reason).recorded =
          (r.promoted approval).consumedApprovalIds.toFinset := approvedIds_idle hnone
    rw [hnext, hconsumed, toFinset_snoc, approvedIds_pending hpending]
  | @reject id actor now reason =>
    rw [approvedIds_idle (r := (r.rejectChange sha json id actor now reason).recorded) rfl]
    exact Finset.Subset.refl _
  | @markRolledBack id actor now reason =>
    rw [approvedIds_idle (r := (r.rollbackChange sha json id actor now reason).recorded) rfl]
    exact Finset.Subset.refl _
  | @retry id actor now reason hstopped =>
    have hidle : r.pendingApproval = none := by
      refine hsound.idle ?_
      rcases hstopped with hstatus | hstatus <;> rw [hstatus] <;> decide
    rw [approvedIds_idle hidle]
    exact (approvedIds_idle (r := (r.retryChange sha json id actor now reason).recorded) rfl).ge
  | _ => exact Finset.Subset.refl _

/-- The evidence of an approving transition is the approval that is pending from then on. -/
theorem approve_event (hpasses : Passes sha json r call change)
    (haction : change.event.action = Action.approve.asStr) :
    change.event.evidenceDigest ∈ approvedIds change.recorded := by
  have hcall : call.action = .approve := by
    refine Action.asStr_inj ?_
    rw [← haction]
    exact hpasses.fields_eq.2.1.symm
  cases hpasses with
  | @approve approval id now =>
    have hgiven : (r.approveChange sha json approval id now).recorded.pendingApproval =
        some approval := rfl
    rw [approvedIds_pending hgiven]
    exact Finset.mem_insert_self _ _
  | _ => cases hcall

/-- An approval is pending after a call only if the call gave it, or the rollout already waited. -/
theorem pending_recorded (hsound : Sound r₀ r) (hpasses : Passes sha json r call change)
    {approval : EvolutionPromotionApproval}
    (hpending : change.recorded.pendingApproval = some approval) :
    ∃ id now, call = .approve approval.proposalId approval id now ∧
      change = r.approveChange sha json approval id now ∧ r.pendingApproval = none ∧
      approval.approvalId ∉ r.consumedApprovalIds ∧
      ∃ card, r.scorecards.getLast? = some card ∧ card.recordedAt ≤ approval.approvedAt := by
  have hidle : ∀ {status : EvolutionRolloutStatus}, r.status = status → status ≠ .awaitingApproval →
      r.pendingApproval ≠ some approval := by
    intro status hstatus hother
    rw [hsound.idle (by rw [hstatus]; exact hother)]
    nofun
  cases hpasses with
  | recordScorecard hrunning | pause hrunning => exact absurd hpending (hidle hrunning (by decide))
  | @approve given id now card _ hfree hlast _ _ _ _ _ _ hrecorded _ _ hunused =>
    obtain rfl : given = approval := Option.some.inj hpending
    exact ⟨id, now, rfl, rfl, hfree, hunused, card, hlast, hrecorded⟩
  | @promote given =>
    have hnone := (promoted_frame (r := r) given).2.2.2.2.1
    have hsome : (r.promoted given).pendingApproval = some approval := hpending
    rw [hnone] at hsome
    cases hsome
  | resume hpaused => exact absurd hpending (hidle hpaused (by decide))
  | reject | retry | markRolledBack => cases hpending
  | markActivated _ hstatus => exact absurd hpending (hidle hstatus (by decide))

/-- The transition of the pending approval is the only one with its identifier. -/
theorem givenBy_approve (h : Stored sha json r) {approval : EvolutionPromotionApproval}
    {id : RequestDigest} {now : ℕ} (hfree : r.pendingApproval = none)
    (hunused : approval.approvalId ∉ r.consumedApprovalIds) :
    GivenBy sha json (r.approveChange sha json approval id now).recorded approval := by
  have hnone : r.transitions.find? (fun event =>
      event.action = Action.approve.asStr ∧ event.evidenceDigest = approval.approvalId) = none := by
    rw [List.find?_eq_none]
    intro event hevent hmatch
    rw [decide_eq_true_eq] at hmatch
    have hmem := h.approvals event hevent hmatch.1
    rw [hmatch.2, approvedIds_idle hfree, mem_toFinset] at hmem
    exact hunused hmem
  refine ⟨(r.approveChange sha json approval id now).event, ?_, rfl, rfl⟩
  show (r.transitions ++ [(r.approveChange sha json approval id now).event]).find? _ = _
  rw [List.find?_append, hnone, Option.none_or]
  exact List.find?_cons_of_pos (by simp [Change.event, approveChange,
    transitionTo])

theorem stored_recorded (h : Stored sha json r) (hsound : Sound r₀ r)
    (hfresh : Fresh r call.transitionId) (hpasses : Passes sha json r call change)
    (hrecordable : Recordable r call) : Stored sha json change.recorded := by
  obtain ⟨hbinding, hlimits, hcards, htransitions⟩ := hpasses.frame
  have hgrown : change.recorded.transitions = r.transitions ++ [change.event] := by
    show change.rollout.transitions ++ [change.event] = _
    rw [htransitions]
  refine ⟨?_, length_recorded hpasses h.cards, ?_, ?_, ?_, ?_, ?_, ?_⟩
  · show change.rollout.limits.map (·.stage) = _
    rw [hlimits]
    exact h.limits
  · rw [hgrown, length_append]
    exact hrecordable.room
  · rw [hgrown]
    intro event hevent
    rcases mem_append.mp hevent with hevent | hevent
    · exact h.checked event hevent
    · rw [mem_singleton.mp hevent]
      exact hpasses.event_checked hrecordable
  · rw [hgrown, map_append, map_singleton]
    have hid : change.event.transitionId = call.transitionId := hpasses.fields_eq.1
    have hnew : change.event.transitionId ∉ r.transitions.map (·.transitionId) := by
      intro hmem
      obtain ⟨event, hevent, hsame⟩ := mem_map.mp hmem
      exact hfresh event hevent (hsame.trans hid)
    rw [← concat_eq_append]
    exact h.ids.concat hnew
  · intro id hid
    rcases consumed_recorded hpasses hid with hold | ⟨approval, -, rfl⟩
    · exact h.consumed id hold
    · exact approval.approval_ok
  · rw [hgrown]
    intro event hevent haction
    rcases mem_append.mp hevent with hevent | hevent
    · exact approvedIds_recorded hsound hpasses (h.approvals event hevent haction)
    · rw [mem_singleton.mp hevent] at haction ⊢
      exact approve_event hpasses haction
  · intro approval hpending
    obtain ⟨id, now, -, rfl, hfree, hunused, card, hlast, hrecorded⟩ :=
      pending_recorded hsound hpasses hpending
    refine ⟨givenBy_approve h hfree hunused, card, ?_, hrecorded⟩
    show (r.scorecards ++ []).getLast? = _
    rw [append_nil]
    exact hlast

/-! ## The transitions -/

theorem replays_recorded (h : Replays sha json r) (hsound : Sound r₀ r)
    (hpasses : Passes sha json r call change) (hrecordable : Recordable r call)
    (hreads : ReadsBack r call) : Replays sha json change.recorded := by
  obtain ⟨first, rest, gathered, hsplit, hfirst, hreplay, hagrees⟩ := h
  obtain ⟨hbinding, hlimits, hcards, htransitions⟩ := hpasses.frame
  obtain ⟨hfromStage, hfromStatus, htoStage, htoStatus⟩ := hpasses.stages_eq
  obtain ⟨-, haction, -, htime⟩ := hpasses.fields_eq
  obtain ⟨gathered', hfollows⟩ := follows_of_passes hsound hagrees hpasses hreads
  have hgrown : change.recorded.transitions = first :: (rest ++ [change.event]) := by
    show change.rollout.transitions ++ [change.event] = _
    rw [htransitions, hsplit]
    rfl
  have hmore : r.scorecards <+: change.recorded.scorecards := by
    show r.scorecards <+: change.rollout.scorecards ++ change.pushed
    rw [hcards]
    exact prefix_append _ _
  have hordered : gathered.previousTime ≤ change.event.occurredAt := by
    obtain ⟨last, hlast, hprevious⟩ := hagrees.time
    rw [hprevious]
    show last.occurredAt ≤ change.fields.occurredAt
    rw [htime]
    exact hrecordable.ordered last hlast
  have hevent : change.recorded.replayEvent sha json gathered change.event = .ok { gathered' with
      stage := change.event.toStage, status := change.event.toStatus,
      previousTime := change.event.occurredAt } := by
    unfold replayEvent
    refine bind_eq_ok.mpr ⟨(), ensure_eq_ok.mpr ⟨?_, ?_, hordered⟩, bind_eq_ok.mpr
      ⟨gathered', ?_, rfl⟩⟩
    · rw [hagrees.stage]
      exact hfromStage
    · rw [hagrees.status]
      exact hfromStatus
    · have hcall : change.event.action = call.action.asStr := haction
      rw [replayAction_of sha json hcall]
      exact hfollows.replays
  have hsame : change.recorded.binding = r.binding ∧ change.recorded.limits = r.limits :=
    ⟨hbinding, hlimits⟩
  have hconfigures : change.recorded.Configures sha json first := by
    unfold EvolutionRollout.Configures at hfirst ⊢
    rw [hsame.1, hsame.2]
    exact hfirst
  have hfold : (rest ++ [change.event]).foldlM (change.recorded.replayEvent sha json)
      (gatheredFrom first) = .ok { gathered' with
        stage := change.event.toStage, status := change.event.toStatus,
        previousTime := change.event.occurredAt } := by
    have hbefore : rest.foldlM (change.recorded.replayEvent sha json)
        (gatheredFrom first) = .ok gathered :=
      replay_mono hsame.1 hsame.2 hmore hreplay
    rw [foldlM_append, hbefore, ok_bind, foldlM_cons, hevent]
    rfl
  refine ⟨first, rest ++ [change.event], _, hgrown, hconfigures, hfold, ?_⟩
  · refine ⟨htoStage, htoStatus, hfollows.retries, hfollows.cards, hfollows.consumed,
      hfollows.approved, change.event, ?_, rfl⟩
    rw [hgrown, ← cons_append]
    exact List.getLast?_concat

/-! ## The first state -/

theorem checkStages_ok : ∀ {previous : Option EvolutionRolloutStage}
    {limits : List EvolutionStageLimits} {stages : List EvolutionRolloutStage},
    checkStages previous limits stages = .ok () → limits.length = stages.length →
      limits.map (·.stage) = stages
  | _, [], [], _, _ => rfl
  | _, _ :: _, [], _, hlength => by cases hlength
  | _, [], _ :: _, _, hlength => by cases hlength
  | previous, limits :: rest, expected :: stages, h, hlength => by
    simp only [checkStages, bind_eq_ok, ensure_eq_ok, exists_const] at h
    obtain ⟨-, hstage, hrest⟩ := h
    rw [map_cons, hstage, checkStages_ok hrest (Nat.succ.inj hlength)]

theorem starts_new {binding : EvolutionRolloutBinding} {limits : List EvolutionStageLimits}
    {id : RequestDigest} {actor : PrincipalId} {now : ℕ}
    (hnew : new sha json binding limits id actor now = .ok r) :
    Stored sha json r ∧ Replays sha json r := by
  simp only [new, bind_eq_ok, pure_eq_ok, ensure_eq_ok, exists_const] at hnew
  obtain ⟨hlength, ⟨⟩, hstages, initial, hinitial, rfl⟩ := hnew
  obtain ⟨-, hevent⟩ := EvolutionTransitionEvidence.new_eq_ok.mp hinitial
  have hchecked := EvolutionTransitionEvidence.checked_of_new hinitial
  have haction : initial.action = Action.configure.asStr := by
    rw [hevent]
    exact trim_asStr .configure
  constructor
  · refine ⟨checkStages_ok hstages hlength, Nat.zero_le _, Nat.succ_le_succ (Nat.zero_le _), ?_,
      ?_, ?_, ?_, ?_⟩
    · intro event hmem
      rw [mem_singleton.mp hmem]
      exact hchecked
    · exact nodup_singleton _
    · intro id hid
      cases hid
    · intro event hmem happrove
      rw [mem_singleton.mp hmem, haction] at happrove
      cases Action.asStr_inj happrove
    · intro approval hpending
      cases hpending
  · refine ⟨initial, [], gatheredFrom initial, rfl, ⟨haction, ?_⟩, rfl, ?_⟩
    · rw [hevent]
      exact ⟨rfl, rfl, rfl, rfl, rfl, rfl⟩
    · exact ⟨rfl, rfl, rfl, rfl, rfl, rfl, initial, rfl, rfl⟩

/-! ## Validation -/

theorem sortLimits_eq (h : Stored sha json r) : sortLimits r.limits = r.limits := by
  have hsorted : (r.limits.map (·.stage)).Pairwise fun a b => a.index ≤ b.index := by
    rw [h.limits]
    decide
  have hlimits : r.limits.Pairwise fun a b => a.stage.index ≤ b.stage.index := by
    rw [pairwise_map] at hsorted
    exact hsorted
  exact List.Pairwise.insertionSort_eq hlimits

theorem collectTransition_ok : ∀ {events : List EvolutionTransitionEvidence}
    {ids : Finset RequestDigest}, (∀ event ∈ events, event.Checked) →
      (events.map (·.transitionId)).Nodup → (∀ event ∈ events, event.transitionId ∉ ids) →
        ∃ collected, events.foldlM collectTransition ids = .ok collected
  | [], ids, _, _, _ => ⟨ids, rfl⟩
  | event :: events, ids, hchecked, hnodup, hnew => by
    rw [map_cons, nodup_cons] at hnodup
    have hevent := hchecked event mem_cons_self
    have hstep : collectTransition ids event = .ok (insert event.transitionId ids) := by
      unfold collectTransition validateSha256Digest
      refine bind_eq_ok.mpr ⟨(), ensure_eq_ok.mpr hevent.transition, bind_eq_ok.mpr ⟨(),
        ensure_eq_ok.mpr hevent.fingerprint, bind_eq_ok.mpr ⟨(), ensure_eq_ok.mpr hevent.evidence,
        bind_eq_ok.mpr ⟨_, validateText_eq_ok.mpr ⟨hevent.action, rfl⟩, bind_eq_ok.mpr ⟨_,
        validateText_eq_ok.mpr ⟨hevent.reason, rfl⟩, bind_eq_ok.mpr ⟨(), ensure_eq_ok.mpr ?_,
        rfl⟩⟩⟩⟩⟩⟩
      exact hnew event mem_cons_self
    have hrest : ∀ other ∈ events, other.transitionId ∉ insert event.transitionId ids := by
      intro other hother hmem
      rcases Finset.mem_insert.mp hmem with hsame | hmem
      · exact hnodup.1 (mem_map.mpr ⟨other, hother, hsame⟩)
      · exact hnew other (mem_cons_of_mem _ hother) hmem
    obtain ⟨collected, hcollected⟩ := collectTransition_ok
      (fun other hother => hchecked other (mem_cons_of_mem _ hother)) hnodup.2 hrest
    refine ⟨collected, ?_⟩
    rw [foldlM_cons, hstep, ok_bind]
    exact hcollected

theorem collectConsumed_ok : ∀ {ids : List RequestDigest} {collected : Finset RequestDigest},
    (∀ id ∈ ids, isSha256Digest id.text = true) → ids.Nodup → (∀ id ∈ ids, id ∉ collected) →
      ids.foldlM collectConsumed collected = .ok (collected ∪ ids.toFinset)
  | [], collected, _, _, _ => by
    rw [foldlM_nil, toFinset_nil, Finset.union_empty]
    rfl
  | id :: ids, collected, hdigests, hnodup, hnew => by
    rw [nodup_cons] at hnodup
    have hstep : collectConsumed collected id = .ok (insert id collected) := by
      unfold collectConsumed validateSha256Digest
      exact bind_eq_ok.mpr ⟨(), ensure_eq_ok.mpr (hdigests id mem_cons_self), bind_eq_ok.mpr
        ⟨(), ensure_eq_ok.mpr (hnew id mem_cons_self), rfl⟩⟩
    have hrest : ∀ other ∈ ids, other ∉ insert id collected := by
      intro other hother hmem
      rcases Finset.mem_insert.mp hmem with rfl | hmem
      · exact hnodup.1 hother
      · exact hnew other (mem_cons_of_mem _ hother) hmem
    rw [foldlM_cons, hstep, ok_bind, collectConsumed_ok
      (fun other hother => hdigests other (mem_cons_of_mem _ hother)) hnodup.2 hrest,
      toFinset_cons, Finset.insert_union, Finset.union_insert]

theorem accountApprovals_ok {gathered : Gathered} (hstored : Stored sha json r)
    (hsound : Sound r₀ r) (hagrees : Agrees r gathered) :
    r.accountApprovals sha json gathered r.consumedApprovalIds.toFinset = .ok (approvedIds r) := by
  unfold accountApprovals
  rcases hpending : r.pendingApproval with _ | approval
  · rw [approvedIds_idle hpending]
    rfl
  · obtain ⟨hawaiting, happroves, -⟩ := hsound.pending approval hpending
    obtain ⟨card, hscored⟩ := hsound.scored hawaiting
    have happroval := happroves card hscored
    obtain ⟨⟨event, hfind, hactor, hfingerprint⟩, last, hlast, hrecorded⟩ :=
      hstored.pending approval hpending
    rw [hscored.last, Option.some.injEq] at hlast
    subst hlast
    rw [approvedIds_pending hpending]
    refine bind_eq_ok.mpr ⟨card, orError_eq_ok.mpr hscored.last, bind_eq_ok.mpr ⟨approval,
      EvolutionPromotionApproval.new_self approval, bind_eq_ok.mpr ⟨(), ensure_eq_ok.mpr ?_, rfl⟩⟩⟩
    refine ⟨rfl, ?_, happroval.human, ?_, ?_, happroval.binding, happroval.digest,
      happroval.other, hrecorded, ?_, event, hfind, hactor, hfingerprint⟩
    · rw [hagrees.status]
      exact hawaiting
    · rw [hagrees.stage]
      exact happroval.stage
    · rw [hagrees.stage]
      exact happroval.next
    · rw [mem_toFinset]
      exact happroval.unused

theorem validateHistory_ok (hstored : Stored sha json r) (hsound : Sound r₀ r)
    (hreplays : Replays sha json r) : r.validateHistory sha json = .ok () := by
  obtain ⟨first, rest, gathered, hsplit, hfirst, hreplay, hagrees⟩ := hreplays
  have hconsumed : r.consumedApprovalIds.foldlM collectConsumed ∅ =
      .ok (∅ ∪ r.consumedApprovalIds.toFinset) :=
    collectConsumed_ok hstored.consumed hsound.consumed fun _ _ => Finset.notMem_empty _
  rw [Finset.empty_union] at hconsumed
  unfold validateHistory
  rw [hsplit]
  refine bind_eq_ok.mpr ⟨(), ensure_eq_ok.mpr hfirst, bind_eq_ok.mpr ⟨gathered, hreplay,
    bind_eq_ok.mpr ⟨_, hconsumed, bind_eq_ok.mpr ⟨(), ensure_eq_ok.mpr ?_, bind_eq_ok.mpr
    ⟨_, accountApprovals_ok hstored hsound hagrees, ensure_eq_ok.mpr hagrees.approved.symm⟩⟩⟩⟩⟩
  exact ⟨hagrees.consumed.symm, hagrees.cards, hagrees.retries, hagrees.stage, hagrees.status⟩

/-- **The stored rollout is accepted when it is read.** -/
theorem validate_ok (hstored : Stored sha json r) (hsound : Sound r₀ r)
    (hreplays : Replays sha json r) : r.validate sha json = .ok () := by
  have hlimits := mapM_of_forall (g := id) (l := r.limits)
    fun limits _ => EvolutionStageLimits.new_self limits
  have hcards := mapM_of_forall (g := id) (l := r.scorecards)
    fun card _ => EvolutionScorecard.new_self card
  obtain ⟨collected, hcollected⟩ : ∃ collected,
      r.transitions.foldlM collectTransition ∅ = .ok collected :=
    collectTransition_ok hstored.checked hstored.ids fun _ _ => Finset.notMem_empty _
  have hsorted : (sortLimits (r.limits.map id)).map (·.stage) =
      EvolutionRolloutStage.all := by
    rw [map_id, sortLimits_eq hstored]
    exact hstored.limits
  have hnonempty : r.transitions ≠ [] := by
    obtain ⟨first, rest, -, hsplit, -⟩ := hreplays
    rw [hsplit]
    exact cons_ne_nil _ _
  have hready : ¬ (r.status = .complete ∧ ¬ r.activationReady) := by
    rintro ⟨hstatus, hnot⟩
    refine hnot ?_
    unfold activationReady
    rw [hstatus, hsound.finished hstatus]
    rfl
  unfold validate
  exact bind_eq_ok.mpr ⟨_, EvolutionRolloutBinding.new_self r.binding, bind_eq_ok.mpr ⟨(),
    ensure_eq_ok.mpr rfl, bind_eq_ok.mpr ⟨_, hlimits, bind_eq_ok.mpr ⟨(), ensure_eq_ok.mpr hsorted,
    bind_eq_ok.mpr ⟨(), ensure_eq_ok.mpr hstored.cards, bind_eq_ok.mpr ⟨_, hcards, bind_eq_ok.mpr
    ⟨(), ensure_eq_ok.mpr ⟨hnonempty, hstored.room⟩, bind_eq_ok.mpr ⟨collected, hcollected,
    bind_eq_ok.mpr ⟨(), ensure_eq_ok.mpr hsound.retries, bind_eq_ok.mpr ⟨(),
    ensure_eq_ok.mpr hready, validateHistory_ok hstored hsound hreplays⟩⟩⟩⟩⟩⟩⟩⟩⟩⟩

/-- **One accepted call keeps the invariant**, if it is read back. -/
theorem kept_exec (haccepted : Accepted sha json r call) (hreadable : Readable r call)
    (h : Stored sha json r ∧ Sound r₀ r ∧ Replays sha json r) :
    Stored sha json (r.exec sha json call).1 ∧ Sound r₀ (r.exec sha json call).1 ∧
      Replays sha json (r.exec sha json call).1 := by
  obtain ⟨hstored, hsound, hreplays⟩ := h
  rcases exec_accepted haccepted with hsame | ⟨change, hfresh, hpasses, hrecordable, hnext⟩
  · rw [hsame]
    exact ⟨hstored, hsound, hreplays⟩
  · have hsound' := sound_exec (untorn_of_accepted haccepted) hsound
    rw [hnext] at hsound' ⊢
    exact ⟨stored_recorded hstored hsound hfresh hpasses hrecordable, hsound',
      replays_recorded hreplays hsound hpasses hrecordable (hreadable hfresh)⟩

/-! ## Reasons that are not read back -/

/-- A rollout that validates has the reason of its last call as it was fingerprinted. -/
theorem fingerprint_of_validate (hpasses : Passes sha json r call change)
    (hvalid : change.recorded.validate sha json = .ok ()) (hstarted : r.transitions ≠ [])
    {actor : PrincipalId} {reason : String} (hreason : call.payload = .reason actor reason) :
    transitionRequestFingerprint sha json call.action (.reason actor reason) =
      transitionRequestFingerprint sha json call.action (.reason actor (trim reason)) := by
  obtain ⟨first, rest, hsplit⟩ := exists_cons_of_ne_nil hstarted
  obtain ⟨-, -, -, htransitions⟩ := hpasses.frame
  obtain ⟨-, haction, -, -⟩ := hpasses.fields_eq
  have hgrown : change.recorded.transitions = first :: (rest ++ [change.event]) := by
    show change.rollout.transitions ++ [change.event] = _
    rw [htransitions, hsplit]
    rfl
  have hhistory : change.recorded.validateHistory sha json = .ok () := by
    simp only [validate, bind_eq_ok] at hvalid
    obtain ⟨-, -, -, -, -, -, -, -, -, -, -, -, -, -, -, -, -, -, -, -, hhistory⟩ := hvalid
    exact hhistory
  unfold validateHistory at hhistory
  rw [hgrown] at hhistory
  simp only [bind_eq_ok, foldlM_append, foldlM_cons, foldlM_nil] at hhistory
  obtain ⟨-, -, gathered, ⟨before, -, next, hevent, -⟩, -⟩ := hhistory
  simp only [replayEvent, bind_eq_ok] at hevent
  obtain ⟨-, -, replayed, hreplayed, -⟩ := hevent
  have hcall : change.event.action = call.action.asStr := haction
  rw [replayAction_of sha json hcall] at hreplayed
  cases hpasses with
  | recordScorecard | approve | markActivated => cases hreason
  | promote | pause | resume | reject | retry | markRolledBack =>
    simp only [Call.action, replayAs, replayPromote, validateSimpleHistoryEvent, replayReject,
      replayRetry, replayRollback, bind_eq_ok, ensure_eq_ok] at hreplayed
    obtain ⟨-, ⟨-, -, -, hfingerprint, -⟩, -⟩ := hreplayed
    cases hreason
    exact hfingerprint

end Pandora.Evolution.Replays
