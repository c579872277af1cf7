import Pandora.Evolution.Steps
import Pandora.Governance.RequestBinding

/-! # No stage is left on old evidence

A stage is left by a promotion that consumes a person's approval of the last scorecard of the stage,
and that scorecard has passed. The invariant `Sound` says of every state which scorecard an approval
may be bound to; `run_history` then finds the promotion of every stage that was left.

The operations change the rollout before its transition is accepted. A scorecard, an approval or
a promotion whose transition is refused leaves a state in which the wrong scorecard is the last
one, or moves on at the wrong time (`torn_scorecard_completes`); `Untorn` excludes exactly these
calls. -/

namespace Pandora.Evolution.Promotions

open Text Ids Lib.Checked Lib.Runs Evolution.Contracts Evolution.Rollout List Machine
open Governance.RequestBinding (quoted objectText)
open Rollout.Records (isSha256Digest_hex)
open EvolutionRollout EvolutionRolloutStage

variable (sha : Sha256) (json : PayloadWriter)

/-- The calls that decide about a promotion. -/
def decides : Call → Bool
  | .recordScorecard .. | .approve .. | .promote .. => true
  | _ => false

/-- A deciding call that passes its checks has a transition that is accepted. -/
def Untorn (r : EvolutionRollout) (call : Call) : Prop :=
  decides call → ∀ change, Fresh r call.transitionId → Passes sha json r call change →
    Recordable r call

/-- The last scorecard is one of the current stage and meets its limits. -/
structure Scored (r : EvolutionRollout) (card : EvolutionScorecard) : Prop where
  last : r.scorecards.getLast? = some card
  stage : card.stage = r.currentStage
  passed : ∃ limits ∈ r.limits, limits.stage = r.currentStage ∧ card.passes limits = true

/-- A person's approval of the promotion out of the current stage, on the given scorecard. -/
structure Approves (r : EvolutionRollout) (approval : EvolutionPromotionApproval)
    (card : EvolutionScorecard) : Prop where
  human : approval.authority = .human
  binding : approval.binding = r.binding
  stage : approval.fromStage = r.currentStage
  next : approval.toStage = r.currentStage.next
  digest : approval.scorecardDigest = card.scorecardDigest
  other : approval.approver ≠ card.evaluator
  unused : approval.approvalId ∉ r.consumedApprovalIds

/-- The call promotes `r` out of its stage and consumes the approval. -/
structure Promotes (r : EvolutionRollout) (call : Call) (approval : EvolutionPromotionApproval)
    (card : EvolutionScorecard) : Prop where
  pending : r.pendingApproval = some approval
  scored : Scored r card
  approves : Approves r approval card
  performed : ∃ id now reason, call = .promote id approval.approver now reason ∧
    approval.approvedAt ≤ now ∧ now ≤ approval.expiresAt
  accepted : (r.exec sha json call).2 = .ok true
  consumes : (r.exec sha json call).1.consumedApprovalIds =
    r.consumedApprovalIds ++ [approval.approvalId]

/-! ## The invariant -/

structure Sound (r₀ r : EvolutionRollout) : Prop where
  binding : r.binding = r₀.binding
  limits : r.limits = r₀.limits
  retries : r.retryCount ≤ maxEvolutionRolloutRetries
  consumed : r.consumedApprovalIds.Nodup
  finished : r.status = .complete → r.currentStage = .complete
  scored : r.status = .awaitingApproval → ∃ card, Scored r card
  pending : ∀ approval, r.pendingApproval = some approval → r.status = .awaitingApproval ∧
    (∀ card, Scored r card → Approves r approval card) ∧
    ∃ event, r.transitions.getLast? = some event ∧ approval.approvedAt ≤ event.occurredAt

variable {sha json} {r₀ r : EvolutionRollout} {call : Call} {change : Change}

/-- Nothing is pending unless the rollout waits for the promotion. -/
theorem Sound.idle (h : Sound r₀ r) (hstatus : r.status ≠ .awaitingApproval) :
    r.pendingApproval = none := by
  rcases hpending : r.pendingApproval with _ | approval
  · rfl
  · exact absurd (h.pending approval hpending).1 hstatus

variable {approval : EvolutionPromotionApproval}

theorem promoted_cases (hnext : approval.toStage = r.currentStage.next) :
    (∃ next, r.currentStage.next = some next ∧ (r.promoted approval).currentStage = next ∧
      (r.promoted approval).status = .running ∧ (r.promoted approval).retryCount = 0) ∨
    (r.currentStage.next = none ∧ (r.promoted approval).currentStage = r.currentStage ∧
      (r.promoted approval).status = .complete ∧
      (r.promoted approval).retryCount = r.retryCount) := by
  unfold promoted
  rw [hnext]
  rcases hstage : r.currentStage.next with _ | next
  · exact Or.inr ⟨rfl, rfl, rfl, rfl⟩
  · exact Or.inl ⟨next, rfl, rfl, rfl, rfl⟩

variable {next : EvolutionRollout}

theorem Sound.settled (h : Sound r₀ r)
    (hbinding : next.binding = r.binding) (hlimits : next.limits = r.limits)
    (hretries : next.retryCount ≤ maxEvolutionRolloutRetries)
    (hconsumed : next.consumedApprovalIds.Nodup) (hfinished : next.status = .complete →
      next.currentStage = .complete)
    (hstatus : next.status ≠ .awaitingApproval) (hpending : next.pendingApproval = none) :
    Sound r₀ next where
  binding := hbinding.trans h.binding
  limits := hlimits.trans h.limits
  retries := hretries
  consumed := hconsumed
  finished := hfinished
  scored := fun hawaiting => absurd hawaiting hstatus
  pending := by
    intro approval hsome
    rw [hpending] at hsome
    cases hsome

/-- Taking the pending approval keeps the consumed identifiers apart. -/
theorem Sound.nodup_consumePending (h : Sound r₀ r) (status : EvolutionRolloutStatus) :
    (r.consumePending status).consumedApprovalIds.Nodup := by
  unfold consumePending
  rcases hpending : r.pendingApproval with _ | approval
  · simpa using h.consumed
  · obtain ⟨hawaiting, happroves, -⟩ := h.pending approval hpending
    obtain ⟨card, hscored⟩ := h.scored hawaiting
    show (r.consumedApprovalIds ++ [approval.approvalId]).Nodup
    rw [← concat_eq_append]
    exact h.consumed.concat (happroves card hscored).unused

/-- What a call leaves behind when it passes its checks. -/
def Leaves (r : EvolutionRollout) (call : Call) (change : Change) (next : EvolutionRollout) :
    Prop :=
  (Recordable r call ∧ next = change.recorded) ∨ (decides call = false ∧ next = change.rollout)

theorem sound_leaves (h : Sound r₀ r) (hpasses : Passes sha json r call change)
    (hleaves : Leaves r call change next) : Sound r₀ next := by
  cases hpasses with
  | @recordScorecard card id limits hrunning hstage hroom hlimits =>
    obtain ⟨-, rfl⟩ | ⟨hdecides, -⟩ := hleaves
    · have hidle : r.pendingApproval = none := h.idle (by rw [hrunning]; decide)
      refine ⟨h.binding, h.limits, h.retries, h.consumed, ?_, ?_, ?_⟩
      · intro hcomplete
        revert hcomplete
        show scorecardStatus (card.passes limits) = .complete → _
        rcases card.passes limits <;> nofun
      · intro hawaiting
        have hpassed : card.passes limits = true := by
          revert hawaiting
          show scorecardStatus (card.passes limits) = .awaitingApproval → _
          rcases card.passes limits
          · nofun
          · exact fun _ => rfl
        refine ⟨card, List.getLast?_concat, hstage, limits, mem_of_find?_eq_some hlimits, ?_,
          hpassed⟩
        have hfound := List.find?_some hlimits
        rwa [decide_eq_true_eq] at hfound
      · intro approval hpending
        have hnone : r.pendingApproval = some approval := hpending
        rw [hidle] at hnone
        cases hnone
    · cases hdecides
  | @approve approval id now card hawaiting hfree hlast hhuman hother hstage hnext hbinding hdigest
      hrecorded happroved hunexpired hunused =>
    obtain ⟨-, rfl⟩ | ⟨hdecides, -⟩ := hleaves
    · obtain ⟨scored, hscored⟩ := h.scored hawaiting
      have hcards : (r.approveChange sha json approval id now).recorded.scorecards =
          r.scorecards := append_nil _
      refine ⟨h.binding, h.limits, h.retries, h.consumed, h.finished, fun _ => ?_, ?_⟩
      · exact ⟨scored, by rw [hcards]; exact hscored.last, hscored.stage, hscored.passed⟩
      · intro given hpending
        have hgiven : given = approval := (Option.some.inj hpending).symm
        subst hgiven
        refine ⟨hawaiting, ?_, _, List.getLast?_concat, happroved⟩
        intro other hscored'
        have hsame : other = card := by
          have hlast' := hscored'.last
          rw [hcards, hlast] at hlast'
          exact (Option.some.inj hlast').symm
        subst hsame
        exact ⟨hhuman, hbinding, hstage, hnext, hdigest, hother, hunused⟩
    · cases hdecides
  | @promote approval id now reason hawaiting hpending hunexpired hstage =>
    obtain ⟨-, rfl⟩ | ⟨hdecides, -⟩ := hleaves
    · obtain ⟨-, happroves, -⟩ := h.pending approval hpending
      obtain ⟨card, hscored⟩ := h.scored hawaiting
      have hcard := happroves card hscored
      obtain ⟨hbinding, hlimits, -, -, hnone, hconsumed⟩ := promoted_frame (r := r) approval
      have hnodup : (r.promoted approval).consumedApprovalIds.Nodup := by
        rw [hconsumed, ← concat_eq_append]
        exact h.consumed.concat hcard.unused
      rcases promoted_cases hcard.next with ⟨next, -, -, hstatus, hretry⟩ | ⟨hend, hsame, hstatus,
        hretry⟩
      · refine h.settled hbinding hlimits ?_ hnodup ?_ ?_ hnone
        · show (r.promoted approval).retryCount ≤ _
          omega
        · intro hcomplete
          have hcomplete' : (r.promoted approval).status = .complete := hcomplete
          rw [hstatus] at hcomplete'
          cases hcomplete'
        · show (r.promoted approval).status ≠ _
          rw [hstatus]
          decide
      · refine h.settled hbinding hlimits ?_ hnodup ?_ ?_ hnone
        · show (r.promoted approval).retryCount ≤ _
          rw [hretry]
          exact h.retries
        · intro _
          show (r.promoted approval).currentStage = _
          rw [hsame]
          exact eq_complete_of_next hend
        · show (r.promoted approval).status ≠ _
          rw [hstatus]
          decide
    · cases hdecides
  | pause hstatus | resume hstatus =>
    have hidle : r.pendingApproval = none := h.idle (by rw [hstatus]; decide)
    obtain ⟨-, rfl⟩ | ⟨-, rfl⟩ := hleaves
    all_goals exact h.settled rfl rfl h.retries h.consumed nofun nofun hidle
  | reject hawaiting =>
    have hnodup := h.nodup_consumePending .rejected
    obtain ⟨-, rfl⟩ | ⟨-, rfl⟩ := hleaves
    all_goals exact h.settled rfl rfl h.retries hnodup nofun nofun rfl
  | retry hstopped hroom =>
    obtain ⟨-, rfl⟩ | ⟨-, rfl⟩ := hleaves
    all_goals exact h.settled rfl rfl hroom h.consumed nofun nofun rfl
  | markActivated hstage hstatus =>
    have hidle : r.pendingApproval = none := h.idle (by rw [hstatus]; decide)
    have hawaits : r.status ≠ .awaitingApproval := by rw [hstatus]; decide
    obtain ⟨-, rfl⟩ | ⟨-, rfl⟩ := hleaves
    all_goals exact h.settled rfl rfl h.retries h.consumed (fun _ => hstage) hawaits hidle
  | markRolledBack hlive =>
    have hnodup := h.nodup_consumePending .rolledBack
    obtain ⟨-, rfl⟩ | ⟨-, rfl⟩ := hleaves
    all_goals exact h.settled rfl rfl h.retries hnodup nofun nofun rfl

theorem exec_untorn (hC : Untorn sha json r call) :
    (r.exec sha json call).1 = r ∨ ∃ change, Passes sha json r call change ∧
      Leaves r call change (r.exec sha json call).1 ∧
      (Recordable r call → (r.exec sha json call).2 = .ok true) := by
  rcases exec_cases sha json r call with ⟨hsame, -⟩ | ⟨change, -, hpasses, hrecordable, hexec⟩ |
    ⟨change, e, hfresh, hpasses, hrefused, hexec⟩
  · exact Or.inl hsame
  · exact Or.inr ⟨change, hpasses, Or.inl ⟨hrecordable, by rw [hexec]⟩, fun _ => by rw [hexec]⟩
  · refine Or.inr ⟨change, hpasses, Or.inr ⟨?_, by rw [hexec]⟩, fun h => absurd h hrefused⟩
    rcases hdecides : decides call with _ | _
    · rfl
    · exact absurd (hC hdecides change hfresh hpasses) hrefused

theorem sound_exec (hC : Untorn sha json r call) (h : Sound r₀ r) :
    Sound r₀ (r.exec sha json call).1 := by
  rcases exec_untorn hC with hsame | ⟨change, hpasses, hleaves, -⟩
  · rw [hsame]
    exact h
  · exact sound_leaves h hpasses hleaves

theorem sound_run (calls : List Call) (hC : (machine sha json).Along (Untorn sha json) r calls)
    (h : Sound r₀ r) : Sound r₀ ((machine sha json).run r calls) :=
  (machine sha json).run_invariant_along (fun _ _ hC h => sound_exec hC h) calls hC h

/-! ## Stages and retries -/

/-- The number of stages the rollout has left. -/
def stagesLeft (r : EvolutionRollout) : ℕ :=
  if r.status = .complete then 4 else r.currentStage.index

theorem stagesLeft_of_ne (h : r.status ≠ .complete) : stagesLeft r = r.currentStage.index :=
  if_neg h

/-- What a call does to the stage and to the number of retries. -/
structure Keeps (r next : EvolutionRollout) : Prop where
  stage : next.currentStage = r.currentStage
  retries : next.retryCount = r.retryCount
  left : stagesLeft next ≤ stagesLeft r

theorem Keeps.of_status (hstage : next.currentStage = r.currentStage)
    (hretries : next.retryCount = r.retryCount) (hstatus : next.status ≠ .complete) :
    Keeps r next := by
  refine ⟨hstage, hretries, ?_⟩
  rw [stagesLeft_of_ne hstatus, hstage]
  unfold stagesLeft
  split_ifs
  · rcases r.currentStage <;> decide
  · exact le_refl _

/-- A call moves to the next stage, or ends the last one. -/
structure Moves (r next : EvolutionRollout) : Prop where
  left : stagesLeft next = r.currentStage.index + 1
  stage : (r.currentStage.next = some next.currentStage ∧ next.retryCount = 0) ∨
    (next.currentStage = r.currentStage ∧ next.retryCount = r.retryCount)

/-- A retry stays in the stage. -/
structure Retries (r next : EvolutionRollout) : Prop where
  stage : next.currentStage = r.currentStage
  retries : next.retryCount = r.retryCount + 1
  left : stagesLeft next ≤ stagesLeft r

def isRetry : Call → Bool
  | .retry .. => true
  | _ => false

theorem scorecardStatus_ne_complete (passed : Bool) :
    scorecardStatus passed ≠ .complete := by
  cases passed <;> decide

theorem moves_promoted (hnext : approval.toStage = r.currentStage.next)
    (hstage : next.currentStage = (r.promoted approval).currentStage)
    (hstatus : next.status = (r.promoted approval).status)
    (hretries : next.retryCount = (r.promoted approval).retryCount) : Moves r next := by
  rcases promoted_cases hnext with ⟨stage, hmove, hpromoted, hrunning, hzero⟩ | ⟨hend, hsame,
    hcomplete, hkept⟩
  · refine ⟨?_, Or.inl ⟨?_, ?_⟩⟩
    · rw [stagesLeft_of_ne (by rw [hstatus, hrunning]; decide), hstage, hpromoted]
      exact index_next hmove
    · rw [hstage, hpromoted]
      exact hmove
    · rw [hretries, hzero]
  · refine ⟨?_, Or.inr ⟨?_, ?_⟩⟩
    · unfold stagesLeft
      rw [hstatus, hcomplete, if_pos rfl, eq_complete_of_next hend]
      rfl
    · rw [hstage, hsame]
    · rw [hretries, hkept]

/-- What a call that passes its checks does to the stage and to the retries. -/
theorem leaves_cases (h : Sound r₀ r) (hpasses : Passes sha json r call change)
    (hleaves : Leaves r call change next) :
    (isRetry call = false ∧ Keeps r next) ∨ (isRetry call = true ∧ Retries r next) ∨
      (isRetry call = false ∧ Moves r next ∧ ∃ approval id now reason,
        call = .promote id approval.approver now reason ∧ Recordable r call ∧
        r.pendingApproval = some approval ∧ now ≤ approval.expiresAt ∧
        next.consumedApprovalIds = r.consumedApprovalIds ++ [approval.approvalId]) := by
  cases hpasses with
  | @recordScorecard card id limits =>
    have hne := scorecardStatus_ne_complete (card.passes limits)
    obtain ⟨-, rfl⟩ | ⟨hdecides, -⟩ := hleaves
    · exact Or.inl ⟨rfl, .of_status rfl rfl hne⟩
    · cases hdecides
  | approve hawaiting =>
    have hne : r.status ≠ .complete := by rw [hawaiting]; decide
    obtain ⟨-, rfl⟩ | ⟨hdecides, -⟩ := hleaves
    · exact Or.inl ⟨rfl, .of_status rfl rfl hne⟩
    · cases hdecides
  | @promote approval id now reason hawaiting hpending hunexpired hstage =>
    obtain ⟨hrecordable, rfl⟩ | ⟨hdecides, -⟩ := hleaves
    · obtain ⟨-, happroves, -⟩ := h.pending approval hpending
      obtain ⟨card, hscored⟩ := h.scored hawaiting
      have hmoves : Moves r (r.promoteChange sha json approval id approval.approver now
          reason).recorded := moves_promoted (happroves card hscored).next rfl rfl rfl
      have hconsumed := (promoted_frame (r := r) approval).2.2.2.2.2
      exact Or.inr (Or.inr ⟨rfl, hmoves, approval, id, now, reason, rfl, hrecordable, hpending,
        hunexpired, hconsumed⟩)
    · cases hdecides
  | pause | resume | reject | markRolledBack =>
    obtain ⟨-, rfl⟩ | ⟨-, rfl⟩ := hleaves
    all_goals exact Or.inl ⟨rfl, .of_status rfl rfl nofun⟩
  | retry =>
    have hrunning : Keeps r { r with status := .running } := .of_status rfl rfl nofun
    have hkeeps : stagesLeft { r with
        status := .running, pendingApproval := none, retryCount := r.retryCount + 1 } ≤
        stagesLeft r := hrunning.left
    obtain ⟨-, rfl⟩ | ⟨-, rfl⟩ := hleaves
    all_goals exact Or.inr (Or.inl ⟨rfl, rfl, rfl, hkeeps⟩)
  | markActivated hstage hstatus =>
    obtain ⟨-, rfl⟩ | ⟨-, rfl⟩ := hleaves
    all_goals exact Or.inl ⟨rfl, rfl, rfl, le_refl _⟩

theorem exec_moves (hC : Untorn sha json r call) (h : Sound r₀ r) :
    (((r.exec sha json call).1 = r ∨ isRetry call = false) ∧ Keeps r (r.exec sha json call).1) ∨
      (isRetry call = true ∧ Retries r (r.exec sha json call).1) ∨
      (isRetry call = false ∧ Moves r (r.exec sha json call).1 ∧
        ∃ approval card, Promotes sha json r call approval card) := by
  rcases exec_untorn hC with hsame | ⟨change, hpasses, hleaves, haccepted⟩
  · rw [hsame]
    exact Or.inl ⟨Or.inl rfl, rfl, rfl, le_refl _⟩
  · rcases leaves_cases h hpasses hleaves with ⟨hretry, hkeeps⟩ | hretries |
      ⟨hretry, hmoves, approval, id, now, reason, rfl, hrecordable, hpending, hunexpired, hconsumed⟩
    · exact Or.inl ⟨Or.inr hretry, hkeeps⟩
    · exact Or.inr (Or.inl hretries)
    · obtain ⟨hawaiting, happroves, event, hlast, happroved⟩ := h.pending approval hpending
      obtain ⟨card, hscored⟩ := h.scored hawaiting
      have hordered : event.occurredAt ≤ now := hrecordable.ordered event (by rw [hlast]; rfl)
      exact Or.inr (Or.inr ⟨hretry, hmoves, approval, card, hpending, hscored,
        happroves card hscored, ⟨id, now, reason, rfl, le_trans happroved hordered, hunexpired⟩,
        haccepted hrecordable, hconsumed⟩)

/-! ## Consumed approvals -/

theorem passes_consumed (hpasses : Passes sha json r call change) :
    change.rollout.consumedApprovalIds = r.consumedApprovalIds ∨
      ∃ id, change.rollout.consumedApprovalIds = r.consumedApprovalIds ++ [id] := by
  have htake : ∀ status, (r.consumePending status).consumedApprovalIds = r.consumedApprovalIds ∨
      ∃ id, (r.consumePending status).consumedApprovalIds = r.consumedApprovalIds ++ [id] := by
    intro status
    unfold consumePending
    rcases r.pendingApproval with _ | approval
    · exact Or.inl (append_nil _)
    · exact Or.inr ⟨approval.approvalId, rfl⟩
  cases hpasses with
  | @promote approval => exact Or.inr ⟨_, (promoted_frame (r := r) approval).2.2.2.2.2⟩
  | reject => exact htake .rejected
  | markRolledBack => exact htake .rolledBack
  | _ => exact Or.inl rfl

/-- A call consumes at most one identifier, at the end of the list. -/
theorem exec_consumed (sha : Sha256) (json : PayloadWriter) (r : EvolutionRollout) (call : Call) :
    (r.exec sha json call).1.consumedApprovalIds = r.consumedApprovalIds ∨
      ∃ id, (r.exec sha json call).1.consumedApprovalIds = r.consumedApprovalIds ++ [id] := by
  rcases exec_cases sha json r call with ⟨hsame, -⟩ | ⟨change, -, hpasses, -, hexec⟩ |
    ⟨change, e, -, hpasses, -, hexec⟩
  · rw [hsame]
    exact Or.inl rfl
  · rw [hexec]
    exact passes_consumed hpasses
  · rw [hexec]
    exact passes_consumed hpasses

theorem subset_exec (r : EvolutionRollout) (call : Call) :
    r.consumedApprovalIds ⊆ (r.exec sha json call).1.consumedApprovalIds := by
  rcases exec_consumed sha json r call with hsame | ⟨id, hmore⟩
  · rw [hsame]
    exact List.Subset.refl _
  · rw [hmore]
    exact subset_append_left _ _

theorem subset_run (r : EvolutionRollout) (calls : List Call) :
    r.consumedApprovalIds ⊆ ((machine sha json).run r calls).consumedApprovalIds :=
  (machine sha json).run_relates (R := fun a b => a.consumedApprovalIds ⊆ b.consumedApprovalIds)
    (fun _ => List.Subset.refl _) (fun _ _ _ => List.Subset.trans) subset_exec r calls

theorem exec_rolledBack (h : r.status = .rolledBack) (call : Call) :
    (r.exec sha json call).1 = r := by
  have hstuck : ∀ change, ¬ Passes sha json r call change := by
    intro change hpasses
    cases hpasses with
    | recordScorecard hstatus => rw [h] at hstatus; cases hstatus
    | approve hstatus => rw [h] at hstatus; cases hstatus
    | promote hstatus => rw [h] at hstatus; cases hstatus
    | pause hstatus => rw [h] at hstatus; cases hstatus
    | resume hstatus => rw [h] at hstatus; cases hstatus
    | reject hstatus => rw [h] at hstatus; cases hstatus
    | retry hstatus => rw [h] at hstatus; rcases hstatus with hstatus | hstatus <;> cases hstatus
    | markActivated _ hstatus => rw [h] at hstatus; cases hstatus
    | markRolledBack hstatus => exact hstatus h
  rcases exec_cases sha json r call with ⟨hsame, -⟩ | ⟨change, -, hpasses, -, -⟩ |
    ⟨change, e, -, hpasses, -, -⟩
  · exact hsame
  · exact absurd hpasses (hstuck change)
  · exact absurd hpasses (hstuck change)

/-! ## Runs -/

variable {id : RequestDigest}

theorem new_eq_ok {binding : EvolutionRolloutBinding} {limits : List EvolutionStageLimits}
    {actor : PrincipalId} {now : ℕ}
    (hnew : new sha json binding limits id actor now = .ok r) :
    r.status = .running ∧ r.currentStage = .canary ∧ r.scorecards = [] ∧
      r.pendingApproval = none ∧ r.consumedApprovalIds = [] ∧ r.retryCount = 0 := by
  simp only [new, bind_eq_ok, pure_eq_ok] at hnew
  obtain ⟨-, -, -, -, initial, -, rfl⟩ := hnew
  exact ⟨rfl, rfl, rfl, rfl, rfl, rfl⟩

theorem sound_new {binding : EvolutionRolloutBinding} {limits : List EvolutionStageLimits}
    {actor : PrincipalId} {now : ℕ}
    (hnew : new sha json binding limits id actor now = .ok r) : Sound r r := by
  obtain ⟨hstatus, -, -, hpending, hconsumed, hretries⟩ := new_eq_ok hnew
  refine ⟨rfl, rfl, ?_, ?_, ?_, ?_, ?_⟩
  all_goals simp [hstatus, hpending, hconsumed, hretries]

/-- The call retries the stage. -/
def retried (sha : Sha256) (json : PayloadWriter) (r : EvolutionRollout) (call : Call) : ℕ :=
  if isRetry call = true ∧ (r.exec sha json call).1 ≠ r then 1 else 0

/-- The number of retries in a stage, along a run. -/
def retriesIn (sha : Sha256) (json : PayloadWriter) (stage : EvolutionRolloutStage) :
    EvolutionRollout → List Call → ℕ
  | _, [] => 0
  | r, call :: calls =>
    (if r.currentStage = stage then retried sha json r call else 0) +
      retriesIn sha json stage (r.exec sha json call).1 calls

theorem retried_step (hC : Untorn sha json r call) (h : Sound r₀ r) :
    ((r.exec sha json call).1.currentStage = r.currentStage ∧
      (r.exec sha json call).1.retryCount = r.retryCount + retried sha json r call) ∨
    (r.currentStage.next = some (r.exec sha json call).1.currentStage ∧
      (r.exec sha json call).1.retryCount = 0 ∧ retried sha json r call = 0) := by
  unfold retried
  rcases exec_moves hC h with ⟨hnot, hkeeps⟩ | ⟨hretry, hretries⟩ | ⟨hretry, hmoves, -⟩
  · have hzero : ¬ (isRetry call = true ∧ (r.exec sha json call).1 ≠ r) := by
      rintro ⟨hretry, hchanged⟩
      rcases hnot with hsame | hnot
      · exact hchanged hsame
      · rw [hretry] at hnot
        cases hnot
    rw [if_neg hzero]
    exact Or.inl ⟨hkeeps.stage, hkeeps.retries⟩
  · have hchanged : (r.exec sha json call).1 ≠ r := by
      intro hsame
      have hcount := hretries.retries
      rw [hsame] at hcount
      omega
    rw [if_pos ⟨hretry, hchanged⟩]
    exact Or.inl ⟨hretries.stage, hretries.retries⟩
  · rw [if_neg (by rw [hretry]; nofun)]
    rcases hmoves.stage with ⟨hnext, hzero⟩ | ⟨hsame, hkept⟩
    · exact Or.inr ⟨hnext, hzero, rfl⟩
    · exact Or.inl ⟨hsame, hkept⟩

/-- The retries still to come in a stage, beside those the state has counted. -/
theorem retriesIn_le (stage : EvolutionRolloutStage) : ∀ (calls : List Call) {r : EvolutionRollout},
    (machine sha json).Along (Untorn sha json) r calls → Sound r₀ r →
      (stage.index < r.currentStage.index → retriesIn sha json stage r calls = 0) ∧
      (r.currentStage = stage →
        retriesIn sha json stage r calls + r.retryCount ≤ maxEvolutionRolloutRetries) ∧
      retriesIn sha json stage r calls ≤ maxEvolutionRolloutRetries
  | [], r, _, h => ⟨fun _ => rfl, fun _ => by simpa [retriesIn] using h.retries, Nat.zero_le _⟩
  | call :: calls, r, hC, h => by
    obtain ⟨hpast, hhere, hall⟩ := retriesIn_le stage calls hC.2 (sound_exec hC.1 h)
    have hstep := retried_step hC.1 h
    generalize hnext : (r.exec sha json call).1 = next at hstep
    change stage.index < (r.exec sha json call).1.currentStage.index →
      retriesIn sha json stage (r.exec sha json call).1 calls = 0 at hpast
    change (r.exec sha json call).1.currentStage = stage →
      retriesIn sha json stage (r.exec sha json call).1 calls +
        (r.exec sha json call).1.retryCount ≤ _ at hhere
    change retriesIn sha json stage (r.exec sha json call).1 calls ≤ _ at hall
    rw [hnext] at hpast hhere hall
    unfold retriesIn
    rw [hnext]
    rcases hstep with ⟨hsame, hcount⟩ | ⟨hmove, hcount, hnone⟩
    · rw [hsame] at hpast hhere
      by_cases hstage : r.currentStage = stage
      · have hbound := hhere hstage
        subst hstage
        rw [if_pos rfl]
        refine ⟨fun hlt => absurd hlt (lt_irrefl _), fun _ => ?_, ?_⟩ <;> omega
      · rw [if_neg hstage, Nat.zero_add]
        exact ⟨hpast, fun heq => absurd heq hstage, hall⟩
    · have hindex := index_next hmove
      rw [hnone, ite_self, Nat.zero_add]
      refine ⟨fun hlt => hpast (by omega), fun heq => ?_, hall⟩
      subst heq
      have hzero := hpast (by omega)
      have hretries := h.retries
      omega

/-- The state the call at a position is given in. -/
def stateAt (sha : Sha256) (json : PayloadWriter) (r₀ : EvolutionRollout) (calls : List Call)
    (k : ℕ) : EvolutionRollout := (machine sha json).run r₀ (calls.take k)

/-- The promotion out of a stage, at a position of the run. -/
structure PromotedAt (sha : Sha256) (json : PayloadWriter) (r₀ : EvolutionRollout)
    (calls : List Call) (stage : EvolutionRolloutStage) (k : ℕ)
    (approval : EvolutionPromotionApproval) : Prop where
  stage : (stateAt sha json r₀ calls k).currentStage = stage
  promotes : ∃ call card, calls[k]? = some call ∧
    Promotes sha json (stateAt sha json r₀ calls k) call approval card
  binding : approval.binding = r₀.binding
  limits : (stateAt sha json r₀ calls k).limits = r₀.limits

/-- The call at a position consumes the identifier. -/
def ConsumedAt (sha : Sha256) (json : PayloadWriter) (r₀ : EvolutionRollout) (calls : List Call)
    (id : RequestDigest) (k : ℕ) : Prop :=
  ∃ call, calls[k]? = some call ∧
    ((stateAt sha json r₀ calls k).exec sha json call).1.consumedApprovalIds =
      (stateAt sha json r₀ calls k).consumedApprovalIds ++ [id]

variable {calls : List Call} {k : ℕ}

theorem stateAt_succ (hget : calls[k]? = some call) :
    stateAt sha json r₀ calls (k + 1) = ((stateAt sha json r₀ calls k).exec sha json call).1 := by
  unfold stateAt
  rw [take_add_one, hget, Option.toList_some, run_snoc]
  rfl

theorem subset_stateAt {l : ℕ} (hkl : k ≤ l) :
    (stateAt sha json r₀ calls k).consumedApprovalIds ⊆
      (stateAt sha json r₀ calls l).consumedApprovalIds := by
  have hsplit : calls.take l = calls.take k ++ (calls.take l).drop k := by
    have htake : (calls.take l).take k = calls.take k := by
      rw [take_take, Nat.min_eq_left hkl]
    rw [← htake, take_append_drop]
  unfold stateAt
  rw [hsplit, run_append]
  exact subset_run _ _

theorem sound_stateAt
    (hC : (machine sha json).Along (Untorn sha json) r₀ calls) (h : Sound r₀ r₀) (k : ℕ) :
    Sound r₀ (stateAt sha json r₀ calls k) := by
  have hsplit := take_append_drop k calls
  rw [← hsplit, along_append] at hC
  exact sound_run _ hC.1 h

theorem mem_of_consumedAt {l : ℕ} (h : ConsumedAt sha json r₀ calls id k) (hkl : k < l) :
    id ∈ (stateAt sha json r₀ calls l).consumedApprovalIds := by
  obtain ⟨call, hget, hconsumed⟩ := h
  refine subset_stateAt hkl ?_
  rw [stateAt_succ hget, hconsumed]
  exact mem_append_right _ mem_cons_self

theorem consumedAt_not_mem
    (hC : (machine sha json).Along (Untorn sha json) r₀ calls) (hsound : Sound r₀ r₀)
    (h : ConsumedAt sha json r₀ calls id k) :
    id ∉ (stateAt sha json r₀ calls k).consumedApprovalIds := by
  obtain ⟨call, hget, hconsumed⟩ := h
  have hnodup := (sound_stateAt hC hsound (k + 1)).consumed
  rw [stateAt_succ hget, hconsumed] at hnodup
  intro hmem
  exact (nodup_append.mp hnodup).2.2 id hmem id mem_cons_self rfl

theorem consumedAt_unique {l : ℕ}
    (hC : (machine sha json).Along (Untorn sha json) r₀ calls) (hsound : Sound r₀ r₀)
    (hk : ConsumedAt sha json r₀ calls id k) (hl : ConsumedAt sha json r₀ calls id l) : k = l := by
  rcases Nat.lt_trichotomy k l with hlt | heq | hgt
  · exact absurd (mem_of_consumedAt hk hlt) (consumedAt_not_mem hC hsound hl)
  · exact heq
  · exact absurd (mem_of_consumedAt hl hgt) (consumedAt_not_mem hC hsound hk)

theorem PromotedAt.consumedAt {stage : EvolutionRolloutStage}
    (h : PromotedAt sha json r₀ calls stage k approval) :
    ConsumedAt sha json r₀ calls approval.approvalId k := by
  obtain ⟨call, card, hget, hpromotes⟩ := h.promotes
  exact ⟨call, hget, hpromotes.consumes⟩

theorem promotedAt_of_left
    (hC : (machine sha json).Along (Untorn sha json) r₀ calls) (hsound : Sound r₀ r₀)
    (hstart : stagesLeft r₀ = 0) {stage : EvolutionRolloutStage} : ∀ k ≤ calls.length,
    stage.index < stagesLeft (stateAt sha json r₀ calls k) →
      ∃ l approval, PromotedAt sha json r₀ calls stage l approval
  | 0, _, hlt => by
    change stage.index < stagesLeft r₀ at hlt
    omega
  | k + 1, hk, hlt => by
    obtain ⟨call, hget⟩ : ∃ call, calls[k]? = some call :=
      ⟨calls[k], List.getElem?_eq_getElem hk⟩
    have hsplit := take_append_drop k calls
    have hdrop : calls.drop k = call :: calls.drop (k + 1) := by
      rw [drop_eq_getElem_cons hk]
      rw [List.getElem?_eq_getElem hk, Option.some.injEq] at hget
      rw [hget]
    have hcall : Untorn sha json (stateAt sha json r₀ calls k) call := by
      rw [← hsplit, along_append, hdrop] at hC
      exact hC.2.1
    have hstate := sound_stateAt hC hsound k
    have ih : stage.index < stagesLeft (stateAt sha json r₀ calls k) →
        ∃ l approval, PromotedAt sha json r₀ calls stage l approval :=
      promotedAt_of_left hC hsound hstart k (Nat.le_of_succ_le hk)
    rw [stateAt_succ hget] at hlt
    rcases exec_moves hcall hstate with ⟨-, hkeeps⟩ | ⟨-, hretries⟩ | ⟨-, hmoves, approval, card,
      hpromotes⟩
    · exact ih (lt_of_lt_of_le hlt hkeeps.left)
    · exact ih (lt_of_lt_of_le hlt hretries.left)
    · rw [hmoves.left] at hlt
      by_cases hhere : (stateAt sha json r₀ calls k).currentStage = stage
      · exact ⟨k, approval, hhere, ⟨call, card, hget, hpromotes⟩,
          hpromotes.approves.binding.trans hstate.binding, hstate.limits⟩
      · have hne : stage.index ≠ (stateAt sha json r₀ calls k).currentStage.index :=
          fun heq => hhere (index_inj heq).symm
        refine ih ?_
        have hawaiting := (hstate.pending approval hpromotes.pending).1
        rw [stagesLeft_of_ne (by rw [hawaiting]; decide)]
        omega

/-! ## The main result -/

/-- What a staged rollout promises about a run. -/
structure SafeRun (sha : Sha256) (json : PayloadWriter) (r₀ : EvolutionRollout)
    (calls : List Call) : Prop where
  oneStep : (machine sha json).Along (fun r call =>
    (r.exec sha json call).1.currentStage = r.currentStage ∨
      r.currentStage.next = some (r.exec sha json call).1.currentStage) r₀ calls
  promoted : ((machine sha json).run r₀ calls).status = .complete →
    ∃ (at' : EvolutionRolloutStage → ℕ) (approval : EvolutionRolloutStage →
      EvolutionPromotionApproval), (∀ stage,
        PromotedAt sha json r₀ calls stage (at' stage) (approval stage)) ∧
      Function.Injective fun stage => (approval stage).approvalId
  consumedOnce : ∀ id k l, ConsumedAt sha json r₀ calls id k →
    ConsumedAt sha json r₀ calls id l → k = l
  consumedOnly : (machine sha json).Along (fun r call =>
    (r.exec sha json call).1.consumedApprovalIds = r.consumedApprovalIds ∨
      ∃ id, (r.exec sha json call).1.consumedApprovalIds = r.consumedApprovalIds ++ [id]) r₀ calls
  retries : ∀ stage, retriesIn sha json stage r₀ calls ≤ 3
  final : ((machine sha json).run r₀ calls).status = .rolledBack → ∀ more,
    (machine sha json).run ((machine sha json).run r₀ calls) more = (machine sha json).run r₀ calls

/-- **Staged rollout safety.** -/
theorem staged_rollout_safety (sha : Sha256) (json : PayloadWriter)
    (binding : EvolutionRolloutBinding) (limits : List EvolutionStageLimits) (id : RequestDigest)
    (actor : PrincipalId) (now : ℕ) (r₀ : EvolutionRollout) (calls : List Call)
    (hnew : EvolutionRollout.new sha json binding limits id actor now = .ok r₀)
    (hC : (machine sha json).Along (Untorn sha json) r₀ calls) : SafeRun sha json r₀ calls where
  oneStep := by
    refine (machine sha json).along_of_invariant (P := Sound r₀)
      (fun _ _ hC h => sound_exec hC h) (fun r call hC h => ?_) calls hC (sound_new hnew)
    rcases retried_step hC h with ⟨hsame, -⟩ | ⟨hmove, -⟩
    · exact Or.inl hsame
    · exact Or.inr hmove
  promoted := by
    intro hcomplete
    obtain ⟨hstatus, hcanary, -⟩ := new_eq_ok hnew
    have hstart : stagesLeft r₀ = 0 := by
      rw [stagesLeft_of_ne (by rw [hstatus]; decide), hcanary]
      rfl
    have hend : stateAt sha json r₀ calls calls.length = (machine sha json).run r₀ calls := by
      unfold stateAt
      rw [take_length]
    have hleft : ∀ stage : EvolutionRolloutStage, ∃ k approval,
        PromotedAt sha json r₀ calls stage k approval := by
      intro stage
      refine promotedAt_of_left hC (sound_new hnew) hstart calls.length (le_refl _) ?_
      rw [hend]
      unfold stagesLeft
      rw [if_pos hcomplete]
      cases stage <;> decide
    choose k approval hpromoted using hleft
    refine ⟨k, approval, hpromoted, fun a b hab => ?_⟩
    have ha := (hpromoted a).consumedAt
    have hb := (hpromoted b).consumedAt
    rw [show (approval a).approvalId = (approval b).approvalId from hab] at ha
    have hk := consumedAt_unique hC (sound_new hnew) ha hb
    rw [← (hpromoted a).stage, ← (hpromoted b).stage, hk]
  consumedOnce _ _ _ := consumedAt_unique hC (sound_new hnew)
  consumedOnly := (machine sha json).along_of_forall (exec_consumed sha json) calls r₀
  retries stage := (retriesIn_le stage calls hC (sound_new hnew)).2.2
  final hback more := by
    refine (machine sha json).run_invariant
      (P := fun r => r = (machine sha json).run r₀ calls) (fun r call h => ?_) more rfl
    rw [h]
    exact exec_rolledBack hback call

/-! ## A rollout -/

/-- The JSON text of an array. -/
def arrayText (elements : List String) : String := "[" ++ ",".intercalate elements ++ "]"

def stageText : EvolutionRolloutStage → String
  | .canary => quoted "canary"
  | .limited => quoted "limited"
  | .expanded => quoted "expanded"
  | .complete => quoted "complete"

def channelText : EvolutionReleaseChannel → String
  | .beta => quoted "beta"
  | .releaseCandidate => quoted "release-candidate"
  | .stable => quoted "stable"

def authorityText : EvolutionApprovalAuthority → String
  | .human => quoted "human"
  | .automatedEvaluator => quoted "automated_evaluator"

def bindingText (binding : EvolutionRolloutBinding) : String :=
  objectText [("exact_commit", quoted binding.exactCommit),
    ("artifact_digest", quoted binding.artifactDigest.text),
    ("channel", channelText binding.channel),
    ("evidence_digest", quoted binding.evidenceDigest.text)]

def limitsText (limits : EvolutionStageLimits) : String :=
  objectText [("stage", stageText limits.stage),
    ("max_cost_micros", toString limits.maxCostMicros.toNat),
    ("max_duration_seconds", toString limits.maxDurationSeconds.toNat),
    ("max_failure_count", toString limits.maxFailureCount.toNat),
    ("min_quality_score", toString limits.minQualityScore.toNat),
    ("max_p95_latency_millis", toString limits.maxP95LatencyMillis.toNat),
    ("min_stability_score", toString limits.minStabilityScore.toNat)]

def scorecardText (card : EvolutionScorecard) : String :=
  objectText [("stage", stageText card.stage), ("quality_score", toString card.qualityScore.toNat),
    ("p95_latency_millis", toString card.p95LatencyMillis.toNat),
    ("stability_score", toString card.stabilityScore.toNat),
    ("cost_micros", toString card.costMicros.toNat),
    ("duration_seconds", toString card.durationSeconds.toNat),
    ("failure_count", toString card.failureCount.toNat),
    ("evidence_digest", quoted card.evidenceDigest.text),
    ("scorecard_digest", quoted card.scorecardDigest.text),
    ("evaluator", quoted card.evaluator.text), ("recorded_at", toString card.recordedAt)]

def approvalText (approval : EvolutionPromotionApproval) : String :=
  objectText [("approval_id", quoted approval.approvalId.text),
    ("proposal_id", quoted approval.proposalId.text),
    ("from_stage", stageText approval.fromStage),
    ("to_stage", approval.toStage.elim "null" stageText),
    ("binding", bindingText approval.binding),
    ("scorecard_digest", quoted approval.scorecardDigest.text),
    ("approver", quoted approval.approver.text), ("authority", authorityText approval.authority),
    ("approved_at", toString approval.approvedAt), ("expires_at", toString approval.expiresAt)]

/-- The JSON texts of payloads whose texts need no escape. -/
def sampleJson : PayloadWriter
  | .configuration binding limits actor configuredAt =>
    asBytes (arrayText [bindingText binding, arrayText (limits.map limitsText), quoted actor.text,
      toString configuredAt])
  | .scorecard card actor => asBytes (arrayText [scorecardText card, quoted actor.text])
  | .approval approval => asBytes (approvalText approval)
  | .reason actor reason => asBytes (arrayText [quoted actor.text, quoted reason])
  | .actor actor => asBytes (quoted actor.text)

def configureHash : Bytes32 :=
  ⟨[219, 218, 127, 96, 27, 58, 8, 175, 187, 40, 142, 199, 75, 213, 215, 82, 23, 119, 60, 88, 231,
    97, 203, 66, 109, 101, 41, 34, 5, 31, 76, 16],
    rfl⟩

def scorecardHash : Bytes32 :=
  ⟨[156, 192, 179, 7, 122, 21, 97, 204, 41, 248, 9, 51, 185, 62, 163, 241, 244, 126, 249, 251, 219,
    232, 0, 109, 49, 131, 227, 217, 76, 85, 199, 79],
    rfl⟩

def approveHash : Bytes32 :=
  ⟨[161, 119, 84, 53, 83, 249, 3, 154, 125, 187, 38, 14, 132, 144, 224, 6, 160, 250, 208, 3, 150,
    74, 4, 51, 191, 62, 251, 180, 114, 13, 163, 26],
    rfl⟩

def promoteHash : Bytes32 :=
  ⟨[136, 189, 116, 236, 170, 209, 25, 8, 122, 129, 245, 243, 49, 9, 214, 34, 101, 164, 166, 46, 35,
    185, 33, 2, 169, 39, 169, 6, 61, 163, 14, 148],
    rfl⟩

/-- The digests of the first four requests below, told apart by the lengths of their messages. -/
def sampleSha : Sha256 := fun message =>
  if message.length = 1033 then configureHash else if message.length = 451 then scorecardHash
  else if message.length = 676 then approveHash else promoteHash

/-- The digest `sha256:00…` that ends in the given number. -/
def sampleDigest (n : ℕ) : RequestDigest :=
  let bytes : Bytes32 := ⟨List.replicate 30 0 ++ [UInt8.ofNat (n / 256), UInt8.ofNat n], rfl⟩
  ⟨"sha256:" ++ hex bytes.bytes, (hashText_ok bytes).1, (hashText_ok bytes).2⟩

theorem sampleDigest_ok (n : ℕ) :
    Pandora.Rollout.Records.isSha256Digest (sampleDigest n).text = true := isSha256Digest_hex _

def sampleBinding : EvolutionRolloutBinding where
  exactCommit := "0123456789abcdef0123456789abcdef01234567"
  artifactDigest := sampleDigest 1
  channel := .beta
  evidenceDigest := sampleDigest 2
  commit_ok := by decide +kernel
  artifact_ok := sampleDigest_ok 1
  evidence_ok := sampleDigest_ok 2

def sampleLimits : List EvolutionStageLimits :=
  all.map fun stage => ⟨stage, 10000, 600, 0, 90, 500, 95, by decide⟩

def manager : PrincipalId := .ofLiteral "release-manager-1"
def evaluator : PrincipalId := .ofLiteral "evaluator-1"

def sampleCard (stage : EvolutionRolloutStage) (n recordedAt : ℕ) : EvolutionScorecard where
  stage := stage
  qualityScore := 98
  p95LatencyMillis := 200
  stabilityScore := 99
  costMicros := 1000
  durationSeconds := 60
  failureCount := 0
  evidenceDigest := sampleDigest (200 + n)
  scorecardDigest := sampleDigest (100 + n)
  evaluator := evaluator
  recordedAt := recordedAt
  scores_ok := by decide
  evidence_ok := sampleDigest_ok (200 + n)
  scorecard_ok := sampleDigest_ok (100 + n)

def sampleApproval (stage : EvolutionRolloutStage) (n card approvedAt : ℕ) :
    EvolutionPromotionApproval where
  approvalId := sampleDigest (600 + n)
  proposalId := .ofLiteral "proposal-rollout"
  fromStage := stage
  toStage := stage.next
  binding := sampleBinding
  scorecardDigest := sampleDigest (100 + card)
  approver := manager
  authority := .human
  approvedAt := approvedAt
  expiresAt := approvedAt + 8
  approval_ok := sampleDigest_ok (600 + n)
  scorecard_ok := sampleDigest_ok (100 + card)
  window := by omega

def scorecardCall (stage : EvolutionRolloutStage) (n recordedAt : ℕ) : Call :=
  .recordScorecard (sampleCard stage n recordedAt) (sampleDigest (300 + n)) evaluator

def approveCall (approval : EvolutionPromotionApproval) (n start : ℕ) : Call :=
  .approve approval.proposalId approval (sampleDigest (700 + n)) (start + 2)

def promoteCall (n start : ℕ) : Call :=
  .promote (sampleDigest (800 + n)) manager (start + 3) "human-approved stage promotion"

/-- The approval of the last scorecard and the promotion. -/
def promoteLast (stage : EvolutionRolloutStage) (n card start : ℕ) : List Call :=
  [approveCall (sampleApproval stage n card (start + 1)) n start, promoteCall n start]

def sampleRollout : Except EvolutionContractError EvolutionRollout :=
  new sampleSha sampleJson sampleBinding sampleLimits (sampleDigest 10) manager 10

theorem sampleDigest_inj {a b : ℕ} (ha : a < 65536) (hb : b < 65536)
    (h : sampleDigest a = sampleDigest b) : a = b := by
  have htext : "sha256:" ++ hex (List.replicate 30 0 ++ [UInt8.ofNat (a / 256), UInt8.ofNat a]) =
      "sha256:" ++ hex (List.replicate 30 0 ++ [UInt8.ofNat (b / 256), UInt8.ofNat b]) :=
    congrArg Id.text h
  have hbytes := append_cancel_left (hex_inj (String.append_right_inj _ |>.mp htext))
  have hhigh := congrArg UInt8.toNat (List.cons.inj hbytes).1
  have hlow := congrArg UInt8.toNat (List.cons.inj (List.cons.inj hbytes).2).1
  rw [UInt8.toNat_ofNat', UInt8.toNat_ofNat'] at hhigh hlow
  omega

/-- A rollout of the sample: its stage and status, the numbers of its transitions and of the
consumed approvals, and its last time. -/
structure Stands (r : EvolutionRollout) (stage : EvolutionRolloutStage)
    (status : EvolutionRolloutStatus) (used consumed : List ℕ) (t : ℕ) : Prop where
  stage : r.currentStage = stage
  status : r.status = status
  binding : r.binding = sampleBinding
  limits : r.limits = sampleLimits
  cards : r.scorecards.length ≤ used.length
  ids : ∀ event ∈ r.transitions, ∃ n ∈ used, event.transitionId = sampleDigest n
  small : ∀ n ∈ used ++ consumed, n < 65536
  length : r.transitions.length = used.length
  consumed : ∀ id ∈ r.consumedApprovalIds, ∃ n ∈ consumed, id = sampleDigest n
  last : ∃ event, r.transitions.getLast? = some event ∧ event.occurredAt = t

variable {stage : EvolutionRolloutStage} {status : EvolutionRolloutStatus}
  {used consumed : List ℕ} {t n : ℕ}

theorem Stands.fresh (h : Stands r stage status used consumed t) (hn : n ∉ used)
    (hsmall : n < 65536) : Fresh r (sampleDigest n) := by
  intro event hevent hid
  obtain ⟨m, hm, heq⟩ := h.ids event hevent
  have hmn := sampleDigest_inj (h.small m (mem_append_left _ hm)) hsmall (heq.symm.trans hid)
  exact hn (hmn ▸ hm)

theorem Stands.unused (h : Stands r stage status used consumed t) (hn : n ∉ consumed)
    (hsmall : n < 65536) : sampleDigest n ∉ r.consumedApprovalIds := by
  intro hmem
  obtain ⟨m, hm, heq⟩ := h.consumed _ hmem
  have hmn := sampleDigest_inj hsmall (h.small m (mem_append_right _ hm)) heq
  exact hn (hmn ▸ hm)

theorem Stands.recordable (h : Stands r stage status used consumed t) {call : Call}
    (hid : call.transitionId = sampleDigest n) (hreason : ∀ reason ∈ call.reason?,
      IsText 1024 reason) (hroom : used.length < 32) (htime : t ≤ call.time) :
    Recordable r call where
  digest := by rw [hid]; exact sampleDigest_ok n
  reason := hreason
  room := by
    rw [h.length]
    show used.length < 128
    omega
  ordered event hevent := by
    obtain ⟨last, hlast, rfl⟩ := h.last
    rw [hlast, Option.mem_some_iff] at hevent
    exact hevent ▸ htime

theorem Stands.recorded (h : Stands r stage status used consumed t) {call : Call} {change : Change}
    (hpasses : Passes sha json r call change) (hid : call.transitionId = sampleDigest n)
    (hsmall : n < 65536) {consumed' : List ℕ} (hsmall' : ∀ m ∈ consumed', m < 65536)
    (hpushed : change.pushed.length ≤ 1)
    (hconsumed : ∀ id ∈ change.rollout.consumedApprovalIds, ∃ m ∈ consumed', id = sampleDigest m) :
    Stands change.recorded change.rollout.currentStage change.rollout.status (n :: used) consumed'
      call.time := by
  obtain ⟨hbinding, hlimits, hcards, htransitions⟩ := hpasses.frame
  obtain ⟨hevent, -, -, htime⟩ := hpasses.fields_eq
  refine ⟨rfl, rfl, hbinding.trans h.binding, hlimits.trans h.limits, ?_, ?_, ?_, ?_, hconsumed, ?_⟩
  · have hlength := h.cards
    show (change.rollout.scorecards ++ change.pushed).length ≤ used.length + 1
    rw [hcards, length_append]
    omega
  · intro event hmem
    change event ∈ change.rollout.transitions ++ [change.event] at hmem
    rw [htransitions, mem_append, mem_singleton] at hmem
    rcases hmem with hmem | rfl
    · obtain ⟨m, hm, heq⟩ := h.ids event hmem
      exact ⟨m, mem_cons_of_mem _ hm, heq⟩
    · exact ⟨n, mem_cons_self, hevent.trans hid⟩
  · intro m hm
    rw [cons_append, mem_cons, mem_append] at hm
    rcases hm with rfl | hm | hm
    · exact hsmall
    · exact h.small m (mem_append_left _ hm)
    · exact hsmall' m hm
  · show (change.rollout.transitions ++ [change.event]).length = used.length + 1
    rw [htransitions, length_append, h.length]
    rfl
  · exact ⟨change.event, List.getLast?_concat, htime⟩

theorem sampleCard_passes (stage : EvolutionRolloutStage) (n recordedAt : ℕ) :
    ∃ limits, (sampleLimits.find? fun limits => limits.stage = stage) = some limits ∧
      (sampleCard stage n recordedAt).passes limits = true := by
  cases stage <;> exact ⟨_, rfl, rfl⟩

theorem Stands.passes_scorecard (sha : Sha256) (json : PayloadWriter)
    (h : Stands r stage .running used consumed t)
    (hroom : used.length < 32) (n recordedAt : ℕ) :
    Passes sha json r (scorecardCall stage n recordedAt)
      (r.scorecardChange sha json (sampleCard stage n recordedAt)
        (sampleDigest (300 + n)) evaluator true) := by
  obtain ⟨limits, hlimits, hpassed⟩ := sampleCard_passes stage n recordedAt
  have hcards := h.cards
  rw [← hpassed]
  refine .recordScorecard h.status h.stage.symm ?_ ?_
  · show r.scorecards.length < 32
    omega
  · rw [h.limits, h.stage]
    exact hlimits

theorem Stands.scored (sha : Sha256) (json : PayloadWriter)
    (h : Stands r stage .running used consumed t) {n recordedAt : ℕ}
    (hnew : 300 + n ∉ used) (hsmall : n < 100) (hroom : used.length < 32)
    (htime : t ≤ recordedAt) :
    ∃ next, r.exec sha json (scorecardCall stage n recordedAt) = (next, .ok true) ∧
      Recordable r (scorecardCall stage n recordedAt) ∧
      Stands next stage .awaitingApproval ((300 + n) :: used) consumed recordedAt ∧
      next.pendingApproval = r.pendingApproval ∧
      next.scorecards = r.scorecards ++ [sampleCard stage n recordedAt] := by
  have hpasses := h.passes_scorecard sha json hroom n recordedAt
  have hrecord : Recordable r (scorecardCall stage n recordedAt) :=
    h.recordable rfl nofun hroom htime
  have hstands := h.recorded hpasses rfl (by omega)
    (fun m hm => h.small m (mem_append_right _ hm)) (le_refl _) h.consumed
  change Stands _ r.currentStage .awaitingApproval _ _ recordedAt at hstands
  rw [h.stage] at hstands
  exact ⟨_, exec_recorded (h.fresh hnew (by omega)) hpasses hrecord, hrecord, hstands, rfl, rfl⟩

/-- A scorecard that is older than the last transition leaves the status without the scorecard. -/
theorem Stands.torn (sha : Sha256) (json : PayloadWriter)
    (h : Stands r stage .running used consumed t) {n recordedAt : ℕ}
    (hnew : 300 + n ∉ used) (hsmall : n < 100) (hroom : used.length < 32)
    (htime : recordedAt < t) :
    ∃ next, (r.exec sha json (scorecardCall stage n recordedAt)).1 = next ∧
      Stands next stage .awaitingApproval used consumed t ∧
      next.pendingApproval = r.pendingApproval ∧ next.scorecards = r.scorecards := by
  have hpasses := h.passes_scorecard sha json hroom n recordedAt
  have hrefused : ¬ Recordable r (scorecardCall stage n recordedAt) := by
    intro hrecord
    obtain ⟨event, hlast, rfl⟩ := h.last
    have hordered : event.occurredAt ≤ recordedAt := hrecord.ordered event (by rw [hlast]; rfl)
    omega
  exact ⟨_, exec_torn (h.fresh hnew (by omega)) hpasses hrefused, ⟨h.stage, rfl, h.binding,
    h.limits, h.cards, h.ids, h.small, h.length, h.consumed, h.last⟩, rfl, rfl⟩

/-- The status in which a stage is left. -/
def statusAfter (stage : EvolutionRolloutStage) : EvolutionRolloutStatus :=
  if stage.next = none then .complete else .running

/-- The approval of the last scorecard and the promotion, when the rollout waits for them. -/
theorem Stands.promoted (sha : Sha256) (json : PayloadWriter)
    (h : Stands r stage .awaitingApproval used consumed t)
    (hpending : r.pendingApproval = none) {cardStage : EvolutionRolloutStage} {card cardAt : ℕ}
    (hlast : r.scorecards.getLast? = some (sampleCard cardStage card cardAt)) (n start : ℕ)
    (hstart : cardAt ≤ start + 1 ∧ t ≤ start + 2) (hsmall : n < 100) (hroom : used.length < 31)
    (happrove : 700 + n ∉ used) (hpromote : 800 + n ∉ used) (hconsume : 600 + n ∉ consumed) :
    ∃ next, (machine sha json).run r (promoteLast stage n card start) = next ∧
      (machine sha json).Along Recordable r (promoteLast stage n card start) ∧
      Stands next (stage.next.getD stage) (statusAfter stage) ((800 + n) :: (700 + n) :: used)
        ((600 + n) :: consumed) (start + 3) ∧
      next.pendingApproval = none ∧ next.scorecards = r.scorecards := by
  have hdiffer : manager ≠ evaluator := by decide +kernel
  have hsmall' : ∀ m ∈ consumed, m < 65536 :=
    fun m hm => h.small m (mem_append_right _ hm)
  unfold promoteLast
  generalize happroval : sampleApproval stage n card (start + 1) = approval
  -- the approval
  have happroves : Passes sha json r (approveCall approval n start)
      (r.approveChange sha json approval (sampleDigest (700 + n)) (start + 2)) := by
    subst happroval
    refine .approve h.status hpending hlast rfl hdiffer h.stage.symm ?_ h.binding.symm rfl hstart.1
      ?_ ?_ (h.unused hconsume (by omega))
    · rw [h.stage]
      rfl
    · show start + 1 ≤ start + 2
      omega
    · show start + 2 ≤ start + 1 + 8
      omega
  have hrecord : Recordable r (approveCall approval n start) :=
    h.recordable rfl nofun (by omega) hstart.2
  have hexec := exec_recorded (h.fresh happrove (by omega)) happroves hrecord
  have hstands := h.recorded happroves rfl (by omega) hsmall' (Nat.zero_le _) h.consumed
  have hcards : (r.approveChange sha json approval (sampleDigest (700 + n))
      (start + 2)).recorded.scorecards = r.scorecards := append_nil _
  have hgiven : (r.approveChange sha json approval (sampleDigest (700 + n))
      (start + 2)).recorded.pendingApproval = some approval := rfl
  change Stands _ r.currentStage r.status _ _ (start + 2) at hstands
  rw [h.stage, h.status] at hstands
  generalize (r.approveChange sha json approval (sampleDigest (700 + n)) (start + 2)).recorded =
    waiting at hexec hstands hcards hgiven
  -- the promotion
  have hfrom : approval.fromStage = stage := by
    rw [← happroval]
    rfl
  have hto : approval.toStage = waiting.currentStage.next := by
    rw [hstands.stage, ← happroval]
    rfl
  have hpromotes : Passes sha json waiting (promoteCall n start) (waiting.promoteChange sha json
      approval (sampleDigest (800 + n)) manager (start + 3) "human-approved stage promotion") := by
    have hactor : manager = approval.approver := by
      rw [← happroval]
      rfl
    have hexpires : start + 3 ≤ approval.expiresAt := by
      rw [← happroval]
      show start + 3 ≤ start + 1 + 8
      omega
    unfold promoteCall
    rw [hactor]
    exact .promote hstands.status hgiven hexpires (hfrom.trans hstands.stage.symm)
  have hreason : ∀ reason ∈ (promoteCall n start).reason?, IsText 1024 reason := by
    intro reason hmem
    obtain rfl : "human-approved stage promotion" = reason := Option.some.inj hmem
    decide +kernel
  have hnew : 800 + n ∉ (700 + n) :: used := by
    rw [mem_cons, not_or]
    exact ⟨by omega, hpromote⟩
  have hrecord' : Recordable waiting (promoteCall n start) :=
    hstands.recordable rfl hreason (by rw [length_cons]; omega) (Nat.le_succ _)
  have hexec' := exec_recorded (hstands.fresh hnew (by omega)) hpromotes hrecord'
  obtain ⟨-, -, hframe, -, hnone, hconsumed⟩ := promoted_frame (r := waiting) approval
  have hids : ∀ m ∈ (600 + n) :: consumed, m < 65536 := by
    intro m hm
    rcases mem_cons.mp hm with rfl | hm
    · omega
    · exact hsmall' m hm
  have hstands' := hstands.recorded hpromotes rfl (by omega) hids (Nat.zero_le _) (by
    intro id hid
    change id ∈ (waiting.promoted approval).consumedApprovalIds at hid
    rw [hconsumed, mem_append, mem_singleton] at hid
    rcases hid with hid | rfl
    · obtain ⟨m, hm, heq⟩ := hstands.consumed id hid
      exact ⟨m, mem_cons_of_mem _ hm, heq⟩
    · refine ⟨600 + n, mem_cons_self, ?_⟩
      rw [← happroval]
      rfl)
  have hends : (waiting.promoted approval).currentStage = stage.next.getD stage ∧
      (waiting.promoted approval).status = statusAfter stage := by
    unfold statusAfter
    rcases promoted_cases hto with ⟨next, hnext, hmoved, hrunning, -⟩ | ⟨hend, hsame, hcomplete, -⟩
    · rw [hstands.stage] at hnext
      rw [hmoved, hrunning, hnext]
      exact ⟨rfl, rfl⟩
    · rw [hstands.stage] at hend
      rw [hsame, hcomplete, hend, hstands.stage]
      exact ⟨rfl, rfl⟩
  change Stands _ (waiting.promoted approval).currentStage (waiting.promoted approval).status _ _
    (start + 3) at hstands'
  rw [hends.1, hends.2] at hstands'
  refine ⟨_, ?_, ⟨hrecord, ?_, trivial⟩, hstands', hnone, ?_⟩
  · rw [run_cons, run_cons, run_nil]
    show ((r.exec sha json _).1.exec sha json _).1 = _
    rw [hexec, hexec']
  · show Recordable (r.exec sha json _).1 _
    rw [hexec]
    exact hrecord'
  · show (waiting.promoted approval).scorecards ++ [] = r.scorecards
    rw [append_nil, hframe, hcards]

/-- A scorecard, its approval and the promotion. -/
def promoteStage (stage : EvolutionRolloutStage) (n start : ℕ) : List Call :=
  scorecardCall stage n start :: promoteLast stage n n start

theorem Stands.passed (sha : Sha256) (json : PayloadWriter)
    (h : Stands r stage .running used consumed t)
    (hpending : r.pendingApproval = none) (n start : ℕ) (htime : t ≤ start) (hsmall : n < 100)
    (hroom : used.length < 30) (hscore : 300 + n ∉ used) (happrove : 700 + n ∉ used)
    (hpromote : 800 + n ∉ used) (hconsume : 600 + n ∉ consumed) :
    ∃ next, (machine sha json).run r (promoteStage stage n start) = next ∧
      (machine sha json).Along Recordable r (promoteStage stage n start) ∧
      Stands next (stage.next.getD stage) (statusAfter stage)
        ((800 + n) :: (700 + n) :: (300 + n) :: used) ((600 + n) :: consumed) (start + 3) ∧
      next.pendingApproval = none ∧
      next.scorecards = r.scorecards ++ [sampleCard stage n start] := by
  obtain ⟨scored, hexec, hrecord, hstands, hsame, hcards⟩ :=
    h.scored sha json hscore hsmall (by omega) htime
  have hlast : scored.scorecards.getLast? = some (sampleCard stage n start) := by
    rw [hcards]
    exact List.getLast?_concat
  obtain ⟨next, hrun, halong, hnext, hnone, hkept⟩ := hstands.promoted sha json
    (hsame.trans hpending) hlast n start ⟨by omega, by omega⟩ hsmall
    (by rw [length_cons]; omega)
    (by rw [mem_cons, not_or]; exact ⟨by omega, happrove⟩)
    (by rw [mem_cons, not_or]; exact ⟨by omega, hpromote⟩) hconsume
  refine ⟨next, ?_, ⟨hrecord, ?_⟩, hnext, hnone, hkept.trans hcards⟩
  · show (machine sha json).run (r.exec sha json _).1 _ = next
    rw [hexec]
    exact hrun
  · show (machine sha json).Along Recordable (r.exec sha json _).1 _
    rw [hexec]
    exact halong

theorem sample_starts (sha : Sha256) (json : PayloadWriter) : ∃ r₀,
    new sha json sampleBinding sampleLimits (sampleDigest 10) manager 10 = .ok r₀ ∧
    Stands r₀ .canary .running [10] [] 10 ∧ r₀.pendingApproval = none ∧ r₀.scorecards = [] := by
  have hsorted : sortLimits sampleLimits = sampleLimits := by decide
  have hstages : checkStages none sampleLimits all = .ok () := by decide
  have hreason : IsText 1024 configuredReason := by decide +kernel
  simp only [new, hsorted, hstages, ok_bind, bind_eq_ok, ensure_eq_ok, pure_eq_ok,
    EvolutionTransitionEvidence.new_eq_ok, exists_const]
  refine ⟨_, ⟨rfl, _, ⟨⟨sampleDigest_ok 10, fingerprint_ok _ _, sampleDigest_ok 2,
    isText_asStr .configure, hreason⟩, rfl⟩, rfl⟩, ⟨rfl, rfl, rfl, rfl, Nat.zero_le _, ?_, ?_, rfl,
    by rintro _ ⟨⟩, _, rfl, rfl⟩, rfl, rfl⟩
  · intro event hevent
    rw [mem_singleton] at hevent
    subst hevent
    exact ⟨10, mem_cons_self, rfl⟩
  · intro n hn
    rw [append_nil, mem_singleton] at hn
    omega

theorem canary_promoted_safely : ∃ r₀, sampleRollout = .ok r₀ ∧
    SafeRun sampleSha sampleJson r₀ (promoteStage .canary 0 20) := by
  obtain ⟨r₀, hnew, hstands, hpending, -⟩ := sample_starts sampleSha sampleJson
  obtain ⟨-, -, halong, -⟩ := hstands.passed sampleSha sampleJson hpending 0 20
    (by decide) (by decide) (by decide) (by decide) (by decide) (by decide) (by decide)
  refine ⟨r₀, hnew, staged_rollout_safety sampleSha sampleJson sampleBinding sampleLimits
    (sampleDigest 10) manager 10 r₀ _ hnew ?_⟩
  exact (machine sampleSha sampleJson).along_of_invariant (P := fun _ => True)
    (fun _ _ _ _ => trivial) (fun _ _ hrecord _ _ _ _ _ => hrecord) _ halong trivial

/-- The scorecard of the second stage is older than the last transition. -/
def tornCalls : List Call :=
  promoteStage .canary 0 20 ++ (scorecardCall .limited 1 5 :: promoteLast .limited 1 0 30) ++
    promoteStage .expanded 2 40 ++ promoteStage .complete 3 50

theorem scorecards_exec (r : EvolutionRollout) (call : Call) :
    r.scorecards ⊆ (r.exec sha json call).1.scorecards := by
  rcases exec_cases sha json r call with ⟨hsame, -⟩ | ⟨change, -, hpasses, -, hexec⟩ |
    ⟨change, e, -, hpasses, -, hexec⟩
  · rw [hsame]
    exact List.Subset.refl _
  · rw [hexec]
    show r.scorecards ⊆ change.rollout.scorecards ++ change.pushed
    rw [hpasses.frame.2.2.1]
    exact subset_append_left _ _
  · rw [hexec]
    show r.scorecards ⊆ change.rollout.scorecards
    rw [hpasses.frame.2.2.1]
    exact List.Subset.refl _

/-- A scorecard with an old time is refused and leaves the rollout waiting for a promotion; the
approval is then bound to the scorecard of the stage before, and every stage is left. -/
theorem torn_scorecard_completes : ∃ r₀, sampleRollout = .ok r₀ ∧
    ((machine sampleSha sampleJson).run r₀ tornCalls).status = .complete ∧
    ¬ SafeRun sampleSha sampleJson r₀ tornCalls := by
  obtain ⟨r₀, hnew, hstart, hnone₀, hcards₀⟩ := sample_starts sampleSha sampleJson
  obtain ⟨r₁, hrun₁, -, hstands₁, hnone₁, hcards₁⟩ := hstart.passed sampleSha sampleJson hnone₀ 0
    20 (by decide) (by decide) (by decide) (by decide) (by decide) (by decide) (by decide)
  have hbetween : Stands r₁ .limited .running [800, 700, 300, 10] [600] 23 := hstands₁
  have hnew₁ : 300 + 1 ∉ [800, 700, 300, 10] := by decide
  obtain ⟨r₂, hrun₂, hstands₂, hnone₂, hcards₂⟩ := hbetween.torn sampleSha sampleJson
    hnew₁ (by decide) (by decide) (show 5 < 23 by decide)
  have hlast₂ : r₂.scorecards.getLast? = some (sampleCard .canary 0 20) := by
    rw [hcards₂, hcards₁, hcards₀]
    rfl
  obtain ⟨r₃, hrun₃, -, hstands₃, hnone₃, hcards₃⟩ := hstands₂.promoted sampleSha sampleJson
    (hnone₂.trans hnone₁) hlast₂ 1 30 (by decide) (by decide) (by decide) (by decide) (by decide)
    (by decide)
  have hthird : Stands r₃ .expanded .running [801, 701, 800, 700, 300, 10] [601, 600] 33 :=
    hstands₃
  obtain ⟨r₄, hrun₄, -, hstands₄, hnone₄, hcards₄⟩ := hthird.passed sampleSha sampleJson hnone₃ 2
    40 (by decide) (by decide) (by decide) (by decide) (by decide) (by decide) (by decide)
  have hfourth : Stands r₄ .complete .running [802, 702, 302, 801, 701, 800, 700, 300, 10]
    [602, 601, 600] 43 := hstands₄
  obtain ⟨r₅, hrun₅, -, hstands₅, -, hcards₅⟩ := hfourth.passed sampleSha sampleJson hnone₄ 3
    50 (by decide) (by decide) (by decide) (by decide) (by decide) (by decide) (by decide)
  have hrun : (machine sampleSha sampleJson).run r₀ tornCalls = r₅ := by
    unfold tornCalls
    rw [Machine.run_append, Machine.run_append, Machine.run_append, hrun₁, Machine.run_cons]
    show (machine sampleSha sampleJson).run ((machine sampleSha sampleJson).run
      ((machine sampleSha sampleJson).run (r₁.exec sampleSha sampleJson _).1 _) _) _ = r₅
    rw [hrun₂, hrun₃, hrun₄, hrun₅]
  have hcomplete : r₅.status = .complete := hstands₅.status
  refine ⟨r₀, hnew, by rw [hrun]; exact hcomplete, fun hsafe => ?_⟩
  obtain ⟨k, approval, hpromoted, -⟩ := hsafe.promoted (by rw [hrun]; exact hcomplete)
  obtain ⟨call, card, -, hpromotes⟩ := (hpromoted .limited).promotes
  -- no scorecard of the second stage was ever recorded
  have hmem : card ∈ r₅.scorecards := by
    rw [← hrun, ← take_append_drop (k .limited) tornCalls, Machine.run_append]
    refine (machine sampleSha sampleJson).run_relates (R := fun a b => a.scorecards ⊆ b.scorecards)
      (fun _ => List.Subset.refl _) (fun _ _ _ => List.Subset.trans) scorecards_exec _ _ ?_
    exact mem_of_getLast? hpromotes.scored.last
  have hstage : card.stage = .limited := hpromotes.scored.stage.trans (hpromoted .limited).stage
  rw [hcards₅, hcards₄, hcards₃, hcards₂, hcards₁, hcards₀] at hmem
  have hstages : ∀ other ∈ [sampleCard .canary 0 20, sampleCard .expanded 2 40,
      sampleCard .complete 3 50], other.stage ≠ .limited := by
    intro other hother
    simp only [mem_cons, not_mem_nil, or_false] at hother
    rcases hother with rfl | rfl | rfl <;> decide
  exact hstages card hmem hstage

end Pandora.Evolution.Promotions
