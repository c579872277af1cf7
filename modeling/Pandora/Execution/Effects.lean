import Pandora.Execution.Requests
import Pandora.Governance.RequestBinding

/-! # Effects and their evidence

`Pass` says what one pass of the loop does to the evidence: the list of acts, the receipts and the
events of completed effects. From it, a run carries out the requests in order, each after the hooks,
under a permit that was issued for it and consumed, and stops at the first that fails (`Orderly`);
and the receipts and the events are those of what was carried out (`Accounted`).

The one exit that loses the evidence is the `?` after `consume_grant`. It does no harm at the first
request; after that it does (`effects_accounted_iff`). -/

namespace Pandora.Execution.Effects

open Text Ids Effect.Request Governance.Policy Governance.Monitor List Bool
open Governance.Approvals (ApprovalDb ApprovalError ApprovalGrant consumeGrant)
open Subagents.Store (EffectReceipt)
open Execution.Requests

variable {sha : Sha256} {json : JsonWriter} {ω : Type} {controller : Controller sha json ω}
  {call : Call} {request : OperationRequest sha json} {s s' : RunState sha json ω}

/-! ### The evidence of a state -/

/-- What a reader of the summary can see of the effects, beside the acts themselves. -/
structure Evidence (sha : Sha256) (json : JsonWriter) where
  acts : List (Act sha json)
  receipts : List EffectReceipt
  completed : List RuntimeEvent
  executionId : ExecutionId
  selectedHarness : HarnessId
  selectedGene : GeneId

def isCompleted (event : RuntimeEvent) : Bool := event.eventType = .effectCompleted

def evidence (s : RunState sha json ω) : Evidence sha json where
  acts := s.acts
  receipts := s.summary.receipts
  completed := s.summary.events.filter isCompleted
  executionId := s.summary.executionId
  selectedHarness := s.summary.selectedHarness
  selectedGene := s.summary.selectedGene

def Evidence.act (e : Evidence sha json) (act : Act sha json) : Evidence sha json :=
  { e with acts := e.acts ++ [act] }

/-- The event of an effect, with the receipt and the digest of the request. -/
def Evidence.event (controller : Controller sha json ω) (call : Call) (e : Evidence sha json)
    (executed : OperationRequest sha json × EffectReceipt) : RuntimeEvent where
  eventType := .effectCompleted
  context :=
    { tenantId := call.session.tenantId
      workspaceId := call.session.workspaceId
      sessionId := call.session.id
      executionId := e.executionId
      harnessId := some e.selectedHarness
      geneId := some e.selectedGene
      policyVersion := controller.policy.policyVersion
      receiptId := some executed.2.receiptId }
  payload := .effect executed.1.capability.asStr executed.1.requestDigest

/-- The evidence after an effect. -/
def Evidence.executed (controller : Controller sha json ω) (call : Call) (e : Evidence sha json)
    (request : OperationRequest sha json) (receipt : EffectReceipt) (succeeded : Bool) :
    Evidence sha json :=
  { e with
    acts := e.acts ++ [.executed request receipt succeeded]
    receipts := e.receipts ++ [receipt]
    completed := e.completed ++ [e.event controller call (request, receipt)] }

@[simp] theorem evidence_act (act : Act sha json) : evidence (s.act act) = (evidence s).act act :=
    rfl

@[simp] theorem evidence_withMonitor (monitor : ReferenceMonitor) :
    evidence { s with monitor } = evidence s := rfl

@[simp] theorem evidence_withApprovals (approvals : ApprovalDb) :
    evidence { s with approvals } = evidence s := rfl

@[simp] theorem evidence_withStatus (status : RunStatus) :
    evidence (s.withStatus status) = evidence s := rfl

theorem evidence_push {event : RuntimeEvent} (h : isCompleted event = false) :
    evidence (s.push event) = evidence s := by
  have hfilter : (s.summary.events ++ [event]).filter isCompleted =
      s.summary.events.filter isCompleted := by
    rw [filter_append, filter_singleton, h]
    exact append_nil _
  unfold evidence RunState.push
  dsimp only
  rw [hfilter]

theorem evidence_recordFailure (error : RuntimeError) :
    evidence (recordFailure controller call s error) = evidence s := by
  unfold recordFailure
  dsimp only
  rw [evidence_push rfl, evidence_withStatus]

theorem evidence_completed (receipt : EffectReceipt) (succeeded : Bool) :
    evidence (completed controller call s request receipt succeeded) =
      (evidence s).executed controller call request receipt succeeded := by
  unfold completed evidence RunState.push Evidence.executed RunState.act
  dsimp only
  rw [filter_append]
  rfl

/-! ### Executing -/

/-- The executor is not called, or it is and there is a receipt. -/
def Executed (controller : Controller sha json ω) (call : Call)
    (request : OperationRequest sha json) (e e' : Evidence sha json)
    (result : Except RuntimeError Unit) : Prop :=
  (e' = e ∧ result.isOk = false) ∨
    ∃ receipt, e' = e.executed controller call request receipt result.isOk

variable {consumed : ConsumedPermit sha json}

theorem executed_finish {α : Type} {answer : ω × Response α}
    {succeed : RunState sha json ω → α → RunState sha json ω × Except RuntimeError Unit}
    (hsucceed : ∀ s value, evidence (succeed s value).1 = evidence s) :
    Executed controller call consumed.request (evidence s)
      (evidence (finish controller call s consumed answer succeed).1)
      (finish controller call s consumed answer succeed).2 := by
  refine Or.inr ⟨answer.2.receipt, ?_⟩
  unfold finish
  split
  · rename_i error hresult
    exact evidence_completed _ _
  · rename_i value hresult
    dsimp only
    rw [evidence_completed, hsucceed]
    rfl

theorem evidence_readOutput {path : String} {bytes : List UInt8} :
    evidence (readOutput request path s bytes).1 = evidence s := by
  unfold readOutput
  split_ifs with h
  · rfl
  · rfl

theorem executed_read :
    Executed controller call consumed.request (evidence s)
      (evidence (executeRead controller call s consumed).1)
      (executeRead controller call s consumed).2 := by
  unfold executeRead
  dsimp only
  split
  · exact Or.inl ⟨rfl, rfl⟩
  · split_ifs
    all_goals
      split
      · exact Or.inl ⟨rfl, rfl⟩
      · exact executed_finish fun _ _ => evidence_readOutput

theorem executed_process :
    Executed controller call consumed.request (evidence s)
      (evidence (executeProcess controller call s consumed).1)
      (executeProcess controller call s consumed).2 := by
  unfold executeProcess
  split
  · split
    · exact Or.inl ⟨rfl, rfl⟩
    · refine executed_finish fun s stdout => ?_
      dsimp only
      split_ifs with h
      · rfl
      · rfl
  · exact Or.inl ⟨rfl, rfl⟩

variable {payload : Option (List UInt8)}

theorem executed_write :
    Executed controller call consumed.request (evidence s)
      (evidence (executeWrite controller call s consumed payload).1)
      (executeWrite controller call s consumed payload).2 := by
  unfold executeWrite
  split
  · exact Or.inl ⟨rfl, rfl⟩
  · split
    · exact Or.inl ⟨rfl, rfl⟩
    · exact Or.inl ⟨rfl, rfl⟩
    · exact executed_finish fun _ _ => rfl

theorem executed_network :
    Executed controller call consumed.request (evidence s)
      (evidence (executeNetwork controller call s consumed payload).1)
      (executeNetwork controller call s consumed payload).2 := by
  unfold executeNetwork
  split
  · exact Or.inl ⟨rfl, rfl⟩
  · split
    · exact Or.inl ⟨rfl, rfl⟩
    · refine executed_finish fun s text => ?_
      rcases text with _ | text
      · rfl
      · rfl

theorem executed_wasm :
    Executed controller call consumed.request (evidence s)
      (evidence (executeWasm controller call s consumed payload).1)
      (executeWasm controller call s consumed payload).2 := by
  unfold executeWasm
  split
  · exact Or.inl ⟨rfl, rfl⟩
  · exact executed_finish fun _ _ => rfl

theorem executed_request :
    Executed controller call consumed.request (evidence s)
      (evidence (executeRequest controller call s consumed payload).1)
      (executeRequest controller call s consumed payload).2 := by
  unfold executeRequest
  split
  · exact executed_read
  · exact executed_process
  · exact executed_write
  · exact executed_network
  · exact executed_wasm
  · exact Or.inl ⟨rfl, rfl⟩

/-! ### One pass of the loop -/

/-- The monitor has issued the permit for the request. -/
def Issued (call : Call) (request : OperationRequest sha json) (permit : EffectPermit) : Prop :=
  ∃ (monitor monitor' : ReferenceMonitor) (decision : ParliamentDecision),
    monitor.authorize request decision call.now = (monitor', .ok permit) ∨
      ∃ grant, monitor.authorizeAfterApprovalWithGrant request decision grant call.now =
        (monitor', .ok permit)

/-- The store has consumed the permit for the request. -/
def Consumed (call : Call) (request : OperationRequest sha json) (permit : EffectPermit) : Prop :=
  ∃ (store store' : PermitStore) (consumed : ConsumedPermit sha json),
    consume store permit request call.now = .ok (store', consumed)

/-- What a pass does to the evidence. -/
inductive Pass (controller : Controller sha json ω) (call : Call)
    (request : OperationRequest sha json) (e : Evidence sha json) :
    Evidence sha json → Outcome → Prop
  | denied : Pass controller call request e e .stop
  | undecided (hhook : controller.hookDenial request = none) :
      Pass controller call request e (e.act (.hookPassed request)) .stop
  | refused (hhook : controller.hookDenial request = none) (error : RuntimeError) :
      Pass controller call request e (e.act (.hookPassed request)) (.fail error)
  | unused (hhook : controller.hookDenial request = none) (permit : EffectPermit)
      (hissued : Issued call request permit) :
      Pass controller call request e
        ((e.act (.hookPassed request)).act (.issued request permit)) .stop
  | unexecuted (hhook : controller.hookDenial request = none) (permit : EffectPermit)
      (hissued : Issued call request permit) (hconsumed : Consumed call request permit) :
      Pass controller call request e
        (((e.act (.hookPassed request)).act (.issued request permit)).act
          (.consumed request permit)) .stop
  | executed (hhook : controller.hookDenial request = none) (permit : EffectPermit)
      (hissued : Issued call request permit) (hconsumed : Consumed call request permit)
      (receipt : EffectReceipt) (succeeded : Bool) :
      Pass controller call request e
        ((((e.act (.hookPassed request)).act (.issued request permit)).act
          (.consumed request permit)).executed controller call request receipt succeeded)
        (if succeeded then .next else .stop)

theorem pass_usePermit {e : Evidence sha json} {permit : EffectPermit}
    (hhook : controller.hookDenial request = none)
    (hissued : Issued call request permit) (he : evidence s = e.act (.hookPassed request)) :
    Pass controller call request e (evidence (usePermit controller call s request permit payload).1)
      (usePermit controller call s request permit payload).2 := by
  unfold usePermit
  dsimp only
  split
  · rename_i error hconsume
    rw [evidence_recordFailure, evidence_act, he]
    exact .unused hhook permit hissued
  · rename_i store consumed hconsume
    have hconsumed : Consumed call request permit := ⟨_, _, _, hconsume⟩
    have hrequest : consumed.request = request := by
      rw [(consume_eq_ok hconsume).2.2.2.2.1]
    -- the state in which the executor is called
    set ready : RunState sha json ω := RunState.act { (s.act (.issued request permit)) with
        monitor := { (s.act (.issued request permit)).monitor with store } }
      (.consumed request permit) with hready
    have hbefore : evidence ready = ((e.act (.hookPassed request)).act (.issued request permit)).act
        (.consumed request permit) := by
      rw [hready, evidence_act, ← he]
      rfl
    have hexecuted := @executed_request _ _ _ controller call ready consumed payload
    rw [hrequest, hbefore] at hexecuted
    split
    · rename_i after error hresult
      rw [hresult] at hexecuted
      dsimp only at hexecuted ⊢
      rw [evidence_recordFailure]
      rcases hexecuted with ⟨hsame, -⟩ | ⟨receipt, hreceipt⟩
      · rw [hsame]
        exact .unexecuted hhook permit hissued hconsumed
      · rw [hreceipt]
        exact .executed hhook permit hissued hconsumed receipt false
    · rename_i after hresult
      rw [hresult] at hexecuted
      dsimp only at hexecuted ⊢
      rcases hexecuted with ⟨-, hfailed⟩ | ⟨receipt, hreceipt⟩
      · cases hfailed
      · rw [hreceipt]
        exact .executed hhook permit hissued hconsumed receipt true

/-- The request needs the approval, and it cannot be consumed. -/
def RefusedGrant (controller : Controller sha json ω) (call : Call) (s : RunState sha json ω)
    (request : OperationRequest sha json) : Prop :=
  controller.hookDenial request = none ∧
    (controller.parliament.decide request controller.policy).requiresApproval = true ∧
    ∃ id, call.approval = some id ∧
      (consumeGrant s.approvals id request.principalId request.sessionId request.executionId
        request.geneId request.requestDigest call.now).2.isOk = false

def hasFailed : Outcome → Bool
  | .fail _ => true
  | _ => false

theorem usePermit_not_failed {permit : EffectPermit} :
    hasFailed (usePermit controller call s request permit payload).2 = false := by
  unfold usePermit
  dsimp only
  split
  · rfl
  · split
    · rfl
    · rfl

/-- A pass, and when it ends by `?`. -/
theorem runRequest_pass (s : RunState sha json ω) (request : OperationRequest sha json)
    (payload : Option (List UInt8)) :
    Pass controller call request (evidence s)
      (evidence (runRequest controller call s request payload).1)
      (runRequest controller call s request payload).2 ∧
    (hasFailed (runRequest controller call s request payload).2 = true ↔
      RefusedGrant controller call s request) := by
  unfold runRequest
  dsimp only
  split
  · rename_i reason hhook
    refine ⟨?_, iff_of_false false_ne_true fun h => ?_⟩
    · rw [evidence_withStatus, evidence_push rfl, evidence_push rfl]
      exact .denied
    · rw [h.1] at hhook
      cases hhook
  · rename_i hhook
    -- the state in which the Parliament is asked
    set asked : RunState sha json ω := RunState.act (s.push (eventOf controller call s
      .effectRequested none (.effect request.capability.asStr request.requestDigest)))
      (.hookPassed request) with hasked
    have hevidence : evidence asked = (evidence s).act (.hookPassed request) := by
      rw [hasked, evidence_act, evidence_push rfl]
    split
    · rename_i digest version reason hdecision
      have hno : ¬ RefusedGrant controller call s request := by
        rintro ⟨-, hneeded, -⟩
        rw [hdecision] at hneeded
        cases hneeded
      split_ifs with hunrequired
      · refine ⟨?_, iff_of_false false_ne_true hno⟩
        rw [evidence_recordFailure, hevidence]
        exact .undecided hhook
      · split
        · refine ⟨?_, iff_of_false false_ne_true hno⟩
          rw [evidence_recordFailure, evidence_withMonitor (s := asked.push _), evidence_push rfl,
            hevidence]
          exact .undecided hhook
        · rename_i monitor permit hissue
          refine ⟨pass_usePermit hhook ⟨_, monitor, _, Or.inl hissue⟩ ?_, ?_⟩
          · rw [evidence_withMonitor (s := asked.push _), evidence_push rfl, hevidence]
          · rw [usePermit_not_failed]
            exact iff_of_false false_ne_true hno
    · rename_i digest version reason hdecision
      refine ⟨?_, iff_of_false false_ne_true ?_⟩
      · rw [evidence_withStatus, evidence_push rfl, hevidence]
        exact .undecided hhook
      · rintro ⟨-, hneeded, -⟩
        rw [hdecision] at hneeded
        cases hneeded
    · rename_i digest version reason hdecision
      split
      · rename_i happroval
        refine ⟨?_, iff_of_false false_ne_true ?_⟩
        · rw [evidence_withStatus, evidence_push rfl, hevidence]
          exact .undecided hhook
        · rintro ⟨-, -, id, hid, -⟩
          rw [happroval] at hid
          cases hid
      · rename_i id happroval
        split
        · rename_i approvals error hgrant
          refine ⟨?_, iff_of_true rfl ⟨hhook, by rw [hdecision]; rfl, id, happroval, ?_⟩⟩
          · rw [evidence_withApprovals (s := asked), hevidence]
            exact .refused hhook _
          · have hsame : asked.approvals = s.approvals := rfl
            rw [hsame] at hgrant
            rw [hgrant]
            rfl
        · rename_i approvals grant hgrant
          have hno : ¬ RefusedGrant controller call s request := by
            rintro ⟨-, -, id', hid, hrefused⟩
            rw [happroval] at hid
            cases hid
            have hsame : asked.approvals = s.approvals := rfl
            rw [hsame] at hgrant
            rw [hgrant] at hrefused
            cases hrefused
          split
          · refine ⟨?_, iff_of_false false_ne_true hno⟩
            rw [evidence_recordFailure, evidence_withMonitor (s := RunState.push _ _),
              evidence_push rfl, evidence_withApprovals (s := asked), hevidence]
            exact .undecided hhook
          · rename_i monitor permit hissue
            refine ⟨pass_usePermit hhook ⟨_, monitor, _, Or.inr ⟨_, hissue⟩⟩ ?_, ?_⟩
            · rw [evidence_withMonitor (s := RunState.push _ _), evidence_push rfl,
                evidence_withApprovals (s := asked), hevidence]
            · rw [usePermit_not_failed]
              exact iff_of_false false_ne_true hno

/-! ### Whole runs -/

/-- The effects that were carried out, in order. -/
def executedOf (acts : List (Act sha json)) : List (OperationRequest sha json × EffectReceipt) :=
  acts.filterMap fun
    | .executed request receipt _ => some (request, receipt)
    | _ => none

/-- The acts of a run: each request is passed by the hooks, a permit is issued for it and consumed,
and it is carried out. The first for which one of this fails is the last. -/
inductive Orderly (controller : Controller sha json ω) (call : Call) :
    List (OperationRequest sha json) → List (Act sha json) → Prop
  | nil (requests : List (OperationRequest sha json)) : Orderly controller call requests []
  | undecided {request : OperationRequest sha json} {rest : List (OperationRequest sha json)}
      (hhook : controller.hookDenial request = none) :
      Orderly controller call (request :: rest) [.hookPassed request]
  | unused {request : OperationRequest sha json} {rest : List (OperationRequest sha json)}
      {permit : EffectPermit} (hhook : controller.hookDenial request = none)
      (hissued : Issued call request permit) :
      Orderly controller call (request :: rest) [.hookPassed request, .issued request permit]
  | unexecuted {request : OperationRequest sha json} {rest : List (OperationRequest sha json)}
      {permit : EffectPermit} (hhook : controller.hookDenial request = none)
      (hissued : Issued call request permit) (hconsumed : Consumed call request permit) :
      Orderly controller call (request :: rest)
        [.hookPassed request, .issued request permit, .consumed request permit]
  | failed {request : OperationRequest sha json} {rest : List (OperationRequest sha json)}
      {permit : EffectPermit} {receipt : EffectReceipt}
      (hhook : controller.hookDenial request = none)
      (hissued : Issued call request permit) (hconsumed : Consumed call request permit) :
      Orderly controller call (request :: rest)
        [.hookPassed request, .issued request permit, .consumed request permit,
          .executed request receipt false]
  | next {request : OperationRequest sha json} {rest : List (OperationRequest sha json)}
      {permit : EffectPermit} {receipt : EffectReceipt} {acts : List (Act sha json)}
      (hhook : controller.hookDenial request = none)
      (hissued : Issued call request permit) (hconsumed : Consumed call request permit)
      (hrest : Orderly controller call rest acts) :
      Orderly controller call (request :: rest)
        ([.hookPassed request, .issued request permit, .consumed request permit,
          .executed request receipt true] ++ acts)

/-- The receipts and the events are those of the effects. -/
structure Accounted (controller : Controller sha json ω) (call : Call) (e : Evidence sha json) :
    Prop where
  receipts : e.receipts = (executedOf e.acts).map (·.2)
  completed : e.completed = (executedOf e.acts).map (e.event controller call)

theorem executedOf_append (acts later : List (Act sha json)) :
    executedOf (acts ++ later) = executedOf acts ++ executedOf later := filterMap_append

section

variable {e e' : Evidence sha json} {outcome : Outcome}

theorem Accounted.act {act : Act sha json} (h : Accounted controller call e)
    (hact : executedOf [act] = []) : Accounted controller call (e.act act) := by
  have hacts : executedOf (e.act act).acts = executedOf e.acts := by
    show executedOf (e.acts ++ [act]) = _
    rw [executedOf_append, hact, append_nil]
  constructor
  · rw [hacts]
    exact h.receipts
  · rw [hacts]
    exact h.completed

theorem Accounted.executed {receipt : EffectReceipt} {succeeded : Bool}
    (h : Accounted controller call e) :
    Accounted controller call (e.executed controller call request receipt succeeded) := by
  have hacts : executedOf (e.executed controller call request receipt succeeded).acts =
      executedOf e.acts ++ [(request, receipt)] := executedOf_append _ _
  constructor
  · rw [hacts, map_append, ← h.receipts]
    rfl
  · rw [hacts, map_append]
    show e.completed ++ _ = _
    rw [h.completed]
    rfl

theorem Accounted.pass (h : Accounted controller call e)
    (hpass : Pass controller call request e e' outcome) : Accounted controller call e' := by
  cases hpass with
  | denied => exact h
  | undecided | refused => exact h.act rfl
  | unused hhook permit hissued => exact (h.act rfl).act rfl
  | unexecuted hhook permit hissued hconsumed => exact ((h.act rfl).act rfl).act rfl
  | executed hhook permit hissued hconsumed receipt succeeded =>
    exact (((h.act rfl).act rfl).act rfl).executed

theorem Pass.last (hpass : Pass controller call request e e' outcome) (hlast : outcome ≠ .next)
    (rest : List (OperationRequest sha json)) :
    ∃ acts, e'.acts = e.acts ++ acts ∧ Orderly controller call (request :: rest) acts ∧
      (hasFailed outcome = true → executedOf acts = []) := by
  cases hpass with
  | denied => exact ⟨[], (append_nil _).symm, .nil _, fun _ => rfl⟩
  | undecided hhook | refused hhook => exact ⟨_, rfl, .undecided hhook, fun _ => rfl⟩
  | unused hhook permit hissued =>
    exact ⟨_, append_assoc .., .unused hhook hissued, fun _ => rfl⟩
  | unexecuted hhook permit hissued hconsumed =>
    refine ⟨_, ?_, .unexecuted hhook hissued hconsumed, fun _ => rfl⟩
    simp only [Evidence.act, append_assoc, cons_append, nil_append]
  | executed hhook permit hissued hconsumed receipt succeeded =>
    have hfailed : succeeded = false := by
      rcases succeeded with _ | _
      · rfl
      · exact absurd rfl hlast
    subst hfailed
    refine ⟨[.hookPassed request, .issued request permit, .consumed request permit,
      .executed request receipt false], ?_, .failed hhook hissued hconsumed, fun h => nomatch h⟩
    simp only [Evidence.act, Evidence.executed, append_assoc, cons_append,
      nil_append]

theorem Pass.next (hpass : Pass controller call request e e' .next) :
    ∃ acts, e'.acts = e.acts ++ acts ∧ executedOf acts ≠ [] ∧
      ∀ rest later, Orderly controller call rest later →
        Orderly controller call (request :: rest) (acts ++ later) := by
  generalize houtcome : Outcome.next = outcome at hpass
  cases hpass with
  | denied | undecided | refused | unused | unexecuted => cases houtcome
  | executed hhook permit hissued hconsumed receipt succeeded =>
    have hsucceeded : succeeded = true := by
      rcases succeeded with _ | _
      · cases houtcome
      · rfl
    subst hsucceeded
    refine ⟨[.hookPassed request, .issued request permit, .consumed request permit,
      .executed request receipt true], ?_, cons_ne_nil _ _, fun rest later hlater => ?_⟩
    · simp only [Evidence.act, Evidence.executed, append_assoc, cons_append,
        nil_append]
    · exact .next hhook hissued hconsumed hlater

end

/-- No request finds its approval refused, as far as the loop gets. -/
def GrantsConsumed (controller : Controller sha json ω) (call : Call)
    (payload : Option (List UInt8)) : List (OperationRequest sha json) → RunState sha json ω → Prop
  | [], _ => True
  | request :: rest, s => ¬ RefusedGrant controller call s request ∧
      ((runRequest controller call s request payload).2 = .next →
        GrantsConsumed controller call payload rest
          (runRequest controller call s request payload).1)

section

variable {payload : Option (List UInt8)} {requests rest : List (OperationRequest sha json)}

theorem runRequests_next (h : (runRequest controller call s request payload).2 = .next) :
    runRequests controller call payload (request :: rest) s =
      runRequests controller call payload rest
        (runRequest controller call s request payload).1 := by
  rw [runRequests.eq_2]
  split
  · rename_i hrun
    rw [hrun]
  · rename_i hrun
    rw [hrun] at h
    cases h
  · rename_i hrun
    rw [hrun] at h
    cases h

theorem runRequests_last (h : (runRequest controller call s request payload).2 ≠ .next) :
    (runRequests controller call payload (request :: rest) s).1 =
      (runRequest controller call s request payload).1 ∧
    (runRequests controller call payload (request :: rest) s).2.isOk =
      !hasFailed (runRequest controller call s request payload).2 := by
  unfold runRequests
  split
  · rename_i hrun
    rw [hrun] at h
    exact absurd rfl h
  · rename_i hrun
    rw [hrun]
    exact ⟨rfl, rfl⟩
  · rename_i hrun
    rw [hrun]
    exact ⟨rfl, rfl⟩

theorem runRequests_orderly (payload : Option (List UInt8))
    (requests : List (OperationRequest sha json)) (s : RunState sha json ω) :
    ∃ acts, (runRequests controller call payload requests s).1.acts = s.acts ++ acts ∧
      Orderly controller call requests acts := by
  induction requests generalizing s with
  | nil => exact ⟨[], (append_nil _).symm, .nil _⟩
  | cons request rest ih =>
    obtain ⟨hpass, -⟩ := runRequest_pass s request payload
    by_cases hnext : (runRequest controller call s request payload).2 = .next
    · rw [hnext] at hpass
      obtain ⟨acts, hacts, -, hthen⟩ := hpass.next
      obtain ⟨later, hlater, horderly⟩ := ih (runRequest controller call s request payload).1
      refine ⟨acts ++ later, ?_, hthen rest later horderly⟩
      rw [runRequests_next hnext, hlater, ← append_assoc]
      exact congrArg (· ++ later) hacts
    · obtain ⟨acts, hacts, horderly, -⟩ := hpass.last hnext rest
      refine ⟨acts, ?_, horderly⟩
      rw [(runRequests_last hnext).1]
      exact hacts

theorem runRequests_accounted (payload : Option (List UInt8))
    (requests : List (OperationRequest sha json)) (s : RunState sha json ω)
    (h : Accounted controller call (evidence s)) :
    Accounted controller call (evidence (runRequests controller call payload requests s).1) := by
  induction requests generalizing s with
  | nil => exact h
  | cons request rest ih =>
    obtain ⟨hpass, -⟩ := runRequest_pass s request payload
    by_cases hnext : (runRequest controller call s request payload).2 = .next
    · rw [runRequests_next hnext]
      exact ih _ (h.pass hpass)
    · rw [(runRequests_last hnext).1]
      exact h.pass hpass

/-- The loop ends by `?` exactly where an approval is refused. -/
theorem runRequests_isOk (payload : Option (List UInt8))
    (requests : List (OperationRequest sha json)) (s : RunState sha json ω) :
    (runRequests controller call payload requests s).2.isOk = true ↔
      GrantsConsumed controller call payload requests s := by
  induction requests generalizing s with
  | nil => exact iff_of_true rfl trivial
  | cons request rest ih =>
    obtain ⟨-, hrefused⟩ :=
      runRequest_pass s request payload
    unfold GrantsConsumed
    rw [← hrefused]
    by_cases hnext : (runRequest controller call s request payload).2 = .next
    · rw [runRequests_next hnext, ih, hnext]
      exact ⟨fun h => ⟨false_ne_true, fun _ => h⟩, fun h => h.2 rfl⟩
    · rw [(runRequests_last hnext).2]
      constructor
      · intro h
        exact ⟨by simpa using h, fun h => absurd h hnext⟩
      · intro h
        simpa using h.1

end

/-! ### What is returned -/

/-- The requests that are planned. -/
def plannedRequests (prepared : Except RuntimeError (Plan sha json)) :
    List (OperationRequest sha json) :=
  match prepared with
  | .error _ => []
  | .ok plan => plan.requests

/-- What a completed event says about an effect. -/
def effectOfEvent (event : RuntimeEvent) : Option ReceiptId × EventPayload :=
  (event.context.receiptId, event.payload)

/-- Effects and evidence belong together: the acts are orderly; the receipts and the events of a
summary are those of the effects, in their order; and where there is no summary, nothing was carried
out. -/
structure EvidenceKept (controller : Controller sha json ω) (call : Call)
    (requests : List (OperationRequest sha json))
    (run : List (Act sha json) × Except RuntimeError RunSummary) : Prop where
  orderly : Orderly controller call requests run.1
  receipts : ∀ summary, run.2 = .ok summary → summary.receipts = (executedOf run.1).map (·.2)
  events : ∀ summary, run.2 = .ok summary →
    (summary.events.filter isCompleted).map effectOfEvent = (executedOf run.1).map fun executed =>
      (some executed.2.receiptId, .effect executed.1.capability.asStr executed.1.requestDigest)
  undiscarded : run.2.isOk = false → executedOf run.1 = []

/-- No request but the first finds its approval refused. -/
def LaterGrantsConsumed (controller : Controller sha json ω) (call : Call)
    (components : Components ω) (plan : Plan sha json) : Prop :=
  match plan.requests with
  | [] => True
  | first :: rest =>
    let pass := runRequest controller call (startState controller call components plan) first
      plan.payload
    pass.2 = .next → GrantsConsumed controller call plan.payload rest pass.1

section

variable {components : Components ω} {plan : Plan sha json}

theorem accounted_start :
    Accounted controller call (evidence (startState controller call components plan)) := ⟨rfl, rfl⟩

/-- From a state in which nothing was done: nothing is lost exactly where no approval is refused
after the first request. -/
theorem undiscarded_iff {first : OperationRequest sha json}
    {rest : List (OperationRequest sha json)}
    {start : RunState sha json ω} (hstart : start.acts = []) :
    ((runRequests controller call payload (first :: rest) start).2.isOk = false →
      executedOf (runRequests controller call payload (first :: rest) start).1.acts = []) ↔
    ((runRequest controller call start first payload).2 = .next →
      GrantsConsumed controller call payload rest
        (runRequest controller call start first payload).1) := by
  obtain ⟨hpass, -⟩ := runRequest_pass start first payload
  by_cases hnext : (runRequest controller call start first payload).2 = .next
  · rw [hnext] at hpass
    obtain ⟨acts, hacts, hexecuted, -⟩ := hpass.next
    have hfirst : (runRequest controller call start first payload).1.acts = acts := by
      have happend : (runRequest controller call start first payload).1.acts = start.acts ++ acts :=
        hacts
      rw [happend, hstart, nil_append]
    obtain ⟨later, hlater, -⟩ := runRequests_orderly payload rest
      (runRequest controller call start first payload).1
    -- the first request was carried out, so only a summary will do
    have hdone : executedOf (runRequests controller call payload (first :: rest) start).1.acts ≠
      [] := by
      rw [runRequests_next hnext, hlater, hfirst, executedOf_append]
      exact append_ne_nil_of_left_ne_nil hexecuted _
    rw [← runRequests_isOk, ← runRequests_next hnext]
    constructor
    · intro h _
      by_contra hfailed
      exact hdone (h (Bool.eq_false_iff.mpr hfailed))
    · intro h hfailed
      rw [h hnext] at hfailed
      cases hfailed
  · refine iff_of_true (fun hfailed => ?_) fun h => absurd h hnext
    obtain ⟨acts, hacts, -, hnothing⟩ := hpass.last hnext rest
    obtain ⟨hsame, hok⟩ := runRequests_last hnext
    have hlost : (runRequests controller call payload (first :: rest) start).1.acts = acts := by
      have happend : (runRequest controller call start first payload).1.acts = start.acts ++ acts :=
        hacts
      rw [hsame, happend, hstart, nil_append]
    rw [hlost]
    rw [hok] at hfailed
    exact hnothing (by simpa using hfailed)

/-- What `run_internal` returns with a summary is accounted for. -/
theorem runInternal_accounted {summary : RunSummary}
    (h : (runInternal controller call components (.ok plan)).2 = .ok summary) :
    summary.receipts =
      (executedOf (runInternal controller call components (.ok plan)).1).map (·.2) ∧
    (summary.events.filter isCompleted).map effectOfEvent =
      (executedOf (runInternal controller call components (.ok plan)).1).map fun executed =>
        (some executed.2.receiptId,
          .effect executed.1.capability.asStr executed.1.requestDigest) := by
  have haccounted := runRequests_accounted plan.payload plan.requests
    (startState controller call components plan) accounted_start
  have hsummary : (runRequests controller call plan.payload plan.requests
      (startState controller call components plan)).1.summary = summary := by
    obtain ⟨result, hresult⟩ : ∃ result, (runRequests controller call plan.payload plan.requests
        (startState controller call components plan)).2 = result := ⟨_, rfl⟩
    unfold runInternal at h
    dsimp only at h
    rw [hresult] at h
    cases result with
    | error e => cases h
    | ok u => exact Except.ok.inj h
  rw [← hsummary]
  refine ⟨haccounted.receipts, ?_⟩
  have hcompleted := congrArg (List.map effectOfEvent) haccounted.completed
  rw [map_map] at hcompleted
  exact hcompleted

end

/-- **Effects and their evidence.** Whatever the plan, the policy and the executors: the acts are
orderly, a summary accounts for all effects, and no evidence is discarded, if and only if no request
after the first finds its approval refused by `consume_grant`. -/
theorem effects_accounted_iff (controller : Controller sha json ω) (call : Call)
    (components : Components ω) (prepared : Except RuntimeError (Plan sha json)) :
    EvidenceKept controller call (plannedRequests prepared)
      (runInternal controller call components prepared) ↔
    ∀ plan, prepared = .ok plan → LaterGrantsConsumed controller call components plan := by
  rcases prepared with error | plan
  · refine iff_of_true ⟨.nil _, fun _ h => ?_, fun _ h => ?_, fun _ => rfl⟩ fun _ h => ?_
    all_goals cases h
  have horderly : Orderly controller call plan.requests
      (runInternal controller call components (.ok plan)).1 := by
    obtain ⟨acts, hacts, horderly⟩ := runRequests_orderly plan.payload plan.requests
      (startState controller call components plan)
    have hrun : (runInternal controller call components (.ok plan)).1 = acts := hacts
    rw [hrun]
    exact horderly
  have hkept : EvidenceKept controller call plan.requests
        (runInternal controller call components (.ok plan)) ↔
      ((runInternal controller call components (.ok plan)).2.isOk = false →
        executedOf (runInternal controller call components (.ok plan)).1 = []) := by
    refine ⟨fun h => h.undiscarded, fun h => ⟨horderly, fun summary hsummary => ?_,
      fun summary hsummary => ?_, h⟩⟩
    · exact (runInternal_accounted hsummary).1
    · exact (runInternal_accounted hsummary).2
  have hcondition : (∀ plan', (Except.ok plan : Except RuntimeError _) = .ok plan' →
      LaterGrantsConsumed controller call components plan') ↔
      LaterGrantsConsumed controller call components plan := by
    refine ⟨fun h => h plan rfl, fun h plan' heq => ?_⟩
    cases heq
    exact h
  have hok : (runInternal controller call components (.ok plan)).2.isOk =
      (runRequests controller call plan.payload plan.requests
        (startState controller call components plan)).2.isOk := by
    unfold runInternal
    dsimp only
    rcases (runRequests controller call plan.payload plan.requests
      (startState controller call components plan)).2 with _ | _
    · rfl
    · rfl
  have hacts : (runInternal controller call components (.ok plan)).1 =
      (runRequests controller call plan.payload plan.requests
        (startState controller call components plan)).1.acts := rfl
  unfold plannedRequests
  dsimp only
  rw [hkept, hcondition, hok, hacts]
  unfold LaterGrantsConsumed
  rcases hrequests : plan.requests with _ | ⟨first, rest⟩
  · exact iff_of_true (fun h => nomatch h) trivial
  · exact undiscarded_iff rfl

/-! ### A plan of two requests -/

section

open Governance.RequestBinding (sampleSha sampleJson sampleLib sampleMain)

/-- Every read answers with one byte. -/
def sampleExecutors : Executors sampleSha sampleJson Unit where
  path := .ok
  command := .ok
  inventory _ consumed _ := ((), ⟨receiptFor consumed, .ok []⟩)
  search _ consumed _ _ := ((), ⟨receiptFor consumed, .ok []⟩)
  read _ consumed _ := ((), ⟨receiptFor consumed, .ok [120]⟩)
  runVerification _ consumed _ := ((), ⟨receiptFor consumed, .ok []⟩)
  writePatch _ consumed _ _ := ((), ⟨receiptFor consumed, .ok ()⟩)
  fetch _ consumed _ := ((), ⟨receiptFor consumed, .ok none⟩)
  executeWasm _ consumed _ := ((), ⟨receiptFor consumed, .ok []⟩)
where
  receiptFor (consumed : ConsumedPermit sampleSha sampleJson) : EffectReceipt :=
    ⟨.ofLiteral "receipt-1", consumed.permit.permitId, consumed.request.requestDigest,
      consumed.consumedAt, .succeeded⟩

/-- Reading needs an approval. -/
def approvalPolicy : PolicyContext := ⟨1, {.filesystemRead}, {.read}⟩

def sampleController : Controller sampleSha sampleJson Unit where
  parliament := ⟨1⟩
  policy := approvalPolicy
  hookDenial _ := none
  executors := sampleExecutors

/-- The approval that was given for the first request. -/
def sampleApproval : Pandora.Governance.Approvals.ApprovalRow where
  id := "approval-1"
  sessionId := "session-1"
  executionId := "execution-1"
  principalId := "principal-1"
  geneId := "workspace.read"
  requestDigest := sampleLib.requestDigest.text
  requestSummary := "read src/lib.rs"
  policyVersion := 1
  expiresAt := 100
  status := "approved"
  approverId := some "principal-2"
  resolvedAt := some 15
  createdAt := 10

def sampleComponents : Components Unit where
  monitor := .newWithPolicy approvalPolicy 60
  approvals := ⟨[sampleApproval], nodup_singleton _⟩
  world := ()

def samplePlan : Plan sampleSha sampleJson where
  executionId := .ofLiteral "execution-1"
  selectedHarness := .ofLiteral "harness-1"
  selectedGene := .ofLiteral "workspace.read"
  requests := [sampleLib, sampleMain]
  payload := none
  staticOutput := none

def sampleCall : Call where
  session := ⟨.ofLiteral "session-1", .ofLiteral "principal-1", .ofLiteral "tenant-1",
    .ofLiteral "workspace-1", 5⟩
  now := 20
  approval := some "approval-1"
  allowUnrequiredApproval := false

/-- The first request is carried out under the approval; the second finds it consumed, and the
evidence of the first is gone. -/
theorem second_grant_discards_evidence :
    ¬ EvidenceKept sampleController sampleCall (plannedRequests (.ok samplePlan))
      (runInternal sampleController sampleCall sampleComponents (.ok samplePlan)) := by
  intro h
  have hlost : (runInternal sampleController sampleCall sampleComponents (.ok samplePlan)).2.isOk =
      false := by decide +kernel
  have hone : (executedOf (runInternal sampleController sampleCall sampleComponents
      (.ok samplePlan)).1).length = 1 := by decide +kernel
  rw [h.undiscarded hlost] at hone
  cases hone

end

end Pandora.Execution.Effects
