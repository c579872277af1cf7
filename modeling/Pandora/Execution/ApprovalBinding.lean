import Pandora.Execution.Effects
import Pandora.Governance.ApprovalHistory

/-! # The approval of a blocked run

`create_approval` of `service.rs`: the run has stopped at a request that needs an approval, and the
approval is made from the summary of the run. The request is not named in the summary; what is taken
is the first event that carries an effect, and that is the first request of the plan. -/

namespace Pandora.Execution.ApprovalBinding

open Text Ids Lib.Checked Lib.Tables Effect.Request Governance.Policy Governance.Monitor List
  Governance.Approvals
open Governance.ApprovalHistory hiding Call
open Sessions.Journal (Session)
open Subagents.Store (EffectReceipt)
open Execution.Requests Execution.Effects

variable {sha : Sha256} {json : JsonWriter} {ω : Type}

/-! ## The approval -/

/-- The host of a URL, as the parser of the `url` package finds it. -/
abbrev HostParser := String → Option String

def serviceApprovalRequestSummary (hostOf : HostParser) (task capability : String) : String :=
  match strip "fetch:" task with
  | some source =>
    let host := (hostOf source).getD "network host"
    capability ++ " for fetch on " ++ host
  | none =>
    -- the first two parts of `splitn(3, ':')`
    let parts := (task.toList.splitOn ':').map String.ofList
    let action := parts[0]?.getD "task"
    let target := parts[1]?.getD "workspace"
    capability ++ " for " ++ action ++ " on " ++ target

/-- The capability and the digest of an event that carries an effect. -/
def effectOf (event : RuntimeEvent) : Option (String × RequestDigest) :=
  match event.payload with
  | .effect capability requestDigest => some (capability, requestDigest)
  | _ => none

/-- The approval that `create_approval` derives from the summary. -/
def deriveApproval (hostOf : HostParser) (policyVersion : UInt32) (task : String)
    (session : Session) (summary : RunSummary) (now : ℕ) :
    Except ApprovalError ApprovalRequest := do
  let effect ← orError (summary.events.findSome? effectOf) .invalidSummary
  let expiresAt := min (now + 900) (2 ^ 64 - 1)
  ApprovalRequest.new ("approval-" ++ session.id.text ++ "-" ++ summary.executionId.text) session.id
    summary.executionId session.principalId summary.selectedGene effect.2
    (serviceApprovalRequestSummary hostOf task effect.1) policyVersion expiresAt

/-! ## Where a run stops -/

section

variable (controller : Controller sha json ω) (call : Call)

/-- The loop gets past the requests, from one state to another. -/
inductive Reaches (payload : Option (List UInt8)) :
    List (OperationRequest sha json) → RunState sha json ω → RunState sha json ω → Prop
  | nil (s : RunState sha json ω) : Reaches payload [] s s
  | cons {request : OperationRequest sha json} {rest : List (OperationRequest sha json)}
      {s s' : RunState sha json ω}
      (hnext : (runRequest controller call s request payload).2 = .next)
      (hrest : Reaches payload rest (runRequest controller call s request payload).1 s') :
      Reaches payload (request :: rest) s s'

/-- The run stops at a request. -/
structure StopsAt (components : Components ω) (plan : Plan sha json)
    (before : List (OperationRequest sha json)) (blocked : OperationRequest sha json)
    (after : List (OperationRequest sha json)) : Prop where
  planned : plan.requests = before ++ blocked :: after
  stopped : ∃ s, Reaches controller call plan.payload before
      (startState controller call components plan) s ∧
    (runRequest controller call s blocked plan.payload).2 = .stop

/-! ## What the approval is good for -/

/-- The approval as it is stored when it has been allowed. -/
def approved (approval : ApprovalRequest) (approverId : PrincipalId) (createdAt : ℕ) :
    PendingApproval :=
  { created approval createdAt with status := .approved, approverId := some approverId }

/-- The approval has been allowed, and has time left. -/
def Allowed (db : ApprovalDb) (approval : ApprovalRequest) (now : ℕ) : Prop :=
  (∃ approverId createdAt, Stored db approval.id (approved approval approverId createdAt)) ∧
    now < approval.expiresAt ∧ now < 2 ^ 63

/-- The run is resumed under an approval: `run_with_approval`. -/
def resumedCall (id : String) (now : ℕ) : Call :=
  { call with now, approval := some id, allowUnrequiredApproval := false }

/-- A resumed run presents at the request a grant that matches it. -/
def Presents (components : Components ω) (plan : Plan sha json)
    (before : List (OperationRequest sha json)) (blocked : OperationRequest sha json)
    (id : String) (now : ℕ) : Prop :=
  ∃ s, Reaches controller (resumedCall call id now) plan.payload before
      (startState controller (resumedCall call id now) components plan) s ∧
    controller.hookDenial blocked = none ∧
    (controller.parliament.decide blocked controller.policy).requiresApproval = true ∧
    ∃ approvals grant, consumeGrant s.approvals id blocked.principalId blocked.sessionId
        blocked.executionId blocked.geneId blocked.requestDigest now = (approvals, .ok grant) ∧
      grant.matchesRequest blocked controller.policy.policyVersion = true

/-- The approval of the run is that of the request at which the run stopped: it carries its digest
and its capability, and once it is allowed, a run that is resumed under it presents it there. -/
def Bound (components : Components ω) (plan : Plan sha json) (summary : RunSummary) : Prop :=
  ∃ before blocked after, StopsAt controller call components plan before blocked after ∧
    ∀ hostOf task approval,
      deriveApproval hostOf controller.policy.policyVersion task call.session summary call.now =
        .ok approval →
      (approval.requestDigest = blocked.requestDigest ∧ approval.requestSummary =
          redactSummary (serviceApprovalRequestSummary hostOf task blocked.capability.asStr)) ∧
      ∀ (resumed : Components ω) (now : ℕ), Allowed resumed.approvals approval now →
        Presents controller call resumed plan before blocked approval.id now

/-- The run was stopped by its first request, and that request is one of the run. -/
def FirstBlocks (plan : Plan sha json) : Prop :=
  ∃ first rest, plan.requests = first :: rest ∧
    (controller.parliament.decide first controller.policy).requiresApproval = true ∧
    first.sessionId = call.session.id ∧ first.executionId = plan.executionId ∧
    first.principalId = call.session.principalId ∧ first.geneId = plan.selectedGene

end

/-! ## What a pass does to the summary -/

variable {controller : Controller sha json ω} {call : Call} {request : OperationRequest sha json}
  {s s' s'' : RunState sha json ω}

/-- Events are added, and the rest of what an approval is made from stays. -/
structure Extends (s s' : RunState sha json ω) : Prop where
  events : s.summary.events <+: s'.summary.events
  status : s'.summary.status = s.summary.status
  executionId : s'.summary.executionId = s.summary.executionId
  selectedGene : s'.summary.selectedGene = s.summary.selectedGene

namespace Extends

theorem refl (s : RunState sha json ω) : Extends s s := ⟨prefix_rfl, rfl, rfl, rfl⟩

theorem trans (h : Extends s s') (h' : Extends s' s'') : Extends s s'' :=
  ⟨h.events.trans h'.events, h'.status.trans h.status, h'.executionId.trans h.executionId,
    h'.selectedGene.trans h.selectedGene⟩

theorem push (s : RunState sha json ω) (event : RuntimeEvent) : Extends s (s.push event) :=
  ⟨prefix_append _ _, rfl, rfl, rfl⟩

theorem output (s : RunState sha json ω) (output : List UInt8) : Extends s (s.withOutput output) :=
  ⟨prefix_rfl, rfl, rfl, rfl⟩

end Extends

theorem extends_completed (s : RunState sha json ω) (receipt : EffectReceipt) (succeeded : Bool) :
    Extends s (completed controller call s request receipt succeeded) := by
  unfold completed
  dsimp only
  refine Extends.trans ?_ (.push _ _)
  exact ⟨prefix_rfl, rfl, rfl, rfl⟩

theorem extends_finish {α : Type} {consumed : ConsumedPermit sha json} {answer : ω × Response α}
    {succeed : RunState sha json ω → α → RunState sha json ω × Except RuntimeError Unit}
    (hsucceed : ∀ s value, Extends s (succeed s value).1) :
    Extends s (finish controller call s consumed answer succeed).1 := by
  have hworld : Extends s { s with world := answer.1 } := ⟨prefix_rfl, rfl, rfl, rfl⟩
  unfold finish
  split
  · exact hworld.trans (extends_completed _ _ _)
  · dsimp only
    exact hworld.trans ((hsucceed _ _).trans (extends_completed _ _ _))

theorem extends_readOutput {path : String} {bytes : List UInt8} :
    Extends s (readOutput request path s bytes).1 := by
  unfold readOutput
  split_ifs with hlabeled
  all_goals exact .output s _

theorem extends_read {consumed : ConsumedPermit sha json} :
    Extends s (executeRead controller call s consumed).1 := by
  unfold executeRead
  dsimp only
  split
  · exact .refl s
  · split_ifs
    all_goals
      split
      · exact .refl s
      · exact extends_finish fun _ _ => extends_readOutput

theorem extends_process {consumed : ConsumedPermit sha json} :
    Extends s (executeProcess controller call s consumed).1 := by
  unfold executeProcess
  split
  · split
    · exact .refl s
    · refine extends_finish fun s stdout => ?_
      dsimp only
      split_ifs with houtput
      · exact .output s _
      · exact .refl s
  · exact .refl s

theorem extends_write {consumed : ConsumedPermit sha json} {payload : Option (List UInt8)} :
    Extends s (executeWrite controller call s consumed payload).1 := by
  unfold executeWrite
  split
  · exact .refl s
  · split
    · exact .refl s
    · exact .refl s
    · exact extends_finish fun s _ => .refl s

theorem extends_network {consumed : ConsumedPermit sha json} {payload : Option (List UInt8)} :
    Extends s (executeNetwork controller call s consumed payload).1 := by
  unfold executeNetwork
  split
  · exact .refl s
  · split
    · exact .refl s
    · refine extends_finish fun s text => ?_
      rcases text with _ | text
      · exact .refl s
      · exact .output s _

theorem extends_wasm {consumed : ConsumedPermit sha json} {payload : Option (List UInt8)} :
    Extends s (executeWasm controller call s consumed payload).1 := by
  unfold executeWasm
  split
  · exact .refl s
  · exact extends_finish fun s _ => .output s _

theorem extends_request {consumed : ConsumedPermit sha json} {payload : Option (List UInt8)} :
    Extends s (executeRequest controller call s consumed payload).1 := by
  unfold executeRequest
  split
  · exact extends_read
  · exact extends_process
  · exact extends_write
  · exact extends_network
  · exact extends_wasm
  · exact .refl s

/-- The pass is stopped because an approval is missing. -/
def Blocks (controller : Controller sha json ω) (call : Call)
    (request : OperationRequest sha json) : Prop :=
  controller.hookDenial request = none ∧
    (controller.parliament.decide request controller.policy).requiresApproval = true ∧
    call.approval = none

/-- The Parliament finds an approval where it wants one, and where it does not, none is held against
the run. -/
def Proceeds (controller : Controller sha json ω) (call : Call)
    (request : OperationRequest sha json) : Prop :=
  if (controller.parliament.decide request controller.policy).requiresApproval then
    call.approval.isSome = true
  else ¬ (call.approval.isSome = true ∧ call.allowUnrequiredApproval = false)

/-- How a pass leaves the summary: the events go on, and the status is changed only by the last
pass; it asks for an approval only if one is missing. -/
structure Leaves (controller : Controller sha json ω) (call : Call)
    (request : OperationRequest sha json) (s s' : RunState sha json ω) (outcome : Outcome) :
    Prop where
  events : s.summary.events <+: s'.summary.events
  executionId : s'.summary.executionId = s.summary.executionId
  selectedGene : s'.summary.selectedGene = s.summary.selectedGene
  next : outcome = .next → s'.summary.status = s.summary.status
  stop : outcome = .stop → ∀ reason, s'.summary.status = .approvalRequired reason →
    Blocks controller call request

namespace Leaves

variable {outcome : Outcome}

theorem after (h : Extends s s') (h' : Leaves controller call request s' s'' outcome) :
    Leaves controller call request s s'' outcome :=
  ⟨h.events.trans h'.events, h'.executionId.trans h.executionId,
    h'.selectedGene.trans h.selectedGene, fun hnext => (h'.next hnext).trans h.status, h'.stop⟩

theorem failure (s : RunState sha json ω) (error : RuntimeError) :
    Leaves controller call request s (recordFailure controller call s error) .stop := by
  unfold recordFailure
  dsimp only
  refine ⟨prefix_append _ _, rfl, rfl, nofun, fun _ reason h => ?_⟩
  cases h

theorem denied (s : RunState sha json ω) (event : RuntimeEvent) (reason : String) :
    Leaves controller call request s ((s.push event).withStatus (.denied reason)) .stop := by
  refine ⟨prefix_append _ _, rfl, rfl, nofun, fun _ reason h => ?_⟩
  cases h

end Leaves

theorem leaves_usePermit {permit : EffectPermit} {payload : Option (List UInt8)} :
    Leaves controller call request s (usePermit controller call s request permit payload).1
      (usePermit controller call s request permit payload).2 := by
  have hissued : Extends s (s.act (.issued request permit)) := ⟨prefix_rfl, rfl, rfl, rfl⟩
  unfold usePermit
  dsimp only
  split
  · exact .after hissued (.failure _ _)
  · rename_i store consumed hconsume
    -- the state in which the executor is called
    set ready : RunState sha json ω := RunState.act { (s.act (.issued request permit)) with
        monitor := { (s.act (.issued request permit)).monitor with store } }
      (.consumed request permit)
    have hready : Extends s ready := ⟨prefix_rfl, rfl, rfl, rfl⟩
    have hexecuted := @extends_request _ _ _ controller call ready consumed payload
    split
    · rename_i after error hresult
      rw [hresult] at hexecuted
      exact .after (hready.trans hexecuted) (.failure _ _)
    · rename_i after hresult
      rw [hresult] at hexecuted
      have hall := hready.trans hexecuted
      exact ⟨hall.events, hall.executionId, hall.selectedGene, fun _ => hall.status, nofun⟩

/-- The state after the request has been announced. -/
def announced (controller : Controller sha json ω) (call : Call) (s : RunState sha json ω)
    (request : OperationRequest sha json) : RunState sha json ω :=
  s.push (eventOf controller call s .effectRequested none
    (.effect request.capability.asStr request.requestDigest))

/-- One pass: the request is announced, and what follows leaves the summary as `Leaves` says. -/
theorem runRequest_leaves (s : RunState sha json ω) (request : OperationRequest sha json)
    (payload : Option (List UInt8)) :
    Leaves controller call request (announced controller call s request)
      (runRequest controller call s request payload).1
      (runRequest controller call s request payload).2 ∧
    ((runRequest controller call s request payload).2 = .next →
      Proceeds controller call request) := by
  unfold runRequest Proceeds
  dsimp only
  split
  · rename_i reason hhook
    exact ⟨.denied _ _ _, nofun⟩
  · rename_i hhook
    -- the state in which the Parliament is asked
    set asked : RunState sha json ω := RunState.act (s.push (eventOf controller call s
      .effectRequested none (.effect request.capability.asStr request.requestDigest)))
      (.hookPassed request)
    have hasked : Extends (announced controller call s request) asked :=
      ⟨prefix_rfl, rfl, rfl, rfl⟩
    split
    · rename_i digest version reason hdecision
      have hfree : ¬ (controller.parliament.decide request controller.policy).requiresApproval =
          true := by
        rw [hdecision]
        exact Bool.false_ne_true
      rw [if_neg hfree]
      split_ifs with hunrequired
      · exact ⟨.after hasked (.failure _ _), nofun⟩
      · have happroved := hasked.trans (.push asked (eventOf controller call asked .policyApproved
          none (.policy reason)))
        split
        · refine ⟨.after happroved (.after ?_ (.failure _ _)), nofun⟩
          exact ⟨prefix_rfl, rfl, rfl, rfl⟩
        · refine ⟨.after happroved (.after ?_ leaves_usePermit), fun _ => hunrequired⟩
          exact ⟨prefix_rfl, rfl, rfl, rfl⟩
    · exact ⟨.after hasked (.denied _ _ _), nofun⟩
    · rename_i digest version reason hdecision
      have hneeded : (controller.parliament.decide request controller.policy).requiresApproval =
          true := by rw [hdecision]; rfl
      rw [if_pos hneeded]
      split
      · rename_i happroval
        refine ⟨.after hasked ?_, nofun⟩
        exact ⟨prefix_append _ _, rfl, rfl, nofun, fun _ _ _ => ⟨hhook, hneeded, happroval⟩⟩
      · rename_i id happroval
        split
        · refine ⟨.after hasked ?_, nofun⟩
          exact ⟨prefix_rfl, rfl, rfl, nofun, nofun⟩
        · rename_i approvals grant hgrant
          have happroved : Extends asked (RunState.push { asked with approvals }
              (eventOf controller call { asked with approvals } .policyApproved none
                (.policy ("explicit approval consumed: " ++ reason)))) :=
            ⟨prefix_append _ _, rfl, rfl, rfl⟩
          split
          · refine ⟨.after (hasked.trans happroved) (.after ?_ (.failure _ _)), nofun⟩
            exact ⟨prefix_rfl, rfl, rfl, rfl⟩
          · refine ⟨.after (hasked.trans happroved) (.after ?_ leaves_usePermit), fun _ => ?_⟩
            · exact ⟨prefix_rfl, rfl, rfl, rfl⟩
            · rw [happroval]
              rfl

/-! ## What the loop does to the summary -/

section

variable {payload : Option (List UInt8)} {before rest requests : List (OperationRequest sha json)}

/-- The loop gets to its end, or to the request at which it stops. -/
theorem runRequests_ends (requests : List (OperationRequest sha json)) (s : RunState sha json ω)
    (h : (runRequests controller call payload requests s).2 = .ok ()) :
    Reaches controller call payload requests s (runRequests controller call payload requests s).1 ∨
      ∃ before blocked after s', requests = before ++ blocked :: after ∧
        Reaches controller call payload before s s' ∧
        (runRequest controller call s' blocked payload).2 = .stop ∧
        (runRequests controller call payload requests s).1 =
          (runRequest controller call s' blocked payload).1 := by
  induction requests generalizing s with
  | nil => exact Or.inl (.nil s)
  | cons request rest ih =>
    by_cases hnext : (runRequest controller call s request payload).2 = .next
    · have hthen : runRequests controller call payload (request :: rest) s =
          runRequests controller call payload rest
            (runRequest controller call s request payload).1 := runRequests_next hnext
      rw [hthen] at h ⊢
      rcases ih _ h with hall | ⟨before, blocked, after, s', hsplit, hreaches, hstop, hsame⟩
      · exact Or.inl (.cons hnext hall)
      · refine Or.inr ⟨request :: before, blocked, after, s', ?_, .cons hnext hreaches, hstop,
          hsame⟩
        rw [hsplit]
        rfl
    · obtain ⟨hsame, hok⟩ := @runRequests_last _ _ _ controller call request s payload rest hnext
      refine Or.inr ⟨[], request, rest, s, rfl, .nil s, ?_, hsame⟩
      rw [h] at hok
      rcases houtcome : (runRequest controller call s request payload).2 with _ | _ | error
      · exact absurd houtcome hnext
      · rfl
      · rw [houtcome] at hok
        cases hok

theorem Reaches.status (h : Reaches controller call payload requests s s') :
    s'.summary.status = s.summary.status := by
  induction h with
  | nil s => rfl
  | cons hnext hrest ih => rw [ih, (runRequest_leaves _ _ _).1.next hnext]; rfl

theorem Reaches.first (h : Reaches controller call payload (request :: rest) s s') :
    Proceeds controller call request := by
  cases h with
  | cons hnext hrest => exact (runRequest_leaves _ _ _).2 hnext

theorem runRequests_extends (requests : List (OperationRequest sha json))
    (s : RunState sha json ω) :
    s.summary.events <+: (runRequests controller call payload requests s).1.summary.events ∧
      (runRequests controller call payload requests s).1.summary.executionId =
        s.summary.executionId ∧
      (runRequests controller call payload requests s).1.summary.selectedGene =
        s.summary.selectedGene := by
  induction requests generalizing s with
  | nil => exact ⟨prefix_rfl, rfl, rfl⟩
  | cons request rest ih =>
    have hpass := (@runRequest_leaves _ _ _ controller call s request payload).1
    have hannounced : s.summary.events <+: (announced controller call s request).summary.events :=
      prefix_append _ _
    by_cases hnext : (runRequest controller call s request payload).2 = .next
    · obtain ⟨hevents, hexecution, hgene⟩ := ih (runRequest controller call s request payload).1
      rw [runRequests_next hnext]
      exact ⟨hannounced.trans (hpass.events.trans hevents), hexecution.trans hpass.executionId,
        hgene.trans hpass.selectedGene⟩
    · rw [(runRequests_last hnext).1]
      exact ⟨hannounced.trans hpass.events, hpass.executionId, hpass.selectedGene⟩

end

/-- The first event that carries an effect is that of the first request. -/
theorem findSome?_effectOf {components : Components ω} {plan : Plan sha json}
    {first : OperationRequest sha json} {rest : List (OperationRequest sha json)}
    (hplan : plan.requests = first :: rest) :
    (runRequests controller call plan.payload plan.requests
      (startState controller call components plan)).1.summary.events.findSome? effectOf =
      some (first.capability.asStr, first.requestDigest) := by
  set start := startState controller call components plan with hstart
  have hpass := (@runRequest_leaves _ _ _ controller call start first plan.payload).1
  have hevents : (announced controller call start first).summary.events <+:
      (runRequests controller call plan.payload plan.requests start).1.summary.events := by
    rw [hplan]
    by_cases hnext : (runRequest controller call start first plan.payload).2 = .next
    · rw [runRequests_next hnext]
      exact hpass.events.trans (runRequests_extends _ _).1
    · rw [(runRequests_last hnext).1]
      exact hpass.events
  obtain ⟨later, hlater⟩ := hevents
  rw [← hlater, List.findSome?_append]
  -- the first event is the start of the session
  have hfirst : (announced controller call start first).summary.events.findSome? effectOf =
      some (first.capability.asStr, first.requestDigest) := rfl
  rw [hfirst]
  rfl

theorem runInternal_eq_ok {components : Components ω} {plan : Plan sha json} {summary : RunSummary}
    (h : (runInternal controller call components (.ok plan)).2 = .ok summary) :
    (runRequests controller call plan.payload plan.requests
        (startState controller call components plan)).2 = .ok () ∧
      (runRequests controller call plan.payload plan.requests
        (startState controller call components plan)).1.summary = summary := by
  unfold runInternal at h
  dsimp only at h
  rcases hresult : (runRequests controller call plan.payload plan.requests
    (startState controller call components plan)).2 with error | ⟨⟩
  · rw [hresult] at h
    cases h
  · rw [hresult] at h
    exact ⟨rfl, Except.ok.inj h⟩

/-! ## What is derived -/

theorem new_eq_ok {id : String} {sessionId : SessionId} {executionId : ExecutionId}
    {principalId : PrincipalId} {geneId : GeneId} {requestDigest : RequestDigest}
    {requestSummary : String} {policyVersion : UInt32} {expiresAt : ℕ} {approval : ApprovalRequest}
    (h : ApprovalRequest.new id sessionId executionId principalId geneId requestDigest
      requestSummary policyVersion expiresAt = .ok approval) :
    approval.id = id ∧ approval.sessionId = sessionId ∧ approval.executionId = executionId ∧
      approval.principalId = principalId ∧ approval.geneId = geneId ∧
      approval.requestDigest = requestDigest ∧
      approval.requestSummary = redactSummary requestSummary ∧
      approval.policyVersion = policyVersion ∧ approval.expiresAt = expiresAt := by
  unfold ApprovalRequest.new at h
  dsimp only at h
  split_ifs at h with hinvalid
  cases h
  exact ⟨rfl, rfl, rfl, rfl, rfl, rfl, rfl, rfl, rfl⟩

/-- The approval of a run that stopped: everything but the digest and the summary is that of the
run, and these are those of the first request. -/
structure Derived (hostOf : HostParser) (policyVersion : UInt32) (task : String)
    (session : Session) (plan : Plan sha json) (first : OperationRequest sha json) (now : ℕ)
    (approval : ApprovalRequest) : Prop where
  id : approval.id = "approval-" ++ session.id.text ++ "-" ++ plan.executionId.text
  sessionId : approval.sessionId = session.id
  executionId : approval.executionId = plan.executionId
  principalId : approval.principalId = session.principalId
  geneId : approval.geneId = plan.selectedGene
  requestDigest : approval.requestDigest = first.requestDigest
  requestSummary : approval.requestSummary =
    redactSummary (serviceApprovalRequestSummary hostOf task first.capability.asStr)
  policyVersion : approval.policyVersion = policyVersion
  expiresAt : approval.expiresAt = min (now + 900) (2 ^ 64 - 1)

section

variable {components : Components ω} {plan : Plan sha json} {summary : RunSummary}
  {first : OperationRequest sha json} {rest : List (OperationRequest sha json)}
  {hostOf : HostParser} {task : String} {approval : ApprovalRequest}

theorem deriveApproval_eq (hplan : plan.requests = first :: rest)
    (h : (runInternal controller call components (.ok plan)).2 = .ok summary) :
    deriveApproval hostOf controller.policy.policyVersion task call.session summary call.now =
      ApprovalRequest.new ("approval-" ++ call.session.id.text ++ "-" ++ plan.executionId.text)
        call.session.id plan.executionId call.session.principalId plan.selectedGene
        first.requestDigest (serviceApprovalRequestSummary hostOf task first.capability.asStr)
        controller.policy.policyVersion (min (call.now + 900) (2 ^ 64 - 1)) := by
  obtain ⟨-, hsummary⟩ := runInternal_eq_ok h
  obtain ⟨-, hexecution, hgene⟩ := @runRequests_extends _ _ _ controller call plan.payload
    plan.requests (startState controller call components plan)
  have heffect := @findSome?_effectOf _ _ _ controller call components plan first rest hplan
  rw [hsummary] at hexecution hgene heffect
  have hid : summary.executionId = plan.executionId := hexecution
  have hgeneId : summary.selectedGene = plan.selectedGene := hgene
  have hfound : orError (some (first.capability.asStr, first.requestDigest))
      ApprovalError.invalidSummary = .ok (first.capability.asStr, first.requestDigest) :=
    orError_eq_ok.mpr rfl
  unfold deriveApproval
  rw [heffect, hid, hgeneId, hfound, ok_bind]

theorem derived (hplan : plan.requests = first :: rest)
    (h : (runInternal controller call components (.ok plan)).2 = .ok summary)
    (happroval : deriveApproval hostOf controller.policy.policyVersion task call.session summary
      call.now = .ok approval) :
    Derived hostOf controller.policy.policyVersion task call.session plan first call.now
      approval := by
  rw [deriveApproval_eq hplan h] at happroval
  obtain ⟨h1, h2, h3, h4, h5, h6, h7, h8, h9⟩ := new_eq_ok happroval
  exact ⟨h1, h2, h3, h4, h5, h6, h7, h8, h9⟩

/-- A text with a character that is not white space is not blank. -/
theorem trim_nonblank {s : String} {c : Char} (hc : c ∈ s.toList)
    (hvisible : isWhitespace c = false) :
    ¬ (trim s).isEmpty := by
  intro hblank
  unfold trim at hblank
  rw [String.isEmpty_iff, String.ofList_eq_empty_iff, reverse_eq_nil_iff,
    dropWhile_eq_nil_iff] at hblank
  have hall := forall_mem_dropWhile fun c hc => hblank c (mem_reverse.mpr hc)
  have hwhite := dropWhile_eq_nil_iff.mp hall c hc
  rw [hvisible] at hwhite
  cases hwhite

theorem exists_derived (hplan : plan.requests = first :: rest)
    (h : (runInternal controller call components (.ok plan)).2 = .ok summary) :
    ∃ approval, deriveApproval (fun _ => none) controller.policy.policyVersion "task" call.session
      summary call.now = .ok approval := by
  rw [deriveApproval_eq hplan h]
  have hid : ¬ (trim ("approval-" ++ call.session.id.text ++ "-" ++
      plan.executionId.text)).isEmpty := by
    refine trim_nonblank (c := 'a') ?_ (by decide)
    rw [String.toList_append, String.toList_append, String.toList_append]
    exact mem_append_left _ (mem_append_left _ (mem_append_left _ (by decide)))
  have hsummary : ∀ capability : Capability,
      ¬ (trim (redactSummary (serviceApprovalRequestSummary (fun _ => none) "task"
        capability.asStr))).isEmpty ∧
      ¬ maxSummaryBytes < (redactSummary (serviceApprovalRequestSummary (fun _ => none) "task"
        capability.asStr)).utf8ByteSize := by
    intro capability
    cases capability <;> decide +kernel
  unfold ApprovalRequest.new
  obtain ⟨hnonblank, hshort⟩ := hsummary first.capability
  rw [dif_neg]
  · exact ⟨_, rfl⟩
  · rintro (hempty | hempty | hlong)
    · exact hid hempty
    · exact hnonblank hempty
    · exact hshort hlong

end

/-! ## Presenting an approval -/

/-- An approval that is allowed and has time left is consumed for the request it was made for. -/
theorem consumeGrant_ok {db : ApprovalDb} {id : String} {a : PendingApproval} {now : ℕ}
    (hstored : Stored db id a) (hstatus : a.status = .approved) (hlive : now < a.expiresAt)
    (hfits : now < 2 ^ 63) :
    ∃ db', consumeGrant db id a.principalId a.sessionId a.executionId a.geneId a.requestDigest now =
      (db', .ok ⟨{ a with status := .consumed }⟩) := by
  obtain ⟨row, hrow, hdecode⟩ := hstored
  have hload : loadApproval db id = .ok (some a) :=
    loadApproval_eq_some.mpr ⟨row, hrow, hdecode⟩
  have hstatusAt : a.statusAt now ≠ .expired := by
    unfold PendingApproval.statusAt
    rw [if_neg fun h => absurd h.2 (Nat.not_le_of_lt hlive), hstatus]
    decide
  have hexpires : row.expiresAt = a.expiresAt := by
    have hcolumn := (decodeRaw_eq_ok.mp hdecode).2.2.2.2.2.2.2.2.1
    unfold fitsU64 at hcolumn
    split_ifs at hcolumn with hpos
    have hnat : row.expiresAt.toNat = a.expiresAt := Option.some.inj hcolumn
    omega
  have hselected : decide (row.status = "approved" ∧ row.expiresAt > (now : ℤ)) = true := by
    have htext := decodeRaw_status hdecode
    rw [hstatus] at htext
    refine decide_eq_true ⟨htext, ?_⟩
    rw [hexpires]
    omega
  have hcount : changed db id (fun row => row.status = "approved" ∧ row.expiresAt > (now : ℤ)) =
      1 := by
    refine Table.countP_eq_one (k := id) selected_id hrow (decide_eq_true ?_)
    exact ⟨(Table.get?_eq_some.mp hrow).2, hselected⟩
  set db' := updateRow db id (fun row => row.status = "approved" ∧ row.expiresAt > (now : ℤ))
    (.withStatus "consumed") (fun _ => rfl) with hdb'
  have hsection : consumeApproval db id a.principalId a.sessionId a.executionId a.geneId
      a.requestDigest now = .ok (db', .ok ()) := by
    unfold consumeApproval ensurePrincipal toI64
    rw [hload, ok_bind]
    refine bind_eq_ok.mpr ⟨a, orError_eq_ok.mpr rfl, ?_⟩
    refine bind_eq_ok.mpr ⟨(), ensure_eq_ok.mpr rfl, ?_⟩
    rw [if_neg hstatusAt]
    refine bind_eq_ok.mpr ⟨(), ensure_eq_ok.mpr hstatus, ?_⟩
    refine bind_eq_ok.mpr ⟨(), ensure_eq_ok.mpr ⟨rfl, rfl, rfl⟩, ?_⟩
    refine bind_eq_ok.mpr ⟨(), ensure_eq_ok.mpr rfl, ?_⟩
    refine bind_eq_ok.mpr ⟨now, orError_eq_ok.mpr (fitsI64_eq_some.mpr ⟨hfits, rfl⟩), ?_⟩
    exact bind_eq_ok.mpr ⟨(), ensure_eq_ok.mpr hcount, rfl⟩
  have hwrite : Table.Writes db db' id (row.withStatus "consumed") :=
    updateRow_writes hrow hselected
  have hconsumed : Stored db' id { a with status := .consumed } :=
    (stored_writes hwrite (decodeRaw_withStatus hdecode .consumed)).mpr (Or.inl ⟨rfl, rfl⟩)
  have hread : inspect db' id a.principalId = .ok { a with status := .consumed } :=
    inspect_eq_ok.mpr ⟨hconsumed, rfl⟩
  refine ⟨db', ?_⟩
  unfold consumeGrant
  rw [hsection]
  simp only [Section.thenRead, hread]
  rfl

theorem exists_allowed (approval : ApprovalRequest) (hlive : 0 < approval.expiresAt) :
    ∃ db, Allowed db approval 0 := by
  let row := (newRow approval approval.expiresAt 0).withResolution true approval.principalId 0
  refine ⟨⟨[row], nodup_singleton _⟩, ⟨approval.principalId, 0, row, ?_, ?_⟩, hlive, by omega⟩
  · exact Table.get?_eq_some.mpr ⟨mem_singleton_self _, rfl⟩
  · exact decodeRaw_resolved (decodeRaw_newRow approval 0) true approval.principalId 0

theorem presented_for {db db' : ApprovalDb} {id : String} {a : PendingApproval}
    {grant : ApprovalGrant} {principalId : PrincipalId} {sessionId : SessionId}
    {executionId : ExecutionId} {geneId : GeneId} {requestDigest : RequestDigest} {now : ℕ}
    (hstored : Stored db id a)
    (h : consumeGrant db id principalId sessionId executionId geneId requestDigest now =
      (db', .ok grant)) :
    a.principalId = principalId ∧ a.sessionId = sessionId ∧ a.executionId = executionId ∧
      a.geneId = geneId := by
  have hstep := @consumeGrant_step id db principalId
    ⟨now, .consumeGrant id principalId sessionId executionId geneId requestDigest⟩
    sessionId executionId geneId requestDigest rfl
  dsimp only at hstep
  rw [h] at hstep
  simp only [Except.map] at hstep
  cases hstep with
  | consumed hcall hrow hdecode =>
    cases hcall
    obtain rfl := hstored.unique ⟨_, hrow, hdecode⟩
    exact ⟨rfl, rfl, rfl, rfl⟩

/-! ## The request at which the run stopped -/

section

variable {components : Components ω} {plan : Plan sha json} {summary : RunSummary}

/-- A run that asks for an approval has stopped at a request that needs one. -/
theorem stopsAt_of_status {reason : String}
    (h : (runInternal controller call components (.ok plan)).2 = .ok summary)
    (hstatus : summary.status = .approvalRequired reason) :
    ∃ before blocked after, StopsAt controller call components plan before blocked after ∧
      Blocks controller call blocked := by
  obtain ⟨hok, hsummary⟩ := runInternal_eq_ok h
  rcases runRequests_ends plan.requests _ hok with
    hall | ⟨before, blocked, after, s, hsplit, hreaches, hstop, hsame⟩
  · have hcompleted := hall.status
    rw [hsummary, hstatus] at hcompleted
    cases hcompleted
  · refine ⟨before, blocked, after, ⟨hsplit, s, hreaches, hstop⟩, ?_⟩
    refine (runRequest_leaves s blocked plan.payload).1.stop hstop reason ?_
    rw [← hsame, hsummary, hstatus]

theorem StopsAt.first_free {first blocked : OperationRequest sha json}
    {between after : List (OperationRequest sha json)} (happroval : call.approval = none)
    (h : StopsAt controller call components plan (first :: between) blocked after) :
    (controller.parliament.decide first controller.policy).requiresApproval = false := by
  obtain ⟨s, hreaches, -⟩ := h.stopped
  have hproceeds := hreaches.first
  unfold Proceeds at hproceeds
  by_contra hneeded
  rw [if_pos (by simpa using hneeded), happroval] at hproceeds
  cases hproceeds

/-- A resumed run does not get past a request that needs no approval. -/
theorem Presents.first_needed {first blocked : OperationRequest sha json}
    {between : List (OperationRequest sha json)} {id : String} {now : ℕ}
    (h : Presents controller call components plan (first :: between) blocked id now) :
    (controller.parliament.decide first controller.policy).requiresApproval = true := by
  obtain ⟨s, hreaches, -⟩ := h
  have hproceeds := hreaches.first
  unfold Proceeds at hproceeds
  by_contra hfree
  rw [if_neg hfree] at hproceeds
  exact hproceeds ⟨rfl, rfl⟩

theorem Bound.firstBlocks {reason : String}
    (h : (runInternal controller call components (.ok plan)).2 = .ok summary)
    (hstatus : summary.status = .approvalRequired reason)
    (hbound : Bound controller call components plan summary) :
    FirstBlocks controller call plan := by
  obtain ⟨-, blocked, -, -, hblocks⟩ := stopsAt_of_status h hstatus
  obtain ⟨before, blocked', after, hstops, hcarries⟩ := hbound
  obtain ⟨first, rest, hplan⟩ : ∃ first rest, plan.requests = first :: rest := by
    rcases hrequests : plan.requests with _ | ⟨first, rest⟩
    · have hplanned := hstops.planned
      rw [hrequests] at hplanned
      exact absurd hplanned.symm (append_ne_nil_of_right_ne_nil _ (cons_ne_nil _ _))
    · exact ⟨first, rest, rfl⟩
  obtain ⟨approval, hderive⟩ := exists_derived hplan h
  have hderived := derived hplan h hderive
  obtain ⟨db, hallowed⟩ := exists_allowed approval (by rw [hderived.expiresAt]; omega)
  have hpresents := (hcarries _ _ approval hderive).2 ⟨components.monitor, db, components.world⟩ 0
    hallowed
  rcases before with _ | ⟨first', between⟩
  · have hblocked : plan.requests = blocked' :: after := hstops.planned
    rw [hplan] at hblocked
    obtain ⟨rfl, rfl⟩ := List.cons.inj hblocked
    obtain ⟨s, hreaches, -, hneeded, approvals, grant, hgrant, -⟩ := hpresents
    cases hreaches
    obtain ⟨⟨approverId, createdAt, hstored⟩, -, -⟩ := hallowed
    obtain ⟨hprincipal, hsession, hexecution, hgene⟩ := presented_for hstored hgrant
    refine ⟨first, rest, hplan, hneeded, ?_, ?_, ?_, ?_⟩
    · exact hsession.symm.trans hderived.sessionId
    · exact hexecution.symm.trans hderived.executionId
    · exact hprincipal.symm.trans hderived.principalId
    · exact hgene.symm.trans hderived.geneId
  · -- the first request was let through without an approval, and a resumed run stops there
    have hfree := hstops.first_free hblocks.2.2
    rw [hpresents.first_needed] at hfree
    cases hfree

/-- A run that was stopped by its first request: the approval is bound. -/
theorem FirstBlocks.bound {reason : String}
    (h : (runInternal controller call components (.ok plan)).2 = .ok summary)
    (hstatus : summary.status = .approvalRequired reason)
    (hfirst : FirstBlocks controller call plan) :
    Bound controller call components plan summary := by
  obtain ⟨before, blocked, after, hstops, hblocks⟩ := stopsAt_of_status h hstatus
  obtain ⟨first, rest, hplan, hneeded, hsession, hexecution, hprincipal, hgene⟩ := hfirst
  have hnone : before = [] := by
    rcases before with _ | ⟨first', between⟩
    · rfl
    · have hsplit : plan.requests = first' :: (between ++ blocked :: after) := hstops.planned
      rw [hplan] at hsplit
      obtain rfl := (List.cons.inj hsplit).1
      rw [hstops.first_free hblocks.2.2] at hneeded
      cases hneeded
  subst hnone
  have hblocked : plan.requests = blocked :: after := hstops.planned
  rw [hplan] at hblocked
  obtain ⟨rfl, rfl⟩ := List.cons.inj hblocked
  refine ⟨[], first, rest, hstops, fun hostOf task approval hderive => ?_⟩
  have hderived := derived hplan h hderive
  refine ⟨⟨hderived.requestDigest, hderived.requestSummary⟩, fun resumed now hallowed => ?_⟩
  obtain ⟨⟨approverId, createdAt, hstored⟩, hlive, hfits⟩ := hallowed
  obtain ⟨db', hgrant⟩ := consumeGrant_ok hstored rfl hlive hfits
  refine ⟨_, .nil _, hblocks.1, hneeded, db',
    ⟨{ approved approval approverId createdAt with status := .consumed }⟩, ?_, ?_⟩
  · rw [hprincipal, hsession, hexecution, hgene, ← hderived.principalId, ← hderived.sessionId,
      ← hderived.executionId, ← hderived.geneId, ← hderived.requestDigest]
    exact hgrant
  · unfold ApprovalGrant.matchesRequest
    refine decide_eq_true ⟨?_, ?_, ?_, ?_, ?_, ?_⟩
    · exact hderived.sessionId.trans hsession.symm
    · exact hderived.executionId.trans hexecution.symm
    · exact hderived.principalId.trans hprincipal.symm
    · exact hderived.geneId.trans hgene.symm
    · exact hderived.requestDigest
    · exact hderived.policyVersion

end

/-- **The approval of a blocked run.** Where a run ends with the status that asks for an approval,
the approval made from its summary is bound to the request at which it stopped if and only if that
was the first request of the plan, planned for this run. -/
theorem approval_bound_iff (controller : Controller sha json ω) (call : Call)
    (components : Components ω) (plan : Plan sha json) (summary : RunSummary) (reason : String)
    (h : (runInternal controller call components (.ok plan)).2 = .ok summary)
    (hstatus : summary.status = .approvalRequired reason) :
    Bound controller call components plan summary ↔ FirstBlocks controller call plan :=
  ⟨Bound.firstBlocks h hstatus, FirstBlocks.bound h hstatus⟩

/-! ### A plan that reads, and then writes -/

section

open Governance.RequestBinding (sampleSha sampleJson sampleData sampleLib mainHash mainDigest)

/-- The write of the file that is read. -/
def patchData : RequestData sampleSha :=
  { sampleData "src/lib.rs" with capability := .filesystemWrite, operation := .write }

theorem sampleSha_eq_patch {message : List UInt8} (h : message.length = 490) :
    sampleSha message = mainHash := by
  unfold sampleSha
  rw [h]
  rfl

theorem calculateDigest_patch :
    calculateDigest sampleSha sampleJson patchData = .ok mainDigest := by
  have hlength : (asBytes (sampleJson patchData.canonical)).length = 490 := by decide +kernel
  have htext : "pandora-request-v2:sha256:" ++ hex mainHash.bytes = mainDigest.text := by
    decide +kernel
  unfold calculateDigest
  rw [sampleSha_eq_patch hlength, htext]
  exact Id.new_text mainDigest

def samplePatch : OperationRequest sampleSha sampleJson :=
  ⟨patchData, mainDigest, calculateDigest_patch⟩

/-- Writing needs an approval, reading does not. -/
def writePolicy : PolicyContext := ⟨1, {.filesystemRead, .filesystemWrite}, {.write}⟩

def writeController : Controller sampleSha sampleJson Unit :=
  { sampleController with policy := writePolicy }

def writeComponents : Components Unit where
  monitor := .newWithPolicy writePolicy 60
  approvals := .empty
  world := ()

def writeCall : Call := { sampleCall with approval := none }

def planOf (requests : List (OperationRequest sampleSha sampleJson)) : Plan sampleSha sampleJson :=
  { samplePlan with requests, payload := some [120] }

def summaryOf (requests : List (OperationRequest sampleSha sampleJson)) : RunSummary :=
  (runRequests writeController writeCall (planOf requests).payload requests
    (startState writeController writeCall writeComponents (planOf requests))).1.summary

/-- The file is read, and the run stops at the write; the approval is made for the read. -/
theorem approval_of_first_request :
    (runInternal writeController writeCall writeComponents
      (.ok (planOf [sampleLib, samplePatch]))).2
        = .ok (summaryOf [sampleLib, samplePatch]) ∧
      (summaryOf [sampleLib, samplePatch]).status =
        .approvalRequired "operation requires explicit approval" ∧
      ¬ Bound writeController writeCall writeComponents (planOf [sampleLib, samplePatch])
        (summaryOf [sampleLib, samplePatch]) := by
  have hrun : (runInternal writeController writeCall writeComponents
      (.ok (planOf [sampleLib, samplePatch]))).2 = .ok (summaryOf [sampleLib, samplePatch]) := by
    decide +kernel
  have hstatus : (summaryOf [sampleLib, samplePatch]).status =
      .approvalRequired "operation requires explicit approval" := by decide +kernel
  refine ⟨hrun, hstatus, fun hbound => ?_⟩
  obtain ⟨first, rest, hplan, hneeded, -⟩ := hbound.firstBlocks hrun hstatus
  obtain rfl := (List.cons.inj hplan).1
  have hfree : (writeController.parliament.decide sampleLib writeController.policy).requiresApproval
      = false := by decide +kernel
  rw [hfree] at hneeded
  cases hneeded

theorem approval_bound_iff_patch :
    Bound writeController writeCall writeComponents (planOf [samplePatch])
        (summaryOf [samplePatch]) ↔
      FirstBlocks writeController writeCall (planOf [samplePatch]) :=
  approval_bound_iff writeController writeCall writeComponents (planOf [samplePatch])
    (summaryOf [samplePatch]) "operation requires explicit approval" (by decide +kernel)
    (by decide +kernel)

end

end Pandora.Execution.ApprovalBinding
