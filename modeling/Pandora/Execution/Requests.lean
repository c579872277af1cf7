import Pandora.Governance.Monitor
import Pandora.Sessions.Journal
import Pandora.Subagents.Store

/-! # Executing the requests of a plan

`run_internal` of `execution_controller.rs`: the requests that a Gene has planned are taken one
after another. Each is shown to the hooks and to the Parliament, the monitor issues a permit for it,
the permit is consumed, and the executor of its capability carries it out. The loop is left in ten
ways.

How the Gene is chosen and what it plans is given (`Plan`); the executors and the workspace are
parameters, which may remember what was done (`ω`). What is done, and in which order, is kept in a
list beside the state (`Act`); the program does not have it. -/

namespace Pandora.Execution.Requests

open Text Ids Effect.Request
open Governance.Policy Governance.Monitor
open Governance.Approvals (ApprovalDb ApprovalError ApprovalGrant consumeGrant)
open Sessions.Journal (Session)
open Subagents.Store (EffectReceipt)

variable {sha : Sha256} {json : JsonWriter} {ω : Type}

/-! ## Errors and events -/

/-- The errors of the loop and of the executors. What comes before the loop has others. -/
inductive RuntimeError
  | invalidIntent (message : String)
  | planning (message : String)
  | approval (error : ApprovalError)
  | approvalNotRequired
  | authorization (error : AuthorizationError)
  | permit (error : PermitError)
  | filesystem (message : String)
  | network (message : String)
  | process (message : String)
  | wasm (message : String)
  | unsupportedOperation (capability : Capability)
deriving DecidableEq

def runtimeErrorCode : RuntimeError → String
  | .invalidIntent _ => "invalid_intent"
  | .planning _ => "planning_failed"
  | .approval _ => "approval_failed"
  | .approvalNotRequired => "approval_not_required"
  | .authorization _ => "authorization_failed"
  | .permit _ => "permit_failed"
  | .filesystem _ => "filesystem_failed"
  | .network _ => "network_failed"
  | .process _ => "process_failed"
  | .wasm _ => "wasm_failed"
  | .unsupportedOperation _ => "unsupported_operation"

inductive EventType
  | sessionStarted | effectRequested | policyApproved | policyDenied | approvalRequired
  | effectCompleted | executionFailed
deriving DecidableEq

structure EventContext where
  tenantId : TenantId
  workspaceId : WorkspaceId
  sessionId : SessionId
  executionId : ExecutionId
  harnessId : Option HarnessId
  geneId : Option GeneId
  policyVersion : UInt32
  receiptId : Option ReceiptId
deriving DecidableEq

inductive EventPayload
  | empty
  | effect (capability : String) (requestDigest : RequestDigest)
  | policy (reason : String)
  | failure (code : String)
deriving DecidableEq

structure RuntimeEvent where
  eventType : EventType
  context : EventContext
  payload : EventPayload
deriving DecidableEq

inductive RunStatus
  | completed
  | denied (reason : String)
  | approvalRequired (reason : String)
  | failed (code : String)
deriving DecidableEq

structure RunSummary where
  executionId : ExecutionId
  selectedHarness : HarnessId
  selectedGene : GeneId
  status : RunStatus
  output : Option (List UInt8)
  receipts : List EffectReceipt
  events : List RuntimeEvent
deriving DecidableEq

/-! ## What is given -/

/-- A receipt, and what was found or why it failed. -/
structure Response (α : Type) where
  receipt : EffectReceipt
  result : Except RuntimeError α

/-- The executors, the resolution of a path in the workspace and the parsing of a command. -/
structure Executors (sha : Sha256) (json : JsonWriter) (ω : Type) where
  (path command : String → Except RuntimeError String)
  inventory : ω → ConsumedPermit sha json → String → ω × Response (List String)
  search : ω → ConsumedPermit sha json → String → String → ω × Response (List String)
  (read runVerification : ω → ConsumedPermit sha json → String → ω × Response (List UInt8))
  writePatch : ω → ConsumedPermit sha json → String → List UInt8 → ω × Response Unit
  fetch : ω → ConsumedPermit sha json → String → ω × Response (Option (List UInt8))
  executeWasm : ω → ConsumedPermit sha json → List UInt8 → ω × Response (List UInt8)

/-- `ExecutionController`, with the reason of the first hook that denies a request. -/
structure Controller (sha : Sha256) (json : JsonWriter) (ω : Type) where
  parliament : Parliament
  policy : PolicyContext
  hookDenial : OperationRequest sha json → Option String
  executors : Executors sha json ω

/-- What comes before the loop: the route, the input of the Gene and its plan. -/
structure Plan (sha : Sha256) (json : JsonWriter) where
  executionId : ExecutionId
  selectedHarness : HarnessId
  selectedGene : GeneId
  requests : List (OperationRequest sha json)
  (payload staticOutput : Option (List UInt8))

/-- The call: the session, the time, and the approval it is made with. -/
structure Call where
  session : Session
  now : ℕ
  approval : Option String
  allowUnrequiredApproval : Bool

/-! ## The state -/

/-- What is done for a request. -/
inductive Act (sha : Sha256) (json : JsonWriter)
  | hookPassed (request : OperationRequest sha json)
  | issued (request : OperationRequest sha json) (permit : EffectPermit)
  | consumed (request : OperationRequest sha json) (permit : EffectPermit)
  | executed (request : OperationRequest sha json) (receipt : EffectReceipt) (succeeded : Bool)

/-- What a run has recorded so far. -/
structure RunState (sha : Sha256) (json : JsonWriter) (ω : Type) where
  monitor : ReferenceMonitor
  approvals : ApprovalDb
  world : ω
  summary : RunSummary
  acts : List (Act sha json)

namespace RunState

variable (s : RunState sha json ω)

def act (act : Act sha json) : RunState sha json ω := { s with acts := s.acts ++ [act] }

def push (event : RuntimeEvent) : RunState sha json ω :=
  { s with summary := { s.summary with events := s.summary.events ++ [event] } }

def withStatus (status : RunStatus) : RunState sha json ω :=
  { s with summary := { s.summary with status } }

def withOutput (output : List UInt8) : RunState sha json ω :=
  { s with summary := { s.summary with output := some output } }

end RunState

section Events

variable (controller : Controller sha json ω) (call : Call)

/-- `context`. -/
def contextOf (summary : RunSummary) (receipt : Option EffectReceipt) : EventContext where
  tenantId := call.session.tenantId
  workspaceId := call.session.workspaceId
  sessionId := call.session.id
  executionId := summary.executionId
  harnessId := some summary.selectedHarness
  geneId := some summary.selectedGene
  policyVersion := controller.policy.policyVersion
  receiptId := receipt.map (·.receiptId)

def eventOf (s : RunState sha json ω) (eventType : EventType) (receipt : Option EffectReceipt)
    (payload : EventPayload) : RuntimeEvent :=
  ⟨eventType, contextOf controller call s.summary receipt, payload⟩

def recordFailure (s : RunState sha json ω) (error : RuntimeError) : RunState sha json ω :=
  let failed := s.withStatus (.failed (runtimeErrorCode error))
  failed.push (eventOf controller call failed .executionFailed s.summary.receipts.getLast?
    (.failure (runtimeErrorCode error)))

/-! ## Executing a request -/

def inventoryGenes : List String :=
  ["daedalus.audit", "evidence.inventory", "design.inventory", "operations.inventory",
    "debugging.inventory", "data.inventory"]

/-- The Genes that search for fixed markers. -/
def markerGenes : List String :=
  ["ariadne.debt", "citation.inventory", "design.tokens", "accessibility.evidence",
    "deployment.evidence", "security.assess", "security.audit", "security.scan",
    "security.deep-scan", "security.diff-scan", "security.dependencies", "security.threat-model",
    "security.discovery", "security.triage", "security.attack-path", "security.validation",
    "security.fix", "security.verify-fix", "security.writeup", "security.track",
    "security.hardening", "security.policy", "debugging.failures", "debugging.tests",
    "debugging.regressions", "debugging.diagnostics", "data.schema", "data.quality",
    "data.lineage", "data.analysis"]

def searchGenes : List String :=
  ["workspace.search", "evidence.search", "operations.search"] ++ markerGenes

/-- The Genes whose results are appended to the output, under the path. -/
def labeledGenes : List String :=
  ["source.compare", "design.compare", "config.compare"] ++ markerGenes

def outputGenes : List String :=
  ["workspace.status", "workspace.diff", "workspace.log", "workspace.refs"]

def appendLabeledOutput (s : RunState sha json ω) (label : String) (bytes : List UInt8) :
    RunState sha json ω :=
  let output := s.summary.output.getD []
  let output := if output = [] then output else output ++ [10]
  s.withOutput (output ++ asBytes label ++ asBytes ":\n" ++ bytes)

/-- The receipt and the event of an effect that was carried out. -/
def completed (s : RunState sha json ω) (request : OperationRequest sha json)
    (receipt : EffectReceipt) (succeeded : Bool) : RunState sha json ω :=
  let s := s.act (.executed request receipt succeeded)
  let s := { s with summary := { s.summary with receipts := s.summary.receipts ++ [receipt] } }
  s.push (eventOf controller call s .effectCompleted (some receipt)
    (.effect request.capability.asStr request.requestDigest))

/-- An executor has answered: the evidence is recorded, and then its result is looked at. -/
def finish {α : Type} (s : RunState sha json ω) (consumed : ConsumedPermit sha json)
    (answer : ω × Response α)
    (succeed : RunState sha json ω → α → RunState sha json ω × Except RuntimeError Unit) :
    RunState sha json ω × Except RuntimeError Unit :=
  let s := { s with world := answer.1 }
  match answer.2.result with
  | .error error =>
    (completed controller call s consumed.request answer.2.receipt false, .error error)
  | .ok value =>
    let after := succeed s value
    (completed controller call after.1 consumed.request answer.2.receipt after.2.isOk, after.2)

def pathTarget (request : OperationRequest sha json) : Except RuntimeError String :=
  match request.target with
  | .path path => .ok path
  | _ => .error (.unsupportedOperation request.capability)

/-- A result that is the output, or a part of it. -/
def readOutput (request : OperationRequest sha json) (path : String) (s : RunState sha json ω)
    (bytes : List UInt8) : RunState sha json ω × Except RuntimeError Unit :=
  if request.geneId.text ∈ labeledGenes then (appendLabeledOutput s path bytes, .ok ())
  else (s.withOutput bytes, .ok ())

def joinLines (lines : List String) : List UInt8 := asBytes ("\n".intercalate lines)

/-- `execute_request`, for a request with the capability to read files. -/
def executeRead (s : RunState sha json ω) (consumed : ConsumedPermit sha json) :
    RunState sha json ω × Except RuntimeError Unit :=
  let request := consumed.request
  match pathTarget request with
  | .error error => (s, .error error)
  | .ok path =>
    if request.geneId.text ∈ inventoryGenes then
      match controller.executors.path path with
      | .error error => (s, .error error)
      | .ok target => finish controller call s consumed
          (controller.executors.inventory s.world consumed target)
          fun s lines => readOutput request path s (joinLines lines)
    else if request.geneId.text ∈ searchGenes then
      match controller.executors.path "." with
      | .error error => (s, .error error)
      | .ok target => finish controller call s consumed
          (controller.executors.search s.world consumed target path)
          fun s lines => readOutput request path s (joinLines lines)
    else
      match controller.executors.path path with
      | .error error => (s, .error error)
      | .ok target => finish controller call s consumed
          (controller.executors.read s.world consumed target) (readOutput request path)

def executeProcess (s : RunState sha json ω) (consumed : ConsumedPermit sha json) :
    RunState sha json ω × Except RuntimeError Unit :=
  match consumed.request.target with
  | .process program =>
    match controller.executors.command program with
    | .error error => (s, .error error)
    | .ok command => finish controller call s consumed
        (controller.executors.runVerification s.world consumed command)
        fun s stdout =>
          (if s.summary.selectedGene.text ∈ outputGenes then s.withOutput stdout else s, .ok ())
  | _ => (s, .error (.unsupportedOperation .processExecute))

def executeWrite (s : RunState sha json ω) (consumed : ConsumedPermit sha json)
    (payload : Option (List UInt8)) : RunState sha json ω × Except RuntimeError Unit :=
  match pathTarget consumed.request with
  | .error error => (s, .error error)
  | .ok path =>
    match controller.executors.path path, payload with
    | .error error, _ => (s, .error error)
    | .ok _, none => (s, .error (.filesystem "permission denied"))
    | .ok target, some content => finish controller call s consumed
        (controller.executors.writePatch s.world consumed target content) fun s _ => (s, .ok ())

/-- The URL is the payload; the evidence has to be written as JSON. -/
def executeNetwork (s : RunState sha json ω) (consumed : ConsumedPermit sha json)
    (payload : Option (List UInt8)) : RunState sha json ω × Except RuntimeError Unit :=
  match payload with
  | none => (s, .error (.network "permission denied"))
  | some bytes =>
    match String.fromUTF8? ⟨⟨bytes⟩⟩ with
    | none => (s, .error (.network "invalid URL"))
    | some source => finish controller call s consumed
        (controller.executors.fetch s.world consumed source) fun s evidence =>
          match evidence with
          | none => (s, .error (.invalidIntent "browser evidence could not be encoded"))
          | some text => (s.withOutput text, .ok ())

def executeWasm (s : RunState sha json ω) (consumed : ConsumedPermit sha json)
    (payload : Option (List UInt8)) : RunState sha json ω × Except RuntimeError Unit :=
  match payload with
  | none => (s, .error (.wasm "invalid input"))
  | some input => finish controller call s consumed
      (controller.executors.executeWasm s.world consumed input) fun s output =>
        (s.withOutput output, .ok ())

def executeRequest (s : RunState sha json ω) (consumed : ConsumedPermit sha json)
    (payload : Option (List UInt8)) : RunState sha json ω × Except RuntimeError Unit :=
  match consumed.request.capability with
  | .filesystemRead => executeRead controller call s consumed
  | .processExecute => executeProcess controller call s consumed
  | .filesystemWrite => executeWrite controller call s consumed payload
  | .networkConnect => executeNetwork controller call s consumed payload
  | .wasmExecute => executeWasm controller call s consumed payload
  | capability => (s, .error (.unsupportedOperation capability))

/-! ## The loop -/

/-- How the body of the loop ends: with the next request, by returning the summary, or by `?`. -/
inductive Outcome
  | next
  | stop
  | fail (error : RuntimeError)
deriving DecidableEq

/-- The permit is consumed and the request carried out. -/
def usePermit (s : RunState sha json ω) (request : OperationRequest sha json)
    (permit : EffectPermit) (payload : Option (List UInt8)) : RunState sha json ω × Outcome :=
  let s := s.act (.issued request permit)
  match consume s.monitor.store permit request call.now with
  | .error error => (recordFailure controller call s (.permit error), .stop)
  | .ok (store, consumed) =>
    let s := { s with monitor := { s.monitor with store } }
    let s := s.act (.consumed request permit)
    match executeRequest controller call s consumed payload with
    | (s, .error error) => (recordFailure controller call s error, .stop)
    | (s, .ok ()) => (s, .next)

def runRequest (s : RunState sha json ω) (request : OperationRequest sha json)
    (payload : Option (List UInt8)) : RunState sha json ω × Outcome :=
  let s := s.push (eventOf controller call s .effectRequested none
    (.effect request.capability.asStr request.requestDigest))
  match controller.hookDenial request with
  | some reason =>
    ((s.push (eventOf controller call s .policyDenied none (.policy reason))).withStatus
      (.denied reason), .stop)
  | none =>
    let s := s.act (.hookPassed request)
    match controller.parliament.decide request controller.policy with
    | .allow digest version reason =>
      if call.approval.isSome ∧ call.allowUnrequiredApproval = false then
        (recordFailure controller call s .approvalNotRequired, .stop)
      else
        let s := s.push (eventOf controller call s .policyApproved none (.policy reason))
        match s.monitor.authorize request (.allow digest version reason) call.now with
        | (monitor, .error error) =>
          (recordFailure controller call { s with monitor } (.authorization error), .stop)
        | (monitor, .ok permit) =>
          usePermit controller call { s with monitor } request permit payload
    | .deny _ _ reason =>
      ((s.push (eventOf controller call s .policyDenied none (.policy reason))).withStatus
        (.denied reason), .stop)
    | .requireApproval digest version reason =>
      match call.approval with
      | none =>
        ((s.push (eventOf controller call s .approvalRequired none (.policy reason))).withStatus
          (.approvalRequired reason), .stop)
      | some id =>
        match consumeGrant s.approvals id request.principalId request.sessionId request.executionId
            request.geneId request.requestDigest call.now with
        | (approvals, .error error) => ({ s with approvals }, .fail (.approval error))
        | (approvals, .ok grant) =>
          let s := { s with approvals }
          let s := s.push (eventOf controller call s .policyApproved none
            (.policy ("explicit approval consumed: " ++ reason)))
          match s.monitor.authorizeAfterApprovalWithGrant request
              (.requireApproval digest version reason) grant call.now with
          | (monitor, .error error) =>
            (recordFailure controller call { s with monitor } (.authorization error), .stop)
          | (monitor, .ok permit) =>
            usePermit controller call { s with monitor } request permit payload

def runRequests (payload : Option (List UInt8)) : List (OperationRequest sha json) →
    RunState sha json ω → RunState sha json ω × Except RuntimeError Unit
  | [], s => (s, .ok ())
  | request :: rest, s =>
    match runRequest controller call s request payload with
    | (s, .next) => runRequests payload rest s
    | (s, .stop) => (s, .ok ())
    | (s, .fail error) => (s, .error error)

/-- The summary before the loop. -/
def startSummary (plan : Plan sha json) : RunSummary where
  executionId := plan.executionId
  selectedHarness := plan.selectedHarness
  selectedGene := plan.selectedGene
  status := .completed
  output := plan.staticOutput
  receipts := []
  events := [⟨.sessionStarted,
    { tenantId := call.session.tenantId
      workspaceId := call.session.workspaceId
      sessionId := call.session.id
      executionId := plan.executionId
      harnessId := none
      geneId := none
      policyVersion := controller.policy.policyVersion
      receiptId := none }, .empty⟩]

/-- The monitor, the approvals and the world at the start. -/
structure Components (ω : Type) where
  monitor : ReferenceMonitor
  approvals : ApprovalDb
  world : ω

def startState (components : Components ω) (plan : Plan sha json) : RunState sha json ω where
  monitor := components.monitor
  approvals := components.approvals
  world := components.world
  summary := startSummary controller call plan
  acts := []

/-- `run_internal`: what was done, and what is returned. -/
def runInternal (components : Components ω) (prepared : Except RuntimeError (Plan sha json)) :
    List (Act sha json) × Except RuntimeError RunSummary :=
  match prepared with
  | .error error => ([], .error error)
  | .ok plan =>
    let (s, result) := runRequests controller call plan.payload plan.requests
      (startState controller call components plan)
    (s.acts, result.map fun _ => s.summary)

end Events

end Pandora.Execution.Requests
